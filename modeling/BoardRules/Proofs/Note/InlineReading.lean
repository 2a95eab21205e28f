import BoardRules.Proofs.Note.Written
import BoardRules.Proofs.Text.Pieces

/-!
# Reading the inline text of a written rule

The code span gives back the name, and every argument becomes one emphasised text. The fence of the
span is longer than every run in the name, so the span cannot end early; marks inside an argument
are escaped, and a mark around one has a blank or an end on its outer side, so that it can only open
or only close.
-/
namespace BoardRules.Note

open Text

/-! ## Runs -/

theorem runLength_replicate (c : Char) (n : Nat) (rest : List Char) (stops : rest.head? ≠ some c) :
    runLength c (List.replicate n c ++ rest) = n + 1 := by
  have none_left : rest.takeWhile (· == c) = [] := by
    cases rest with
    | nil => rfl
    | cons d rest =>
      have different : d ≠ c := by simpa using stops
      simp [different]
  rw [runLength, List.takeWhile_append_of_pos (by simp), none_left]
  simp

theorem afterRun_replicate (c : Char) (n : Nat) (rest : List Char) (stops : rest.head? ≠ some c) :
    afterRun c (List.replicate n c ++ rest) = rest := by
  rw [afterRun, List.dropWhile_append_of_pos (by simp)]
  cases rest with
  | nil => rfl
  | cons d rest =>
    have different : d ≠ c := by simpa using stops
    simp [different]

theorem head?_afterRun (c : Char) (rest : List Char) : (afterRun c rest).head? ≠ some c := by
  intro same
  have stopped := List.head?_dropWhile_not (· == c) rest
  rw [afterRun] at same
  simp [same] at stopped

/-- A text that goes on with `c` is the run of `c` and what comes after it. -/
theorem replicate_append_afterRun (c : Char) (rest : List Char) :
    List.replicate (runLength c rest - 1) c ++ afterRun c rest = rest := by
  have equal : rest.takeWhile (· == c) = List.replicate (rest.takeWhile (· == c)).length c := by
    refine List.eq_replicate_iff.mpr ⟨rfl, fun d member => ?_⟩
    simpa using List.all_eq_true.mp List.all_takeWhile d member
  rw [runLength, Nat.add_sub_cancel, ← equal]
  exact List.takeWhile_append_dropWhile

theorem replicate_runLength_append (c : Char) (rest : List Char) :
    List.replicate (runLength c rest) c ++ afterRun c rest = c :: rest := by
  conv_rhs => rw [← replicate_append_afterRun c rest]
  rw [← List.cons_append, ← List.replicate_succ]
  rfl

theorem longestRun_cons_self (c : Char) (rest : List Char) :
    longestRun c (c :: rest) = max (runLength c rest) (longestRun c rest) := by
  simp [longestRun]

theorem longestRun_afterRun_le (c : Char) (rest : List Char) :
    longestRun c (afterRun c rest) ≤ longestRun c rest := by
  induction rest with
  | nil => exact Nat.le_refl _
  | cons d rest ih =>
    by_cases same : d = c
    · subst same
      have skipped : afterRun d (d :: rest) = afterRun d rest := by simp [afterRun]
      rw [skipped, longestRun_cons_self]
      omega
    · have kept : afterRun c (d :: rest) = d :: rest := by simp [afterRun, same]
      rw [kept]

theorem longestRun_append_singleton (c d : Char) (text : List Char) (different : d ≠ c) :
    longestRun c (text ++ [d]) = longestRun c text := by
  induction text with
  | nil => simp [longestRun, different]
  | cons e text ih =>
    have same_run : runLength c (text ++ [d]) = runLength c text := by
      simp only [runLength, List.takeWhile_append]
      split
      · next whole => simp [different, whole]
      · rfl
    simp only [List.cons_append, longestRun, ih, same_run]

/-! ## Single steps -/

theorem piecesAfter_code (before : Option Char) (pending : List Char) {rest code after : List Char}
    (found : closeCode? (runLength backtick rest) (afterRun backtick rest) = some (code, after)) :
    piecesAfter before pending (backtick :: rest) =
      flushText pending ++ .code (codeText code) :: piecesAfter (some backtick) [] after := by
  rw [piecesAfter.eq_5 _ _ _ _ (fun _ h => absurd h (by decide))
    (fun _ _ h => absurd h (by decide)) (by decide), if_pos rfl]
  split
  · next code' after' found' =>
    obtain ⟨rfl, rfl⟩ := Prod.mk.inj (Option.some.inj (found.symm.trans found'))
    rfl
  · next missing => cases found.symm.trans missing

theorem piecesAfter_mark (before : Option Char) (pending : List Char) {c : Char}
    (rest : List Char) (mark : c = '*' ∨ c = '_') :
    piecesAfter before pending (c :: rest) =
      flushText pending ++
        .run (.between c (runLength c rest) before (afterRun c rest).head?) ::
          piecesAfter (some c) [] (afterRun c rest) := by
  have noEscape : c ≠ '\\' := by rcases mark with rfl | rfl <;> decide
  have noBreak : c ≠ '\n' := by rcases mark with rfl | rfl <;> decide
  have noCode : c ≠ backtick := by rcases mark with rfl | rfl <;> decide
  rw [piecesAfter.eq_5 _ _ _ _ (fun _ h => absurd h noEscape) (fun _ _ h => absurd h noEscape)
    noBreak, if_neg noCode, if_pos mark]

theorem piecesAfter_escaped (before : Option Char) (pending : List Char) {c : Char}
    (rest : List Char) (punctuation : isAsciiPunctuation c = true) :
    piecesAfter before pending ('\\' :: c :: rest) = piecesAfter (some c) (c :: pending) rest := by
  have noBreak : c ≠ '\n' := by
    intro same
    subst same
    exact absurd punctuation (by decide)
  rw [piecesAfter.eq_3 _ _ _ _ noBreak, if_pos punctuation]

/-- The characters that inline text gives a meaning. -/
def isSpecial (c : Char) : Bool :=
  c == '\\' || c == '\n' || c == backtick || c == '*' || c == '_'

theorem piecesAfter_ordinary (before : Option Char) (pending : List Char) {c : Char}
    (rest : List Char) (ordinary : isSpecial c = false) :
    piecesAfter before pending (c :: rest) = piecesAfter (some c) (c :: pending) rest := by
  simp only [isSpecial, Bool.or_eq_false_iff, beq_eq_false_iff_ne] at ordinary
  obtain ⟨⟨⟨⟨noEscape, noBreak⟩, noCode⟩, noStar⟩, noLowLine⟩ := ordinary
  rw [piecesAfter.eq_5 _ _ _ _ (fun _ h => absurd h noEscape) (fun _ _ h => absurd h noEscape)
    noBreak, if_neg noCode, if_neg (not_or.mpr ⟨noStar, noLowLine⟩)]

/-- All special characters are punctuation or line feeds. -/
theorem piecesAfter_plain (before : Option Char) (pending : List Char) {c : Char}
    (rest : List Char) (plain : isAsciiPunctuation c = false) (noBreak : c ≠ '\n') :
    piecesAfter before pending (c :: rest) = piecesAfter (some c) (c :: pending) rest := by
  have different : ∀ d, isAsciiPunctuation d = true → c ≠ d := by
    intro d punctuation same
    subst same
    rw [plain] at punctuation
    cases punctuation
  refine piecesAfter_ordinary before pending rest ?_
  simp [isSpecial, noBreak, different '\\' (by decide), different backtick (by decide),
    different '*' (by decide), different '_' (by decide)]

/-! ## Code spans -/

/-- What does not go on with a run does not lengthen it. -/
theorem run_append_of_stops {c : Char} (text : List Char) {below : List Char}
    (stops : (afterRun c text ++ below).head? ≠ some c) :
    runLength c (text ++ below) = runLength c text ∧
      afterRun c (text ++ below) = afterRun c text ++ below := by
  have split := replicate_append_afterRun c text
  have shifted : text ++ below =
      List.replicate (runLength c text - 1) c ++ (afterRun c text ++ below) := by
    rw [← List.append_assoc, split]
  constructor
  · rw [shifted, runLength_replicate _ _ _ stops]
    simp [runLength]
  · rw [shifted, afterRun_replicate _ _ _ stops]

/-- What follows a run that has ended does not lengthen it. -/
theorem run_append {c : Char} {text : List Char} (left : afterRun c text ≠ []) (below : List Char) :
    runLength c (text ++ below) = runLength c text ∧
      afterRun c (text ++ below) = afterRun c text ++ below := by
  refine run_append_of_stops text ?_
  rw [List.head?_append_of_ne_nil _ left]
  exact head?_afterRun _ _

/-- A text without a run as long as the fence is read up to the fence. Its last character is no
backtick, so that none of its runs grows into the fence. -/
theorem closeCode?_append (length : Nat) (rest : List Char) (ends : rest.head? ≠ some backtick)
    (code : List Char) (short : longestRun backtick code < length)
    (last : code.getLast? ≠ some backtick) :
    closeCode? length (code ++ (List.replicate length backtick ++ rest)) = some (code, rest) := by
  match code with
  | [] =>
    obtain ⟨n, rfl⟩ : ∃ n, length = n + 1 := ⟨length - 1, by omega⟩
    rw [List.nil_append, List.replicate_succ, List.cons_append, closeCode?, if_neg (by simp),
      if_pos (runLength_replicate _ _ _ ends), afterRun_replicate _ _ _ ends]
  | c :: code =>
    by_cases mark : c = backtick
    · subst mark
      have split := replicate_append_afterRun backtick code
      have shorter : (afterRun backtick code).length ≤ code.length := length_afterRun_le _ _
      rw [longestRun_cons_self] at short
      have left : afterRun backtick code ≠ [] := by
        intro nothing
        rw [nothing, List.append_nil] at split
        rw [← split, ← List.replicate_succ, List.getLast?_replicate] at last
        simp at last
      have last_after : (afterRun backtick code).getLast? ≠ some backtick := by
        rw [← split, ← List.cons_append, List.getLast?_append_of_ne_nil _ left] at last
        exact last
      obtain ⟨run_eq, after_eq⟩ := run_append left (List.replicate length backtick ++ rest)
      have closed := closeCode?_append length rest ends (afterRun backtick code)
        (Nat.lt_of_le_of_lt (longestRun_afterRun_le _ _) (by omega)) last_after
      rw [List.cons_append, closeCode?, if_neg (by simp), run_eq, if_neg (by omega), after_eq,
        closed]
      simp [replicate_runLength_append]
    · have short_rest : longestRun backtick code < length := by
        simpa [longestRun, mark] using short
      have last_rest : code.getLast? ≠ some backtick := by
        cases code with
        | nil => simp
        | cons d code => simpa [List.getLast?_cons_cons] using last
      rw [List.cons_append, closeCode?, if_pos mark,
        closeCode?_append length rest ends code short_rest last_rest]
      rfl
termination_by code.length
decreasing_by
  · simp only [List.length_cons]; omega
  · simp

theorem codeContent_cases (name : List Char) :
    (name.all (· == ' ') = true ∧ codeContent name = name) ∨
      (name.all (· == ' ') = false ∧ codeContent name = ' ' :: (name ++ [' '])) := by
  cases spaces : name.all (· == ' ') with
  | true => exact Or.inl ⟨rfl, by simp only [codeContent, spaces, if_true]⟩
  | false => exact Or.inr ⟨rfl, by simp only [codeContent, spaces, Bool.false_eq_true, if_false]⟩

theorem longestRun_codeContent (name : List Char) :
    longestRun backtick (codeContent name) = longestRun backtick name := by
  rcases codeContent_cases name with ⟨_, same⟩ | ⟨_, padded⟩
  · rw [same]
  · rw [padded, longestRun, if_neg (by decide),
      longestRun_append_singleton backtick ' ' name (by decide)]

theorem getLast?_codeContent (name : List Char) (nonempty : name ≠ []) :
    (codeContent name).getLast? = some ' ' := by
  rcases codeContent_cases name with ⟨spaces, same⟩ | ⟨_, padded⟩
  · rw [same, List.getLast?_eq_some_getLast nonempty]
    have last := List.all_eq_true.mp spaces _ (List.getLast_mem nonempty)
    simpa using last
  · rw [padded, ← List.cons_append, List.getLast?_concat]

/-- In one line there are no line feeds to take for spaces. -/
theorem spaced_eq_self (text : List Char) (oneLine : '\n' ∉ text) :
    (text.map fun c => if c = '\n' then ' ' else c) = text := by
  calc text.map (fun c => if c = '\n' then ' ' else c)
    _ = text.map id := List.map_congr_left fun c member =>
        if_neg (ne_of_mem_of_not_mem member oneLine)
    _ = text := List.map_id text

/-- Reading the content of a code span takes the padding off again. -/
theorem codeText_codeContent (name : List Char) (oneLine : '\n' ∉ name) :
    codeText (codeContent name) = name := by
  rcases codeContent_cases name with ⟨spaces, same⟩ | ⟨visible, padded⟩
  · rw [same, codeText, spaced_eq_self name oneLine]
    simp only [spaces, if_true]
  · have absent : '\n' ∉ ' ' :: (name ++ [' ']) := by simp [oneLine]
    have not_spaces : (' ' :: (name ++ [' '])).all (· == ' ') = false := by
      simp only [List.all_cons, List.all_append, visible, Bool.false_and, Bool.and_false]
    have last : (' ' :: (name ++ [' '])).getLast? = some ' ' := by
      rw [← List.cons_append, List.getLast?_concat]
    rw [padded, codeText, spaced_eq_self _ absent]
    simp only [not_spaces, last, List.head?_cons, Bool.false_eq_true, if_false, and_self, if_true,
      List.tail_cons, List.dropLast_concat]

theorem head?_codeContent (name rest : List Char) (nonempty : name ≠ []) :
    (codeContent name ++ rest).head? = some ' ' := by
  rcases codeContent_cases name with ⟨spaces, same⟩ | ⟨_, padded⟩
  · obtain ⟨c, name, rfl⟩ := List.exists_cons_of_ne_nil nonempty
    have space : c = ' ' := by simpa using List.all_eq_true.mp spaces c List.mem_cons_self
    rw [same, space]
    rfl
  · rw [padded]
    rfl

theorem codeSpan_append (name rest : List Char) :
    codeSpan name ++ rest = backtick :: (List.replicate (longestRun backtick name) backtick ++
      (codeContent name ++ (codeFence name ++ rest))) := by
  simp only [codeSpan, codeFence, List.replicate_succ, List.cons_append, List.append_assoc]

theorem piecesAfter_codeSpan (before : Option Char) (pending name rest : List Char)
    (nonempty : name ≠ []) (oneLine : '\n' ∉ name) (ends : rest.head? ≠ some backtick) :
    piecesAfter before pending (codeSpan name ++ rest) =
      flushText pending ++ .code name :: piecesAfter (some backtick) [] rest := by
  have short : longestRun backtick (codeContent name) < longestRun backtick name + 1 := by
    rw [longestRun_codeContent]
    exact Nat.lt_succ_self _
  have last : (codeContent name).getLast? ≠ some backtick := by
    rw [getLast?_codeContent name nonempty]
    decide
  have stops : (codeContent name ++ (codeFence name ++ rest)).head? ≠ some backtick := by
    rw [head?_codeContent name _ nonempty]
    decide
  have found : closeCode?
      (runLength backtick (List.replicate (longestRun backtick name) backtick ++
        (codeContent name ++ (codeFence name ++ rest))))
      (afterRun backtick (List.replicate (longestRun backtick name) backtick ++
        (codeContent name ++ (codeFence name ++ rest)))) = some (codeContent name, rest) := by
    rw [runLength_replicate _ _ _ stops, afterRun_replicate _ _ _ stops]
    exact closeCode?_append _ rest ends _ short last
  rw [codeSpan_append, piecesAfter_code before pending found, codeText_codeContent name oneLine]

/-! ## Arguments -/

/-- A spelling of a text that is read without any piece of its own. -/
def Spells (spelling text : List Char) : Prop :=
  ∀ before pending rest, piecesAfter before pending (spelling ++ rest) =
    piecesAfter (text.getLast?.or before) (text.reverse ++ pending) rest

/-- A character before a text that is spelled already. -/
theorem Spells.cons {spelled spelling text : List Char} {c : Char}
    (first : ∀ before pending rest, piecesAfter before pending (spelled ++ rest) =
      piecesAfter (some c) (c :: pending) rest) (spells : Spells spelling text) :
    Spells (spelled ++ spelling) (c :: text) := by
  intro before pending rest
  have last : text.getLast?.or (some c) = (c :: text).getLast?.or before := by
    rw [List.getLast?_cons]
    cases text.getLast? <;> rfl
  rw [List.append_assoc, first, spells, last, List.reverse_cons, List.append_assoc]
  rfl

theorem Spells.append {spelling spelling' text text' : List Char} (first : Spells spelling text)
    (second : Spells spelling' text') : Spells (spelling ++ spelling') (text ++ text') := by
  intro before pending rest
  rw [List.append_assoc, first, second, List.getLast?_append, Option.or_assoc, List.reverse_append,
    List.append_assoc]

theorem spells_escape (text : List Char) (oneLine : '\n' ∉ text) : Spells (escape text) text := by
  induction text with
  | nil => exact fun _ _ _ => rfl
  | cons c text ih =>
    have noBreak : c ≠ '\n' := fun same => oneLine (same ▸ List.mem_cons_self)
    have oneLine_text : '\n' ∉ text := fun member => oneLine (List.mem_cons_of_mem c member)
    rw [escape, List.flatMap_cons]
    refine Spells.cons (fun before pending rest => ?_) (ih oneLine_text)
    cases punctuation : isAsciiPunctuation c with
    | true => exact piecesAfter_escaped before pending rest punctuation
    | false => exact piecesAfter_plain before pending rest punctuation noBreak

/-- Without special characters a text spells itself. -/
theorem spells_self (text : List Char) (ordinary : ∀ c ∈ text, isSpecial c = false) :
    Spells text text := by
  induction text with
  | nil => exact fun _ _ _ => rfl
  | cons c text ih =>
    have first : ∀ before pending rest, piecesAfter before pending ([c] ++ rest) =
        piecesAfter (some c) (c :: pending) rest := fun before pending rest =>
      piecesAfter_ordinary before pending rest (ordinary c List.mem_cons_self)
    exact Spells.cons first (ih fun d member => ordinary d (List.mem_cons_of_mem c member))

theorem head?_escape (text : List Char) (nonempty : text ≠ []) :
    ∃ c, (∀ rest, (escape text ++ rest).head? = some c) ∧
      (c = '\\' ∨ text.head? = some c ∧ isAsciiPunctuation c = false) := by
  obtain ⟨c, text, rfl⟩ := List.exists_cons_of_ne_nil nonempty
  cases punctuation : isAsciiPunctuation c with
  | true => exact ⟨'\\', by simp [escape, punctuation], Or.inl rfl⟩
  | false => exact ⟨c, by simp [escape, punctuation], Or.inr ⟨rfl, punctuation⟩⟩

theorem getLast?_escape (text : List Char) : (escape text).getLast? = text.getLast? := by
  rcases List.eq_nil_or_concat text with rfl | ⟨text, c, rfl⟩
  · rfl
  · rw [List.concat_eq_append, escape, List.flatMap_append, List.flatMap_singleton,
      List.getLast?_concat]
    split
    · rw [List.append_cons, List.getLast?_concat]
    · rw [List.getLast?_concat]

theorem Marks.mark_cases (marks : Marks) : marks.mark = '*' ∨ marks.mark = '_' := by
  cases marks
  · exact Or.inl rfl
  · exact Or.inr rfl
  · exact Or.inl rfl
  · exact Or.inr rfl

theorem Marks.text_eq (marks : Marks) :
    marks.text = marks.mark :: List.replicate (marks.count - 1) marks.mark := by
  cases marks <;> rfl

theorem piecesAfter_marks (before : Option Char) (pending rest : List Char) (marks : Marks)
    (stops : rest.head? ≠ some marks.mark) :
    piecesAfter before pending (marks.text ++ rest) =
      flushText pending ++ .run (.between marks.mark marks.count before rest.head?) ::
        piecesAfter (some marks.mark) [] rest := by
  have count : marks.count - 1 + 1 = marks.count := by cases marks <;> rfl
  rw [marks.text_eq, List.cons_append, piecesAfter_mark _ _ _ marks.mark_cases,
    runLength_replicate _ _ _ stops, afterRun_replicate _ _ _ stops, count]

/-- The run in front of an argument. -/
def Marks.opener (marks : Marks) : Run := ⟨marks.mark, marks.count, marks.count, true, false⟩

/-- The run behind an argument. -/
def Marks.closer (marks : Marks) : Run := ⟨marks.mark, marks.count, marks.count, false, true⟩

theorem Marks.between_opener (marks : Marks) (c : Char) (visible : isBlank c = false) :
    Run.between marks.mark marks.count (some ' ') (some c) = marks.opener := by
  have space : isBlank ' ' = true := by decide
  rcases marks.mark_cases with mark | mark <;>
    simp [Run.between, flanking, Marks.opener, mark, visible, space]

theorem Marks.between_closer (marks : Marks) (c : Char) (after : Option Char)
    (visible : isBlank c = false) (blank : ∀ d ∈ after, isBlank d = true) :
    Run.between marks.mark marks.count (some c) after = marks.closer := by
  cases after with
  | none =>
    rcases marks.mark_cases with mark | mark <;>
      simp [Run.between, flanking, Marks.closer, mark, visible]
  | some d =>
    have space := blank d rfl
    rcases marks.mark_cases with mark | mark <;>
      simp [Run.between, flanking, Marks.closer, mark, visible, space]

theorem flushText_reverse (text : List Char) (nonempty : text ≠ []) :
    flushText text.reverse = [.text text] := by
  simp [flushText, nonempty]

/-- What a text between marks is cut into, with the space before it. -/
def Marks.pieces (marks : Marks) (text : List Char) : List Piece :=
  [.text [' '], .run marks.opener, .text text, .run marks.closer]

/-- What an argument is cut into. -/
def WrittenArgument.pieces (argument : WrittenArgument) : List Piece :=
  argument.marks.pieces argument.text.toList

theorem Marks.isBlank_mark (marks : Marks) : isBlank marks.mark = false := by
  cases marks <;> decide

/-- Between marks stands a spelling that begins with a visible character other than the mark. -/
theorem piecesAfter_marked (marks : Marks) {spelling text : List Char} (spells : Spells spelling text)
    (nonempty : text ≠ []) (endsVisible : ∀ c ∈ text.getLast?, isBlank c = false) {first : Char}
    (starts : ∀ rest, (spelling ++ rest).head? = some first) (visible : isBlank first = false)
    (unmarked : first ≠ marks.mark) (before : Option Char) (rest : List Char)
    (blank : ∀ d ∈ rest.head?, isBlank d = true) :
    piecesAfter before [] (' ' :: (marks.text ++ (spelling ++ (marks.text ++ rest)))) =
      marks.pieces text ++ piecesAfter (some marks.mark) [] rest := by
  obtain ⟨last, getLast⟩ : ∃ last, text.getLast? = some last :=
    ⟨_, List.getLast?_eq_some_getLast nonempty⟩
  have opener_stops : (spelling ++ (marks.text ++ rest)).head? ≠ some marks.mark := by
    rw [starts]
    exact fun same => unmarked (Option.some.inj same)
  have closer_stops : rest.head? ≠ some marks.mark := by
    intro same
    have space := blank _ same
    rw [marks.isBlank_mark] at space
    cases space
  have closer := marks.between_closer last rest.head? (endsVisible last getLast) blank
  rw [piecesAfter_plain _ _ _ (by decide) (by decide), piecesAfter_marks _ _ _ _ opener_stops,
    starts, marks.between_opener first visible, spells, piecesAfter_marks _ _ _ _ closer_stops,
    getLast, Option.some_or, closer, List.append_nil, flushText_reverse _ nonempty]
  rfl

theorem piecesAfter_written (argument : WrittenArgument) (before : Option Char) (rest : List Char)
    (blank : ∀ d ∈ rest.head?, isBlank d = true) :
    piecesAfter before [] (argument.written ++ rest) =
      argument.pieces ++ piecesAfter (some argument.marks.mark) [] rest := by
  have mark_punctuation : isAsciiPunctuation argument.marks.mark = true := by
    cases argument.marks <;> decide
  obtain ⟨c, starts, start⟩ := head?_escape argument.text.toList argument.nonempty
  have visible : isBlank c = false := by
    rcases start with rfl | ⟨first, _⟩
    · decide
    · exact argument.startsVisible c first
  have unmarked : c ≠ argument.marks.mark := by
    rcases start with rfl | ⟨_, plain⟩
    · cases argument.marks <;> decide
    · intro same
      subst same
      rw [mark_punctuation] at plain
      cases plain
  have spread : argument.written ++ rest = ' ' :: (argument.marks.text ++
      (escape argument.text.toList ++ (argument.marks.text ++ rest))) := by
    simp only [WrittenArgument.written, List.cons_append, List.append_assoc]
  rw [spread]
  exact piecesAfter_marked argument.marks (spells_escape _ argument.oneLine) argument.nonempty
    argument.endsVisible starts visible unmarked before rest blank

theorem head?_flatMap_written (arguments : List WrittenArgument) :
    ∀ d ∈ (arguments.flatMap WrittenArgument.written).head?, d = ' ' := by
  cases arguments with
  | nil => intro d member; cases member
  | cons argument arguments =>
    intro d member
    exact (Option.some.inj member).symm

theorem piecesAfter_flatMap_written (arguments : List WrittenArgument) (before : Option Char) :
    piecesAfter before [] (arguments.flatMap WrittenArgument.written) =
      arguments.flatMap WrittenArgument.pieces := by
  induction arguments generalizing before with
  | nil => simp [piecesAfter, flushText]
  | cons argument arguments ih =>
    have blank : ∀ d ∈ (arguments.flatMap WrittenArgument.written).head?, isBlank d = true := by
      intro d member
      rw [head?_flatMap_written arguments d member]
      decide
    rw [List.flatMap_cons, piecesAfter_written _ _ _ blank, ih, List.flatMap_cons]

/-! ## Emphasis -/

/-- The piece that the marks of an argument make of it. -/
def WrittenArgument.emphasised (argument : WrittenArgument) : Piece :=
  .wrap argument.marks.count [.text argument.text.toList]

/-- The runs of the pieces ahead pair among themselves, whatever stands around them. -/
def Pairs (ahead paired : List Piece) : Prop :=
  ∀ before rest, pairRuns before (ahead ++ rest) = pairRuns (paired.reverse ++ before) rest

namespace Pairs

variable {ahead ahead' paired paired' : List Piece}

theorem append (first : Pairs ahead paired) (second : Pairs ahead' paired') :
    Pairs (ahead ++ ahead') (paired ++ paired') := by
  intro before rest
  rw [List.append_assoc, first, second, List.reverse_append, List.append_assoc]

theorem flatMap {α : Type} {f g : α → List Piece} (each : ∀ x, Pairs (f x) (g x)) (xs : List α) :
    Pairs (xs.flatMap f) (xs.flatMap g) := by
  induction xs with
  | nil => exact fun _ _ => rfl
  | cons x xs ih => exact (each x).append ih

theorem piece {p : Piece} (noRun : ∀ r, p ≠ .run r) : Pairs [p] [p] := by
  intro before rest
  exact pairRuns.eq_3 before p rest noRun

theorem pairRuns_eq (pairs : Pairs ahead paired) : pairRuns [] ahead = paired := by
  have settled := pairs [] []
  rwa [List.append_nil, List.append_nil, pairRuns, List.reverse_reverse] at settled

end Pairs

/-- The run behind an argument finds the run in front of it, and both are used up. -/
theorem pairs_pieces (argument : WrittenArgument) :
    Pairs argument.pieces [.text [' '], argument.emphasised] := by
  intro before rest
  have opens : argument.marks.opener.opensFor argument.marks.closer = true := by
    cases argument.marks <;> decide
  have found : findOpener? argument.marks.closer
      (.text argument.text.toList :: .run argument.marks.opener :: .text [' '] :: before) =
      some ([.text argument.text.toList], argument.marks.opener, .text [' '] :: before) := by
    simp [findOpener?, opens]
  have length : argument.marks.opener.pairLength argument.marks.closer = argument.marks.count := by
    cases argument.marks <;> rfl
  have opener_spent : argument.marks.opener.spend argument.marks.count = [] := by
    cases argument.marks <;> rfl
  have closer_spent : argument.marks.closer.spend argument.marks.count = [] := by
    cases argument.marks <;> rfl
  have closes : argument.marks.closer.canClose = true := rfl
  simp only [WrittenArgument.pieces, Marks.pieces, List.cons_append, List.nil_append]
  rw [pairRuns.eq_3 _ _ _ (by simp), pairRuns.eq_2, if_neg (by simp [Marks.opener]),
    pairRuns.eq_3 _ _ _ (by simp), pairRuns.eq_2, if_pos closes, found]
  simp only [length, opener_spent, closer_spent, List.nil_append, List.reverse_singleton]
  rfl

/-- The emphasised argument once the paragraph is settled. -/
def WrittenArgument.inline (argument : WrittenArgument) : Inline := argument.emphasised.settle

theorem WrittenArgument.inline_cases (argument : WrittenArgument) :
    argument.inline = .strong [.text argument.text.toList] ∨
      argument.inline = .emphasis [.text argument.text.toList] := by
  have settled : settleAll [.text argument.text.toList] = [.text argument.text.toList] := by
    simp [settleAll, Piece.settle, Inline.before]
  unfold WrittenArgument.inline WrittenArgument.emphasised Piece.wrap
  split
  · exact Or.inl (by rw [Piece.settle, settled])
  · exact Or.inr (by rw [Piece.settle, settled])

/-- Pieces that settle in the same way whatever comes after them. -/
def Settles (pieces : List Piece) (settled : List Inline) : Prop :=
  ∀ rest, settleAll (pieces ++ rest) = settled ++ settleAll rest

namespace Settles

variable {pieces pieces' : List Piece} {settled settled' : List Inline}

theorem append (first : Settles pieces settled) (second : Settles pieces' settled') :
    Settles (pieces ++ pieces') (settled ++ settled') := by
  intro rest
  rw [List.append_assoc, first, second, List.append_assoc]

theorem flatMap {α : Type} {f : α → List Piece} {g : α → List Inline}
    (each : ∀ x, Settles (f x) (g x)) (xs : List α) : Settles (xs.flatMap f) (xs.flatMap g) := by
  induction xs with
  | nil => exact fun _ => rfl
  | cons x xs ih => exact (each x).append ih

theorem piece {p : Piece} {node : Inline} (settled : p.settle = node)
    (noText : ∀ cs, node ≠ .text cs) : Settles [p] [node] := by
  intro rest
  have apart : node.before (settleAll rest) = node :: settleAll rest := by
    rw [Inline.before]
    exact fun cs _ _ same => absurd same (noText cs)
  rw [List.singleton_append, settleAll, settled, apart]
  rfl

/-- A text does not run into a piece that is none. -/
theorem text_piece (cs : List Char) {p : Piece} {node : Inline} (settled : p.settle = node)
    (noText : ∀ cs, node ≠ .text cs) : Settles [.text cs, p] [.text cs, node] := by
  intro rest
  have next := piece settled noText rest
  have apart : (Inline.text cs).before (node :: settleAll rest) =
      .text cs :: node :: settleAll rest := by
    rw [Inline.before]
    exact fun _ other _ _ same => absurd (List.cons.inj same).1 (noText other)
  rw [List.singleton_append, List.singleton_append] at next
  rw [List.cons_append, settleAll, List.singleton_append, next, Piece.settle, apart]
  rfl

theorem settleAll_eq (settles : Settles pieces settled) : settleAll pieces = settled := by
  have all := settles []
  rwa [List.append_nil, settleAll, List.append_nil] at all

end Settles

theorem settles_emphasised (argument : WrittenArgument) :
    Settles [.text [' '], argument.emphasised] [.text [' '], argument.inline] := by
  refine Settles.text_piece [' '] rfl fun cs same => ?_
  rcases argument.inline_cases with strong | emphasis
  · cases strong.symm.trans same
  · cases emphasis.symm.trans same

/-! ## Declarations -/

theorem ofText_content (rule : WrittenRule) :
    Inline.ofText rule.content =
      .code rule.name.toList :: rule.arguments.flatMap fun argument =>
        [.text [' '], argument.inline] := by
  have ends : (rule.arguments.flatMap WrittenArgument.written).head? ≠ some backtick := by
    intro same
    exact absurd (head?_flatMap_written _ _ same) (by decide)
  have pairs := (Pairs.piece (p := .code rule.name.toList) (by simp)).append
    (Pairs.flatMap pairs_pieces rule.arguments)
  have name : Settles [.code rule.name.toList] [.code rule.name.toList] :=
    Settles.piece (by rw [Piece.settle]) (by simp)
  have settles := name.append (Settles.flatMap settles_emphasised rule.arguments)
  rw [Inline.ofText, Piece.ofText, WrittenRule.content,
    piecesAfter_codeSpan _ _ _ _ rule.nonempty rule.oneLine ends, piecesAfter_flatMap_written]
  exact (congrArg settleAll pairs.pairRuns_eq).trans settles.settleAll_eq

theorem argument?_inline (argument : WrittenArgument) :
    argument.inline.argument? = some argument.text.toList := by
  have trimmed := trim_eq_self _ argument.startsVisible argument.endsVisible
  rcases argument.inline_cases with strong | emphasis
  · rw [strong, Inline.argument?, trimmed]
  · rw [emphasis, Inline.argument?, trimmed]

theorem arguments_flatMap_inline (written : List WrittenArgument) :
    arguments (written.flatMap fun argument => [.text [' '], argument.inline]) =
      written.map fun argument => argument.text.toList := by
  have emphasised : (written.flatMap fun argument => [Inline.text [' '], argument.inline]).filterMap
      Inline.argument? = written.map fun argument => argument.text.toList := by
    induction written with
    | nil => rfl
    | cons argument written ih =>
      have blank : (Inline.text [' ']).argument? = none := rfl
      simp [argument?_inline, blank, ih]
  cases written with
  | nil => rfl
  | cons argument written =>
    unfold arguments
    rw [emphasised]
    rfl

/-- The paragraph of a written rule declares this rule and no other. -/
theorem declarations_content (rule : WrittenRule) :
    declarations (Inline.ofText rule.content) = [rule.declaration] := by
  have no_more : ∀ written : List WrittenArgument,
      declarations (written.flatMap fun argument => [.text [' '], argument.inline]) = [] := by
    intro written
    induction written with
    | nil => rfl
    | cons argument written ih =>
      simp only [List.flatMap_cons, List.cons_append, List.nil_append]
      rcases argument.inline_cases with strong | emphasis
      · rw [strong]; exact ih
      · rw [emphasis]; exact ih
  rw [ofText_content, declarations, arguments_flatMap_inline, no_more, List.map_map]
  simp [WrittenRule.declaration, Function.comp_def]

end BoardRules.Note
