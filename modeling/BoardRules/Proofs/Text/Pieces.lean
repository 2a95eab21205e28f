import BoardRules.Text.Pieces
import Mathlib.Data.List.Infix
import Mathlib.Data.List.TakeWhile

/-!
# Cutting and trimming texts

Joining undoes cutting at one character, and cutting undoes joining if no part holds the character.
The text before the first occurrence of a mark is found whenever it lacks the first character of the
mark. Trimming leaves visible ends and takes away nothing but blanks.
-/
namespace BoardRules.Text

/-! ## Pieces -/

theorem pieces_eq_splitOnP {α : Type} (p : α → Bool) (xs : List α) :
    pieces p xs = xs.splitOnP p := by
  induction xs with
  | nil => rfl
  | cons x xs ih =>
    rw [pieces, List.splitOnP_cons_eq_if_modifyHead, ih]
    cases cut : List.splitOnP p xs with
    | nil => exact absurd cut (List.splitOnP_ne_nil p xs)
    | cons piece more => rfl

theorem pieces_append_cons {α : Type} {p : α → Bool} {x : α} (separator : p x = true)
    (piece rest : List α) (whole : ∀ y ∈ piece, p y = false) :
    pieces p (piece ++ x :: rest) = piece :: pieces p rest := by
  simp only [pieces_eq_splitOnP]
  exact List.splitOnP_append_cons_of_forall_mem whole x separator rest

theorem pieces_eq_singleton {α : Type} {p : α → Bool} (piece : List α)
    (whole : ∀ y ∈ piece, p y = false) : pieces p piece = [piece] := by
  rw [pieces_eq_splitOnP]
  exact List.splitOnP_eq_singleton whole

theorem not_of_mem_pieces {p : Char → Bool} {text piece : List Char} (cut : piece ∈ pieces p text) :
    ∀ c ∈ piece, p c = false := by
  induction text generalizing piece with
  | nil =>
    rw [pieces, List.mem_singleton] at cut
    subst cut
    exact fun c member => absurd member List.not_mem_nil
  | cons c rest others =>
    rw [pieces] at cut
    split at cut
    · rcases List.mem_cons.mp cut with rfl | later
      · exact fun d member => absurd member List.not_mem_nil
      · exact others later
    · next visible =>
      have first : ∀ piece, (∀ d ∈ piece, p d = false) → ∀ d ∈ c :: piece, p d = false :=
        fun piece same => List.forall_mem_cons.mpr ⟨by simpa using visible, same⟩
      split at cut
      · rw [List.mem_singleton.mp cut]
        exact first [] (by simp)
      · next next more cutRest =>
        rw [cutRest] at others
        rcases List.mem_cons.mp cut with rfl | later
        · exact first next (others List.mem_cons_self)
        · exact others (List.mem_cons_of_mem _ later)

/-- Cutting at one character and joining undo each other. -/
theorem pieces_eq_iff {separator : Char} {text : List Char} {parts : List (List Char)}
    (some : parts ≠ []) : pieces (· == separator) text = parts ↔
      (∀ part ∈ parts, separator ∉ part) ∧ text = [separator].intercalate parts := by
  have split : pieces (· == separator) text = text.splitOn separator := by
    rw [pieces_eq_splitOnP, List.splitOn_eq_splitOnP]
  constructor
  · intro cut
    refine ⟨fun part member inside => ?_, ?_⟩
    · exact absurd (not_of_mem_pieces (cut ▸ member) separator inside) (by simp)
    · rw [← cut, split, List.intercalate_splitOn]
  · rintro ⟨whole, joined⟩
    rw [split, joined, List.splitOn_intercalate separator whole some]

/-! ## Words -/

theorem words_append_cons {c : Char} (blank : isBlank c = true) (before after : List Char) :
    words (before ++ c :: after) = words before ++ words after := by
  simp only [words, pieces_eq_splitOnP]
  rw [List.splitOnP_append_cons before after blank, List.filter_append]

/-- No word goes on over a blank. -/
theorem words_append {after : List Char} (before : List Char)
    (blank : ∀ c ∈ after.head?, isBlank c = true) :
    words (before ++ after) = words before ++ words after := by
  cases after with
  | nil => simp [words, pieces]
  | cons c after =>
    have skipped := words_append_cons (blank c rfl) [] after
    rw [words_append_cons (blank c rfl), show c :: after = [] ++ c :: after from rfl, skipped]
    rfl

theorem words_replicate_append {c : Char} (blank : isBlank c = true) (count : Nat)
    (after : List Char) : words (List.replicate count c ++ after) = words after := by
  induction count with
  | zero => rfl
  | succ count ih =>
    rw [List.replicate_succ, List.cons_append]
    exact (words_append_cons blank [] _).trans ih

theorem words_eq_singleton {word : List Char} (nonempty : word ≠ [])
    (visible : ∀ c ∈ word, isBlank c = false) : words word = [word] := by
  rw [words, pieces_eq_singleton word visible]
  simp [nonempty]

/-! ## Marks in a text -/

theorem after?_eq_some_iff (lead text rest : List Char) :
    after? lead text = some rest ↔ text = lead ++ rest := by
  induction lead generalizing text with
  | nil => simp [after?]
  | cons l lead ih =>
    cases text with
    | nil => simp [after?]
    | cons c text =>
      rw [after?, List.cons_append]
      by_cases same : l = c
      · rw [if_pos same, ih, same, List.cons_inj_right]
      · rw [if_neg same]
        exact ⟨fun none => absurd none (by simp),
          fun joined => absurd (List.cons.inj joined).1.symm same⟩

theorem isSome_after?_iff (lead text : List Char) :
    (after? lead text).isSome = true ↔ lead <+: text := by
  rw [Option.isSome_iff_exists]
  exact exists_congr fun rest => (after?_eq_some_iff lead text rest).trans eq_comm

theorem contains_iff (mark text : List Char) :
    contains mark text = true ↔ mark <:+: text := by
  induction text with
  | nil =>
    rw [contains, cutAt?, Option.isSome_map, isSome_after?_iff, List.prefix_nil, List.infix_nil]
  | cons c text ih =>
    have begins := (isSome_after?_iff mark (c :: text)).symm
    refine Iff.trans ?_ (List.infix_cons_iff.trans (or_congr begins ih.symm)).symm
    rw [contains, contains, cutAt?]
    cases after? mark (c :: text) with
    | none => simp
    | some rest => simp

theorem of_cutAt? {mark text before rest : List Char}
    (cut : cutAt? mark text = some (before, rest)) :
    text = before ++ (mark ++ rest) := by
  induction text generalizing before with
  | nil =>
    obtain ⟨after, found, same⟩ := Option.map_eq_some_iff.mp cut
    obtain ⟨rfl, rfl⟩ := Prod.mk.inj same
    rw [List.nil_append]
    exact (after?_eq_some_iff _ _ _).mp found
  | cons c text ih =>
    rw [cutAt?] at cut
    split at cut
    · next found =>
      obtain ⟨rfl, rfl⟩ := Prod.mk.inj (Option.some.inj cut)
      rw [List.nil_append]
      exact (after?_eq_some_iff _ _ _).mp found
    · obtain ⟨⟨initial, _⟩, found, same⟩ := Option.map_eq_some_iff.mp cut
      obtain ⟨rfl, rfl⟩ := Prod.mk.inj same
      rw [ih found, List.cons_append]

/-- A mark is found where it stands if its first character does not occur before it. -/
theorem cutAt?_append {first : Char} {before : List Char} (absent : first ∉ before)
    (mark rest : List Char) :
    cutAt? (first :: mark) (before ++ (first :: mark ++ rest)) = some (before, rest) := by
  induction before with
  | nil =>
    have found : after? (first :: mark) (first :: mark ++ rest) = some rest :=
      (after?_eq_some_iff _ _ _).mpr rfl
    rw [List.cons_append] at found
    rw [List.nil_append, List.cons_append, cutAt?, found]
  | cons c before ih =>
    obtain ⟨different, others⟩ := List.ne_and_not_mem_of_not_mem_cons absent
    have missing : after? (first :: mark) (c :: (before ++ (first :: mark ++ rest))) = none := by
      rw [after?, if_neg different]
    rw [List.cons_append, cutAt?, missing, ih others]
    rfl

/-- The text before a mark of one character lacks this character. -/
theorem not_mem_of_cutAt? {mark : Char} {text before rest : List Char}
    (cut : cutAt? [mark] text = some (before, rest)) : mark ∉ before := by
  induction text generalizing before with
  | nil => cases cut
  | cons c text ih =>
    rw [cutAt?] at cut
    split at cut
    · obtain ⟨rfl, rfl⟩ := Prod.mk.inj (Option.some.inj cut)
      exact List.not_mem_nil
    · next missing =>
      obtain ⟨⟨initial, _⟩, found, same⟩ := Option.map_eq_some_iff.mp cut
      obtain ⟨rfl, rfl⟩ := Prod.mk.inj same
      have different : mark ≠ c := by
        rintro rfl
        simp [after?] at missing
      exact List.not_mem_cons_of_ne_of_not_mem different (ih found)

/-! ## Trimming -/

theorem dropEndWhile_eq_self {p : Char → Bool} (text : List Char)
    (stops : ∀ c ∈ text.getLast?, p c = false) : dropEndWhile p text = text := by
  rw [dropEndWhile, List.reverse_eq_iff]
  cases reversed : text.reverse with
  | nil => rfl
  | cons c rest =>
    have last : c ∈ text.getLast? := by simp [← List.head?_reverse, reversed]
    simp [stops c last]

theorem dropEndWhile_append {p : Char → Bool} (text trail : List Char)
    (drops : ∀ c ∈ trail, p c = true) : dropEndWhile p (text ++ trail) = dropEndWhile p text := by
  rw [dropEndWhile, dropEndWhile, List.reverse_append,
    List.dropWhile_append_of_pos (by simpa using drops)]

theorem trimEnd_eq_self (text : List Char)
    (endsVisible : ∀ c ∈ text.getLast?, isBlank c = false) : trimEnd text = text :=
  dropEndWhile_eq_self text endsVisible

theorem trim_eq_self (text : List Char) (startsVisible : ∀ c ∈ text.head?, isBlank c = false)
    (endsVisible : ∀ c ∈ text.getLast?, isBlank c = false) : trim text = text := by
  have start : trimStart text = text := by
    cases text with
    | nil => rfl
    | cons c text => simp [trimStart, startsVisible c rfl]
  rw [trim, start, trimEnd_eq_self text endsVisible]

theorem trimEnd_append_blank (text trail : List Char) (blank : ∀ c ∈ trail, isBlank c = true) :
    trimEnd (text ++ trail) = trimEnd text :=
  dropEndWhile_append text trail blank

/-- What is left of a text without the tail whose characters satisfy `p`. -/
structure TrimmedEnd (p : Char → Bool) (text core : List Char) : Prop where
  trail : ∃ trail, text = core ++ trail ∧ ∀ c ∈ trail, p c = true
  stops : ∀ c ∈ core.getLast?, p c = false

theorem trimmedEnd_dropEndWhile (p : Char → Bool) (text : List Char) :
    TrimmedEnd p text (dropEndWhile p text) := by
  refine ⟨⟨(text.reverse.takeWhile p).reverse, ?_, ?_⟩, ?_⟩
  · rw [dropEndWhile, ← List.reverse_append, List.takeWhile_append_dropWhile, List.reverse_reverse]
  · intro c member
    exact List.all_eq_true.mp List.all_takeWhile c (List.mem_reverse.mp member)
  · intro c last
    rw [dropEndWhile, List.getLast?_reverse] at last
    have stopped := List.head?_dropWhile_not p text.reverse
    rw [Option.mem_def.mp last] at stopped
    simpa using stopped

theorem dropEndWhile_eq_iff {p : Char → Bool} {text core : List Char} :
    dropEndWhile p text = core ↔ TrimmedEnd p text core := by
  constructor
  · rintro rfl
    exact trimmedEnd_dropEndWhile p text
  · rintro ⟨⟨trail, rfl, drops⟩, stops⟩
    rw [dropEndWhile_append core trail drops, dropEndWhile_eq_self core stops]

theorem exists_trail (text : List Char) :
    ∃ trail, text = trimEnd text ++ trail ∧ ∀ c ∈ trail, isBlank c = true :=
  (trimmedEnd_dropEndWhile isBlank text).trail

theorem getLast?_trimEnd (text : List Char) : ∀ c ∈ (trimEnd text).getLast?, isBlank c = false :=
  (trimmedEnd_dropEndWhile isBlank text).stops

/-- What is left of a text without the blanks around it. -/
structure Trimmed (text core : List Char) : Prop where
  around : ∃ before after, text = before ++ (core ++ after) ∧
    (∀ c ∈ before, isBlank c = true) ∧ ∀ c ∈ after, isBlank c = true
  startsVisible : ∀ c ∈ core.head?, isBlank c = false
  endsVisible : ∀ c ∈ core.getLast?, isBlank c = false

theorem trimmed_trim (text : List Char) : Trimmed text (trim text) := by
  obtain ⟨after, split, blank⟩ := exists_trail (trimStart text)
  refine ⟨⟨text.takeWhile isBlank, after, ?_, ?_, blank⟩, ?_, getLast?_trimEnd (trimStart text)⟩
  · rw [trim, ← split, trimStart, List.takeWhile_append_dropWhile]
  · exact List.all_eq_true.mp List.all_takeWhile
  · -- If anything is left then it starts where the blanks in front have stopped.
    intro c first
    have stopped := List.head?_dropWhile_not isBlank text
    obtain ⟨rest, left⟩ := List.head?_eq_some_iff.mp first
    rw [trim] at left
    rw [show text.dropWhile isBlank = trimStart text from rfl, split, left] at stopped
    simpa using stopped

theorem trim_eq_iff {text core : List Char} : trim text = core ↔ Trimmed text core := by
  constructor
  · rintro rfl
    exact trimmed_trim text
  · rintro ⟨⟨before, after, rfl, blankBefore, blankAfter⟩, starts, ends⟩
    have start : trimStart (before ++ (core ++ after)) = trimStart (core ++ after) :=
      List.dropWhile_append_of_pos blankBefore
    cases core with
    | nil =>
      have nothing : trimStart after = [] := List.dropWhile_eq_nil_iff.mpr blankAfter
      rw [trim, start, List.nil_append, nothing]
      rfl
    | cons c core =>
      have visible : trimStart (c :: core ++ after) = c :: core ++ after := by
        simp [trimStart, starts c rfl]
      rw [trim, start, visible, trimEnd_append_blank _ after blankAfter, trimEnd_eq_self _ ends]

end BoardRules.Text
