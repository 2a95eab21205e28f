import BoardRules.Catalog.CompanionNote
import BoardRules.Proofs.Note.PlainRules
import BoardRules.Proofs.Note.RepositoryNames
import BoardRules.Proofs.Note.Separators

/-!
# Companion notes read back

A companion note declares the rule `close_issue` and nothing else, and no repository name bears on
how another is read: the low lines of one stand between its own stars, out of reach for those of the
others. But a name that is emphasised in part is cut short or lost, so the rule has the names of the
note for its arguments exactly if none of them is (`rules_companionNote`).
-/
namespace BoardRules.Note

open Text

namespace RepositoryName

variable (name : RepositoryName)

/-- The name as the note has it, after a space. -/
def written : List Char :=
  ' ' :: (Marks.doubleStar.text ++ (name.text.toList ++ Marks.doubleStar.text))

def pieces : List Piece :=
  .text [' '] :: .run Marks.doubleStar.opener ::
    (namePieces '*' [] name.text.toList ++ [.run Marks.doubleStar.closer])

def strong : Piece := .strong (pairRuns [] (namePieces '*' [] name.text.toList))

theorem visible_getLastD : isBlank (name.text.toList.getLastD '*') = false := by
  rw [List.getLastD_eq_getLast?]
  exact isBlank_getD (by decide) fun c last => name.alphabet c (List.mem_of_getLast? last)

theorem piecesAfter_written (before : Option Char) (rest : List Char)
    (blank : ∀ d ∈ rest.head?, isBlank d = true) :
    piecesAfter before [] (name.written ++ rest) =
      name.pieces ++ piecesAfter (some '*') [] rest := by
  obtain ⟨c, tail, split⟩ := List.exists_cons_of_ne_nil name.nonempty
  have first : isNameCharacter c = true := name.alphabet c (by simp [split])
  have starts : (name.text.toList ++ (Marks.doubleStar.text ++ rest)).head? = some c := by
    rw [split]
    rfl
  have opener_stops : (name.text.toList ++ (Marks.doubleStar.text ++ rest)).head? ≠ some '*' := by
    rw [starts]
    intro same
    rw [Option.some.inj same] at first
    exact absurd first (by decide)
  have closer_stops : rest.head? ≠ some '*' := fun same => absurd (blank '*' same) (by decide)
  have opener := Marks.doubleStar.between_opener c (isBlank_of_isNameCharacter first)
  have closer := Marks.doubleStar.between_closer _ rest.head? name.visible_getLastD blank
  have inner := piecesAfter_name '*' [] name.text.toList ('*' :: rest) name.alphabet
  have spread : name.written ++ rest = ' ' :: (Marks.doubleStar.text ++
      (name.text.toList ++ (Marks.doubleStar.text ++ rest))) := by
    simp only [written, List.cons_append, List.append_assoc]
  have closing : piecesAfter (some (name.text.toList.getLastD '*')) []
      (Marks.doubleStar.text ++ rest) =
        .run Marks.doubleStar.closer :: piecesAfter (some '*') [] rest := by
    rw [piecesAfter_marks _ _ _ .doubleStar closer_stops, closer]
    rfl
  calc piecesAfter before [] (name.written ++ rest)
    _ = .text [' '] :: .run Marks.doubleStar.opener ::
          piecesAfter (some '*') [] (name.text.toList ++ (Marks.doubleStar.text ++ rest)) := by
        rw [spread, piecesAfter_plain _ _ _ (by decide) (by decide),
          piecesAfter_marks _ _ _ .doubleStar opener_stops, starts, opener]
        rfl
    _ = .text [' '] :: .run Marks.doubleStar.opener :: (namePieces '*' [] name.text.toList ++
          .run Marks.doubleStar.closer :: piecesAfter (some '*') [] rest) := by
        rw [← closing]
        exact congrArg _ (congrArg _ inner)
    _ = name.pieces ++ piecesAfter (some '*') [] rest := by
        simp only [pieces, List.cons_append, List.append_assoc, List.nil_append]

theorem pairRuns_pieces {before : List Piece} (noRuns : NoRuns before) (rest : List Piece) :
    pairRuns before (name.pieces ++ rest) =
      pairRuns (name.strong :: .text [' '] :: before) rest := by
  have marked : ∀ r, .run r ∈ namePieces '*' [] name.text.toList → r.mark = '_' := by
    intro r member
    rcases mem_namePieces member with ⟨cs, text⟩ | ⟨n, left, right, _, run⟩
    · cases text
    · rw [Piece.run.inj run]
      rfl
  have foreign : ∀ r, .run r ∈ .run Marks.doubleStar.opener :: .text [' '] :: before →
      r.mark ≠ '_' := by
    refine forall_run_cons.mpr ⟨fun r same => ?_, forall_run_cons.mpr ⟨by simp, ?_⟩⟩
    · rw [← Piece.run.inj same]
      decide
    · exact fun r member => absurd member (noRuns r)
  have inner := pairRuns_beside [] marked foreign (.run Marks.doubleStar.closer :: rest)
  have none : findOpener? Marks.doubleStar.closer
      (pairRuns [] (namePieces '*' [] name.text.toList)).reverse = .none := by
    refine findOpener?_eq_none.mpr fun r member => ?_
    have mark : r.mark = '_' :=
      mark_of_mem_pairRuns (by simp) marked r (List.mem_reverse.mp member)
    simp [Run.opensFor, mark, Marks.closer, Marks.mark]
  have opens : Marks.doubleStar.opener.opensFor Marks.doubleStar.closer = true := by decide
  have found : findOpener? Marks.doubleStar.closer
      ((pairRuns [] (namePieces '*' [] name.text.toList)).reverse ++
        .run Marks.doubleStar.opener :: .text [' '] :: before) =
      some ((pairRuns [] (namePieces '*' [] name.text.toList)).reverse, Marks.doubleStar.opener,
        .text [' '] :: before) := by
    rw [findOpener?_append none, findOpener?.eq_2, if_pos opens]
    simp only [Option.map_some, List.append_nil]
  rw [pieces, List.cons_append, List.cons_append, pairRuns.eq_3 _ _ _ (by simp), pairRuns.eq_2,
    if_neg (by decide), List.append_assoc, List.singleton_append]
  rw [List.nil_append] at inner
  rw [inner, pairRuns.eq_2, if_pos (by decide), found]
  simp only [List.reverse_reverse]
  rfl

/-- The name once the paragraph is settled. -/
def inline : Inline := .strong (settleAll (pairRuns [] (namePieces '*' [] name.text.toList)))

theorem settles : Settles [.text [' '], name.strong] [.text [' '], name.inline] :=
  Settles.text_piece [' '] (by rw [strong, Piece.settle, inline]) (by simp [inline])

theorem argument?_inline : name.inline.argument? = readName name.text.toList := rfl

end RepositoryName

/-! ## The paragraph of a note -/

/-- The rule of a companion note, without its arguments. -/
def closeIssue : PlainRule where
  name := "close_issue"
  arguments := []
  nonempty := by decide
  oneLine := by decide
  noBacktick := by decide
  startsVisible := by rintro _ ⟨⟩; decide
  endsVisible := by rintro _ ⟨⟩; decide

section

variable (names : List RepositoryName)

def companionParagraph : List Char := closeIssue.content ++ names.flatMap RepositoryName.written

theorem head?_written : ∀ d ∈ (names.flatMap RepositoryName.written).head?, isBlank d = true := by
  cases names with
  | nil => intro d member; cases member
  | cons name names =>
    intro d member
    rw [← Option.some.inj member]
    decide

theorem piecesAfter_names (before : Option Char) :
    piecesAfter before [] (names.flatMap RepositoryName.written) =
      names.flatMap RepositoryName.pieces := by
  induction names generalizing before with
  | nil => simp [piecesAfter, flushText]
  | cons name names ih =>
    rw [List.flatMap_cons, name.piecesAfter_written _ _ (head?_written names), ih,
      List.flatMap_cons]

/-- The marks of a name pair among themselves, as only settled pieces stand before them. -/
theorem pairRuns_names {before : List Piece} (noRuns : NoRuns before) :
    pairRuns before (names.flatMap RepositoryName.pieces) =
      before.reverse ++ names.flatMap fun name => [.text [' '], name.strong] := by
  induction names generalizing before with
  | nil => simp [pairRuns]
  | cons name names ih =>
    have still : NoRuns (name.strong :: .text [' '] :: before) := by
      refine forall_run_cons.mpr ⟨?_, forall_run_cons.mpr ⟨?_, noRuns⟩⟩
      · simp [RepositoryName.strong]
      · simp
    rw [List.flatMap_cons, name.pairRuns_pieces noRuns, ih still]
    simp

theorem ofText_companionParagraph : Inline.ofText (companionParagraph names) =
    .code "close_issue".toList :: names.flatMap fun name => [.text [' '], name.inline] := by
  have cut := closeIssue.piecesAfter_content (head?_written names) (piecesAfter_names names) none []
  have code : NoRuns [Piece.code "close_issue".toList] := by simp [NoRuns]
  have name : Settles [.code "close_issue".toList] [.code "close_issue".toList] :=
    Settles.piece (by rw [Piece.settle]) (by simp)
  have settles := name.append (Settles.flatMap RepositoryName.settles names)
  calc Inline.ofText (companionParagraph names)
    _ = settleAll (pairRuns [] (.code "close_issue".toList ::
          names.flatMap RepositoryName.pieces)) :=
        congrArg (fun cut => settleAll (pairRuns [] cut)) cut
    _ = settleAll ([.code "close_issue".toList] ++
          names.flatMap fun name => [.text [' '], name.strong]) := by
        rw [pairRuns.eq_3 _ _ _ (by simp), pairRuns_names names code]
        rfl
    _ = _ := settles.settleAll_eq

/-- The names that are read, each on its own. -/
def readNames : List String :=
  (names.filterMap fun name => readName name.text.toList).map String.ofList

theorem arguments_names : arguments (names.flatMap fun name => [.text [' '], name.inline]) =
    names.filterMap fun name => readName name.text.toList := by
  have emphasised : (names.flatMap fun name => [Inline.text [' '], name.inline]).filterMap
      Inline.argument? = names.filterMap fun name => readName name.text.toList := by
    induction names with
    | nil => rfl
    | cons name names ih =>
      have space : (Inline.text [' ']).argument? = none := rfl
      rw [List.flatMap_cons, List.filterMap_append, ih, List.filterMap_cons_none space,
        List.filterMap_cons, name.argument?_inline, List.filterMap_cons]
      cases readName name.text.toList <;> rfl
  unfold arguments
  rw [emphasised]
  split
  · next none =>
    rw [none]
    cases names <;> rfl
  · rfl

/-- A companion note's paragraph declares one rule. -/
theorem declarations_companionParagraph :
    declarations (Inline.ofText (companionParagraph names)) =
      [⟨"close_issue", readNames names⟩] := by
  have no_more :
      declarations (names.flatMap fun name => [Inline.text [' '], name.inline]) = [] := by
    induction names with
    | nil => rfl
    | cons name names ih => exact ih
  rw [ofText_companionParagraph, declarations, arguments_names, no_more, String.ofList_toList,
    readNames]

end

/-! ## The note -/

def headingLine : List Char := "###### Automation Rules".toList

def commentLine : List Char :=
  "<!-- Documentation: https://github.com/philschatz/project-bot -->".toList

/-- The line of the rule. Without a name it ends in a space. -/
def ruleLine (names : List RepositoryName) : List Char :=
  '-' :: ' ' :: (companionParagraph names ++ if names.isEmpty then [' '] else [])

theorem intercalate_names (names : List RepositoryName) :
    ' ' :: (" ".intercalate (names.map fun name => "**" ++ name.text ++ "**")).toList =
      names.flatMap RepositoryName.written ++ if names.isEmpty then [' '] else [] := by
  have starred : ∀ name : RepositoryName,
      ' ' :: ("**" ++ name.text ++ "**").toList = name.written := by
    intro name
    simp [RepositoryName.written, Marks.text, Marks.count, Marks.mark, List.replicate]
  rw [String.toList_intercalate]
  induction names with
  | nil => rfl
  | cons name names ih =>
    cases names with
    | nil => simpa [List.intercalate] using starred name
    | cons next names =>
      have joined : [' '].intercalate (((name :: next :: names).map fun name =>
            "**" ++ name.text ++ "**").map String.toList) =
          ("**" ++ name.text ++ "**").toList ++ ' ' :: [' '].intercalate
            (((next :: names).map fun name => "**" ++ name.text ++ "**").map String.toList) := by
        simp [List.intercalate]
      rw [show " ".toList = [' '] from rfl] at ih ⊢
      rw [joined, ih, ← List.cons_append, starred]
      simp only [List.flatMap_cons, List.isEmpty_cons, List.append_assoc]

theorem toList_companionNote (names : List RepositoryName) :
    (companionNote (names.map (·.text))).toList =
      headingLine ++ (LineEnding.carriageReturnLineFeed.text ++ ([] ++
        (LineEnding.carriageReturnLineFeed.text ++ (commentLine ++
          (LineEnding.carriageReturnLineFeed.text ++ ([] ++
            (LineEnding.carriageReturnLineFeed.text ++ ruleLine names))))))) := by
  have item : "- `close_issue` ".toList = '-' :: ' ' :: (closeIssue.content ++ [' ']) := by
    simp [closeIssue, PlainRule.content, backtick]
  have heading : "###### Automation Rules\r\n\r\n".toList =
      headingLine ++ ['\r', '\n', '\r', '\n'] := by decide +kernel
  have comment :
      "<!-- Documentation: https://github.com/philschatz/project-bot -->\r\n\r\n".toList =
        commentLine ++ ['\r', '\n', '\r', '\n'] := by decide +kernel
  have names_row := intercalate_names names
  unfold companionNote
  simp only [String.toList_append, item, heading, comment, List.map_map, Function.comp_def,
    ruleLine, companionParagraph, List.append_assoc, ← names_row]
  simp only [LineEnding.text, List.cons_append, List.nil_append, List.append_assoc]

/-- Spaces are the only blanks of the line. -/
theorem not_mem_ruleLine (names : List RepositoryName) {c : Char} (blank : isBlank c = true)
    (noSpace : c ≠ ' ') : c ∉ ruleLine names := by
  have other : ∀ {d : Char}, isBlank d = false → c ≠ d := by
    intro d visible same
    rw [← same, blank] at visible
    cases visible
  have code : (closeIssue.content.all fun d => !isBlank d) = true := by decide
  have written : ∀ name : RepositoryName, c ∉ name.written := by
    intro name
    have text : c ∉ name.text.toList := fun member =>
      absurd rfl (other (isBlank_of_isNameCharacter (name.alphabet c member)))
    simp [RepositoryName.written, Marks.text, Marks.mark, Marks.count, List.replicate, text,
      noSpace, other (d := '*') (by decide)]
  intro member
  simp only [ruleLine, companionParagraph, List.mem_cons, List.mem_append,
    List.mem_flatMap] at member
  rcases member with rfl | rfl | (inside | ⟨name, _, inside⟩) | inside
  · exact absurd blank (by decide)
  · exact noSpace rfl
  · exact absurd rfl (other (by simpa using List.all_eq_true.mp code c inside))
  · exact written name inside
  · split at inside
    · exact noSpace (List.mem_singleton.mp inside)
    · cases inside

theorem lines_companionNote (names : List RepositoryName) :
    lines (companionNote (names.map (·.text))).toList =
      [headingLine, [], commentLine, [], ruleLine names] := by
  have noFeed : '\n' ∉ ruleLine names := not_mem_ruleLine names (by decide) (by decide)
  have noReturn : '\r' ∉ ruleLine names := not_mem_ruleLine names (by decide) (by decide)
  have row := lines_intercalate .carriageReturnLineFeed [ruleLine names] (by simp [ruleLine])
    (by simpa using noFeed) (by simpa using fun last => noReturn (List.mem_of_getLast? last))
  have alone : LineEnding.carriageReturnLineFeed.text.intercalate [ruleLine names] =
      ruleLine names := by simp [List.intercalate]
  rw [alone] at row
  rw [toList_companionNote, lines_append _ _ _ (by decide +kernel) (by decide +kernel),
    lines_append _ _ _ (by simp) (by simp),
    lines_append _ _ _ (by decide +kernel) (by decide +kernel),
    lines_append _ _ _ (by simp) (by simp), row]

theorem trimEnd_companionParagraph (names : List RepositoryName) :
    trimEnd (companionParagraph names) = companionParagraph names := by
  refine trimEnd_eq_self _ fun c last => ?_
  rcases List.eq_nil_or_concat names with rfl | ⟨before, name, rfl⟩
  · have code : some backtick = some c := last
    rw [← Option.some.inj code]
    decide
  · have ended : companionParagraph (before.concat name) =
        closeIssue.content ++ (before.flatMap RepositoryName.written ++
          (' ' :: (Marks.doubleStar.text ++ (name.text.toList ++ ['*'])))) ++ ['*'] := by
      simp [companionParagraph, RepositoryName.written, Marks.text, Marks.mark, Marks.count,
        List.replicate]
    rw [ended, List.getLast?_concat] at last
    rw [← Option.some.inj last]
    decide

theorem openBlock_companionParagraph (names : List RepositoryName) (trail : List Char)
    (blank : ∀ c ∈ trail, isBlank c = true) :
    openBlock [2] (companionParagraph names ++ trail) =
      .paragraph [companionParagraph names] true := by
  have trimmed := (trimEnd_append_blank (companionParagraph names) trail blank).trans
    (trimEnd_companionParagraph names)
  obtain ⟨rest, text⟩ : ∃ rest, companionParagraph names ++ trail = backtick :: 'c' :: rest :=
    ⟨_, rfl⟩
  rw [text] at trimmed ⊢
  rw [openBlock_backtick _ _ (by decide), trimmed]
  rfl

theorem itemParagraphs_companionNote (names : List RepositoryName) :
    itemParagraphs (companionNote (names.map (·.text))).toList = [companionParagraph names] := by
  have heading : Scanner.start.line headingLine = ([], .start) := by decide +kernel
  have comment : Scanner.start.line commentLine = ([], .start) := by decide +kernel
  have blank : Scanner.start.line [] = ([], .start) := rfl
  have trail : ∀ c ∈ if names.isEmpty then [' '] else [], isBlank c = true := by
    intro c member
    split at member
    · rw [List.mem_singleton.mp member]
      decide
    · cases member
  have item : Scanner.start.line (ruleLine names) =
      ([], ⟨[2], .paragraph [companionParagraph names] true⟩) := by
    rw [← openBlock_companionParagraph names _ trail]
    exact congrArg (Prod.mk []) (begin_backtick _)
  rw [itemParagraphs_eq, lines_companionNote]
  simp only [Scanner.paragraphs, heading, blank, comment, item, List.nil_append]
  simp [Block.paragraphs, List.intercalate]

theorem rules_readNames (names : List RepositoryName) :
    Note.rules (companionNote (names.map (·.text))) = [⟨"close_issue", readNames names⟩] := by
  rw [Note.rules, itemParagraphs_companionNote, List.flatMap_singleton,
    declarations_companionParagraph]

/-- The arguments of the note for this name alone. -/
def RepositoryName.readAlone (name : RepositoryName) : List String :=
  (Note.rules (companionNote [name.text])).flatMap (·.arguments)

theorem RepositoryName.readAlone_eq (name : RepositoryName) :
    name.readAlone = (readName name.text.toList).toList.map String.ofList := by
  have alone := rules_readNames [name]
  rw [List.map_singleton] at alone
  rw [readAlone, alone, List.flatMap_singleton, readNames]
  cases read : readName name.text.toList <;> simp [read]

/-- All names come back only if each of them does: fewer are read if one is not read at all. -/
theorem readNames_eq_iff (names : List RepositoryName) :
    readNames names = names.map (·.text) ↔ ∀ name ∈ names, ¬ Emphasised name.text.toList := by
  unfold readNames
  induction names with
  | nil => simp
  | cons name names ih =>
    have whole := readName_eq_some_iff name
    rw [List.filterMap_cons, List.map_cons, List.forall_mem_cons, ← whole]
    cases read : readName name.text.toList with
    | none =>
      have fewer : ((names.filterMap fun name => readName name.text.toList).map
          String.ofList).length ≤ names.length := by
        rw [List.length_map]
        exact List.length_filterMap_le _ _
      constructor
      · intro same
        rw [same, List.length_cons, List.length_map] at fewer
        exact absurd fewer (Nat.not_succ_le_self _)
      · rintro ⟨missing, _⟩
        cases missing
    | some cs =>
      have same : String.ofList cs = name.text ↔ some cs = some name.text.toList := by
        rw [Option.some.injEq, ← String.ofList_inj, String.ofList_toList]
      rw [List.map_cons, List.cons.injEq, ih, same]

theorem flatMap_readAlone (names : List RepositoryName) :
    names.flatMap RepositoryName.readAlone = readNames names := by
  unfold readNames
  induction names with
  | nil => rfl
  | cons name names ih =>
    rw [List.flatMap_cons, ih, name.readAlone_eq, List.filterMap_cons]
    cases readName name.text.toList <;> rfl

/-- A companion note declares `close_issue` once, with the arguments that its names give one by one;
these are the names themselves exactly if none is emphasised in part. -/
theorem rules_companionNote (names : List RepositoryName) :
    Note.rules (companionNote (names.map (·.text))) =
        [⟨"close_issue", names.flatMap RepositoryName.readAlone⟩] ∧
      (Note.rules (companionNote (names.map (·.text))) =
          [⟨"close_issue", names.map (·.text)⟩] ↔
        ∀ name ∈ names, ¬ Emphasised name.text.toList) := by
  rw [flatMap_readAlone, ← readNames_eq_iff, rules_readNames]
  refine ⟨rfl, fun same => ?_, fun same => by rw [same]⟩
  exact congrArg Declaration.arguments (List.cons.inj same).1

example : Note.rules (companionNote ["a-_b_"]) = [⟨"close_issue", ["a-"]⟩] := by decide +kernel

/-- Emphasis takes the low lines at both ends of a name, and nothing is left to be read. -/
theorem rules_companionNote_lowLines : ¬ ∀ names : List RepositoryName,
    Note.rules (companionNote (names.map (·.text))) = [⟨"close_issue", names.map (·.text)⟩] := by
  intro always
  have same := always [⟨"_a_", by decide, List.all_eq_true.mp (by decide)⟩]
  revert same
  decide +kernel

end BoardRules.Note
