import BoardRules.Proofs.Note.InlineReading
import BoardRules.Proofs.Text.Decimal

/-!
# Paragraphs of several rules

A rule that needs neither a longer code fence nor backslashes is written as most people write it: its
name between single backticks, its arguments between double stars. A paragraph may hold several
lines, each with a label and such a rule. Every rule of it is found, but the arguments of a rule go
on to the end of the paragraph, so that they include those of all rules below.
-/
namespace BoardRules.Note

open Text

/-! ## Plain rules -/

/-- An argument that is written without backslashes. -/
structure PlainArgument where
  text : String
  nonempty : text.toList ≠ []
  ordinary : ∀ c ∈ text.toList, isSpecial c = false
  startsVisible : ∀ c ∈ text.toList.head?, isBlank c = false
  endsVisible : ∀ c ∈ text.toList.getLast?, isBlank c = false

namespace PlainArgument

theorem oneLine (argument : PlainArgument) : '\n' ∉ argument.text.toList := fun member =>
  absurd (argument.ordinary _ member) (by decide)

/-- The argument among those that any marks may surround. -/
def toWritten (argument : PlainArgument) : WrittenArgument :=
  ⟨argument.text, .doubleStar, argument.nonempty, argument.oneLine, argument.startsVisible,
    argument.endsVisible⟩

def written (argument : PlainArgument) : List Char :=
  ' ' :: (Marks.doubleStar.text ++ (argument.text.toList ++ Marks.doubleStar.text))

end PlainArgument

/-- A rule whose name stands between single backticks. -/
structure PlainRule where
  name : String
  arguments : List PlainArgument
  nonempty : name.toList ≠ []
  oneLine : '\n' ∉ name.toList
  noBacktick : backtick ∉ name.toList
  startsVisible : ∀ c ∈ name.toList.head?, isBlank c = false
  endsVisible : ∀ c ∈ name.toList.getLast?, isBlank c = false

namespace PlainRule

def content (rule : PlainRule) : List Char :=
  backtick :: (rule.name.toList ++
    backtick :: rule.arguments.flatMap PlainArgument.written)

/-- What stands before the rule with the given number. -/
def label (number : Nat) : List Char := Decimal.render number ++ ['.', ' ']

/-- The line of a rule with its number. -/
def item (numbered : PlainRule × Nat) : List Char := label numbered.2 ++ numbered.1.content

def declaration (rule : PlainRule) : Declaration := ⟨rule.name, rule.arguments.map (·.text)⟩

/-- The rules of one paragraph: each takes the arguments of all rules below it for its own. -/
def swallowed : List PlainRule → List Declaration
  | [] => []
  | rule :: rules =>
    ⟨rule.name, (rule :: rules).flatMap fun below => below.arguments.map (·.text)⟩ ::
      swallowed rules

end PlainRule

/-! ## The text of a paragraph -/

theorem longestRun_eq_zero (c : Char) (text : List Char) (absent : c ∉ text) :
    longestRun c text = 0 := by
  induction text with
  | nil => rfl
  | cons d text ih =>
    have different : d ≠ c := fun same => absent (same ▸ List.mem_cons_self)
    rw [longestRun, if_neg different]
    exact ih fun member => absent (List.mem_cons_of_mem d member)

theorem codeText_visible (name : List Char) (oneLine : '\n' ∉ name) (nonempty : name ≠ [])
    (startsVisible : ∀ c ∈ name.head?, isBlank c = false) : codeText name = name := by
  obtain ⟨c, name, rfl⟩ := List.exists_cons_of_ne_nil nonempty
  have noSpace : c ≠ ' ' := by
    intro same
    have visible := startsVisible c rfl
    rw [same] at visible
    exact absurd visible (by decide)
  rw [codeText, spaced_eq_self _ oneLine]
  simp [noSpace]

theorem isSpecial_of_isDigit {c : Char} (digit : c.isDigit = true) : isSpecial c = false := by
  simp [isSpecial, ne_of_isDigit digit (d := '\\') (by decide),
    ne_of_isDigit digit (d := '\n') (by decide), ne_of_isDigit digit (d := backtick) (by decide),
    ne_of_isDigit digit (d := '*') (by decide), ne_of_isDigit digit (d := '_') (by decide)]

namespace PlainArgument

theorem piecesAfter_written (argument : PlainArgument) (before : Option Char) (rest : List Char)
    (blank : ∀ d ∈ rest.head?, isBlank d = true) :
    piecesAfter before [] (argument.written ++ rest) =
      argument.toWritten.pieces ++ piecesAfter (some '*') [] rest := by
  obtain ⟨c, tail, text⟩ := List.exists_cons_of_ne_nil argument.nonempty
  have starts : ∀ rest, (argument.text.toList ++ rest).head? = some c := by
    intro rest
    rw [text]
    rfl
  have first : c ∈ argument.text.toList := by
    rw [text]
    exact List.mem_cons_self
  have unmarked : c ≠ '*' := by
    intro same
    have ordinary := argument.ordinary c first
    rw [same] at ordinary
    exact absurd ordinary (by decide)
  have visible : isBlank c = false := argument.startsVisible c (by rw [text]; rfl)
  have spread : argument.written ++ rest = ' ' :: (Marks.doubleStar.text ++
      (argument.text.toList ++ (Marks.doubleStar.text ++ rest))) := by
    simp only [written, List.cons_append, List.append_assoc]
  rw [spread]
  exact piecesAfter_marked .doubleStar (spells_self _ argument.ordinary) argument.nonempty
    argument.endsVisible starts visible unmarked before rest blank

/-- What follows the arguments does not begin with something they could run into. -/
theorem head?_flatMap_written (arguments : List PlainArgument) (rest : List Char)
    (blank : ∀ d ∈ rest.head?, isBlank d = true) :
    ∀ d ∈ (arguments.flatMap written ++ rest).head?, isBlank d = true := by
  cases arguments with
  | nil => exact blank
  | cons argument arguments =>
    intro d member
    have space : ' ' = d := Option.some.inj member
    rw [← space]
    decide

theorem piecesAfter_flatMap_written (arguments : List PlainArgument) {rest : List Char}
    {pieces : List Piece} (blank : ∀ d ∈ rest.head?, isBlank d = true)
    (reads : ∀ before, piecesAfter before [] rest = pieces) (before : Option Char) :
    piecesAfter before [] (arguments.flatMap written ++ rest) =
      (arguments.flatMap fun argument => argument.toWritten.pieces) ++ pieces := by
  induction arguments generalizing before with
  | nil => exact reads before
  | cons argument arguments ih =>
    rw [List.flatMap_cons, List.append_assoc,
      argument.piecesAfter_written _ _ (head?_flatMap_written arguments rest blank), ih,
      List.flatMap_cons, List.append_assoc]

end PlainArgument

namespace PlainRule

theorem not_mem_content (rule : PlainRule) : '\n' ∉ rule.content := by
  intro member
  have parts : '\n' ∈ rule.name.toList ∨
      ∃ argument ∈ rule.arguments, '\n' ∈ argument.written := by
    simpa [content, backtick, List.mem_flatMap] using member
  rcases parts with name | ⟨argument, _, inside⟩
  · exact rule.oneLine name
  · have text := argument.oneLine
    simp [PlainArgument.written, Marks.text, Marks.mark, Marks.count, text] at inside

/-- A rule ends in a backtick or a star. -/
theorem getLast?_content (rule : PlainRule) :
    ∃ c, rule.content.getLast? = some c ∧ isBlank c = false := by
  have spread : rule.content = (backtick :: rule.name.toList) ++
      ([backtick] ++ rule.arguments.flatMap PlainArgument.written) := by
    simp [content]
  rw [spread]
  rcases List.eq_nil_or_concat rule.arguments with bare | ⟨arguments, argument, ended⟩
  · refine ⟨backtick, ?_, by decide⟩
    rw [bare, List.flatMap_nil, List.append_nil, List.getLast?_concat]
  · refine ⟨'*', ?_, by decide⟩
    have marks : Marks.doubleStar.text = ['*'] ++ ['*'] := rfl
    rw [ended, List.concat_eq_append, List.flatMap_append, List.flatMap_singleton,
      PlainArgument.written, marks]
    simp only [← List.append_assoc, ← List.cons_append, List.getLast?_concat]

/-- What the rule's content is cut into. -/
def pieces (rule : PlainRule) : List Piece :=
  .code rule.name.toList :: rule.arguments.flatMap fun argument => argument.toWritten.pieces

/-- What a line is cut into that goes on with a paragraph. -/
def nextPieces (numbered : PlainRule × Nat) : List Piece :=
  .lineBreak :: .text (label numbered.2) :: numbered.1.pieces

/-- The lines below the first of a paragraph. -/
def nextLines (numbered : List (PlainRule × Nat)) : List Char :=
  numbered.flatMap fun line => '\n' :: item line

theorem piecesAfter_content (rule : PlainRule) {rest : List Char} {pieces : List Piece}
    (blank : ∀ d ∈ rest.head?, isBlank d = true)
    (reads : ∀ before, piecesAfter before [] rest = pieces) (before : Option Char)
    (pending : List Char) :
    piecesAfter before pending (rule.content ++ rest) =
      flushText pending ++ (rule.pieces ++ pieces) := by
  have stops : ∀ text, (rule.name.toList ++ text).head? ≠ some backtick := by
    intro text
    obtain ⟨c, name, split⟩ := List.exists_cons_of_ne_nil rule.nonempty
    rw [split]
    intro same
    have first : c ∈ rule.name.toList := by rw [split]; exact List.mem_cons_self
    exact rule.noBacktick (Option.some.inj same ▸ first)
  have ends : (rule.arguments.flatMap PlainArgument.written ++ rest).head? ≠ some backtick := by
    intro same
    exact absurd (PlainArgument.head?_flatMap_written _ rest blank _ same) (by decide)
  have last : rule.name.toList.getLast? ≠ some backtick := fun same =>
    rule.noBacktick (List.mem_of_getLast? same)
  have found := closeCode?_append 1 (rule.arguments.flatMap PlainArgument.written ++ rest) ends
    rule.name.toList (by rw [longestRun_eq_zero _ _ rule.noBacktick]; decide) last
  have spread : rule.content ++ rest = backtick :: (rule.name.toList ++
      ([backtick] ++ (rule.arguments.flatMap PlainArgument.written ++ rest))) := by
    simp only [content, List.cons_append, List.append_assoc, List.nil_append]
  have run := runLength_replicate backtick 0 _ (stops
    ([backtick] ++ (rule.arguments.flatMap PlainArgument.written ++ rest)))
  have after := afterRun_replicate backtick 0 _ (stops
    ([backtick] ++ (rule.arguments.flatMap PlainArgument.written ++ rest)))
  rw [List.replicate_zero, List.nil_append] at run after
  rw [spread, piecesAfter_code before pending (by rw [run, after]; exact found),
    codeText_visible _ rule.oneLine rule.nonempty rule.startsVisible,
    PlainArgument.piecesAfter_flatMap_written _ blank reads]
  rfl

theorem spells_label (number : Nat) : Spells (label number) (label number) := by
  refine spells_self _ fun c member => ?_
  rcases List.mem_append.mp member with digit | mark
  · exact isSpecial_of_isDigit (Decimal.isDigit_render digit)
  · have marks : c = '.' ∨ c = ' ' := by simpa using mark
    rcases marks with rfl | rfl <;> decide

theorem head?_nextLines (numbered : List (PlainRule × Nat)) :
    ∀ d ∈ (nextLines numbered).head?, isBlank d = true := by
  cases numbered with
  | nil => intro d member; cases member
  | cons line numbered =>
    intro d member
    rw [← Option.some.inj member]
    decide

theorem piecesAfter_nextLines (numbered : List (PlainRule × Nat)) (before : Option Char) :
    piecesAfter before [] (nextLines numbered) = numbered.flatMap nextPieces := by
  induction numbered generalizing before with
  | nil => simp [nextLines, piecesAfter, flushText]
  | cons line numbered ih =>
    have spread : nextLines (line :: numbered) =
        '\n' :: (label line.2 ++ (line.1.content ++ nextLines numbered)) := by
      simp only [nextLines, item, List.flatMap_cons, List.cons_append, List.append_assoc]
    have filled : label line.2 ≠ [] := by simp [label]
    rw [spread, piecesAfter.eq_4, spells_label,
      line.1.piecesAfter_content (head?_nextLines numbered) ih, List.append_nil,
      flushText_reverse _ filled]
    rfl

/-! ## The rules of a paragraph -/

/-- The rule's content once the paragraph is settled. -/
def inline (rule : PlainRule) : List Inline :=
  .code rule.name.toList ::
    rule.arguments.flatMap fun argument => [.text [' '], argument.toWritten.inline]

def nextInline (numbered : PlainRule × Nat) : List Inline :=
  .lineBreak :: .text (label numbered.2) :: numbered.1.inline

/-- The rule's content once its runs are paired. -/
def paired (rule : PlainRule) : List Piece :=
  .code rule.name.toList ::
    rule.arguments.flatMap fun argument => [.text [' '], argument.toWritten.emphasised]

def nextPaired (numbered : PlainRule × Nat) : List Piece :=
  .lineBreak :: .text (label numbered.2) :: numbered.1.paired

theorem pairs_pieces (rule : PlainRule) : Pairs rule.pieces rule.paired := by
  have arguments := Pairs.flatMap
    (fun argument : PlainArgument => Note.pairs_pieces argument.toWritten) rule.arguments
  exact Pairs.append (Pairs.piece (p := .code rule.name.toList) (by simp)) arguments

theorem pairs_nextPieces (numbered : PlainRule × Nat) :
    Pairs (nextPieces numbered) (nextPaired numbered) :=
  Pairs.append (Pairs.piece (p := .lineBreak) (by simp))
    (Pairs.append (Pairs.piece (p := .text (label numbered.2)) (by simp)) numbered.1.pairs_pieces)

theorem settles_arguments (arguments : List PlainArgument) :
    Settles (arguments.flatMap fun argument => [.text [' '], argument.toWritten.emphasised])
      (arguments.flatMap fun argument => [.text [' '], argument.toWritten.inline]) :=
  Settles.flatMap (fun argument => settles_emphasised argument.toWritten) arguments

theorem settles_paired (rule : PlainRule) : Settles rule.paired rule.inline := by
  have name : Settles [.code rule.name.toList] [.code rule.name.toList] :=
    Settles.piece (by rw [Piece.settle]) (by simp)
  exact name.append (settles_arguments rule.arguments)

theorem settles_nextPaired (numbered : PlainRule × Nat) :
    Settles (nextPaired numbered) (nextInline numbered) := by
  have lineBreak : Settles [.lineBreak] [.lineBreak] :=
    Settles.piece (by rw [Piece.settle]) (by simp)
  have name : Settles [.text (label numbered.2), .code numbered.1.name.toList]
      [.text (label numbered.2), .code numbered.1.name.toList] :=
    Settles.text_piece _ (by rw [Piece.settle]) (by simp)
  exact lineBreak.append (name.append (settles_arguments numbered.1.arguments))

theorem ofText_paragraph (rule : PlainRule) (numbered : List (PlainRule × Nat)) :
    Inline.ofText (rule.content ++ nextLines numbered) =
      rule.inline ++ numbered.flatMap nextInline := by
  have pairs := rule.pairs_pieces.append (Pairs.flatMap pairs_nextPieces numbered)
  have settles := rule.settles_paired.append (Settles.flatMap settles_nextPaired numbered)
  have reads := rule.piecesAfter_content (head?_nextLines numbered) (piecesAfter_nextLines numbered)
    none []
  calc Inline.ofText (rule.content ++ nextLines numbered)
    _ = settleAll (pairRuns [] (rule.pieces ++ numbered.flatMap nextPieces)) :=
        congrArg (fun cut => settleAll (pairRuns [] cut)) reads
    _ = settleAll (rule.paired ++ numbered.flatMap nextPaired) :=
        congrArg settleAll pairs.pairRuns_eq
    _ = rule.inline ++ numbered.flatMap nextInline := settles.settleAll_eq

theorem filterMap_arguments (arguments : List PlainArgument) :
    (arguments.flatMap fun argument => [.text [' '], argument.toWritten.inline]).filterMap
      Inline.argument? = arguments.map fun argument => argument.text.toList := by
  induction arguments with
  | nil => rfl
  | cons argument arguments ih =>
    have blank : (Inline.text [' ']).argument? = none := rfl
    have text := argument?_inline argument.toWritten
    rw [List.flatMap_cons, List.filterMap_append, ih, List.filterMap_cons_none blank,
      List.filterMap_cons_some text]
    rfl

theorem filterMap_inline (rule : PlainRule) : rule.inline.filterMap Inline.argument? =
    rule.arguments.map fun argument => argument.text.toList := by
  have name : (Inline.code rule.name.toList).argument? = none := rfl
  rw [inline, List.filterMap_cons_none name, filterMap_arguments]

/-- Neither a line break nor a label is an argument. -/
theorem filterMap_nextInline (numbered : List (PlainRule × Nat)) :
    (numbered.flatMap nextInline).filterMap Inline.argument? =
      numbered.flatMap fun line => line.1.arguments.map fun argument => argument.text.toList := by
  induction numbered with
  | nil => rfl
  | cons line numbered ih =>
    have lineBreak : Inline.lineBreak.argument? = none := rfl
    have text : (Inline.text (label line.2)).argument? = none := rfl
    rw [List.flatMap_cons, List.filterMap_append, ih, nextInline,
      List.filterMap_cons_none lineBreak, List.filterMap_cons_none text, filterMap_inline]
    rfl

/-- The words right after a name count for none, as no text but that before an argument follows a
name in its line. -/
theorem arguments_following (rule : PlainRule) (numbered : List (PlainRule × Nat)) :
    Note.arguments ((rule.arguments.flatMap fun argument =>
        [.text [' '], argument.toWritten.inline]) ++ numbered.flatMap nextInline) =
      (rule :: numbered.map Prod.fst).flatMap fun below =>
        below.arguments.map fun argument => argument.text.toList := by
  have emphasised : ((rule.arguments.flatMap fun argument =>
      [.text [' '], argument.toWritten.inline]) ++ numbered.flatMap nextInline).filterMap
        Inline.argument? = (rule :: numbered.map Prod.fst).flatMap fun below =>
          below.arguments.map fun argument => argument.text.toList := by
    rw [List.filterMap_append, filterMap_arguments, filterMap_nextInline, List.flatMap_cons,
      List.flatMap_map]
  unfold Note.arguments
  rw [emphasised]
  split
  · next none =>
    rw [none]
    have bare : rule.arguments = [] := by
      rw [List.flatMap_cons, List.append_eq_nil_iff, List.map_eq_nil_iff] at none
      exact none.1
    rw [bare]
    cases numbered <;> rfl
  · rfl

theorem declarations_arguments (arguments : List PlainArgument) (rest : List Inline) :
    declarations ((arguments.flatMap fun argument =>
      [.text [' '], argument.toWritten.inline]) ++ rest) = declarations rest := by
  induction arguments with
  | nil => rfl
  | cons argument arguments ih =>
    rw [List.flatMap_cons, List.append_assoc]
    rcases argument.toWritten.inline_cases with strong | emphasis
    · rw [strong]; exact ih
    · rw [emphasis]; exact ih

theorem declarations_inline (rule : PlainRule) (numbered : List (PlainRule × Nat)) :
    declarations (rule.inline ++ numbered.flatMap nextInline) =
      swallowed (rule :: numbered.map Prod.fst) := by
  have texts : ∀ rules : List PlainRule,
      (rules.flatMap fun below => below.arguments.map fun argument => argument.text.toList).map
        String.ofList = rules.flatMap fun below => below.arguments.map (·.text) := by
    intro rules
    rw [List.map_flatMap]
    simp only [List.map_map, Function.comp_def, String.ofList_toList]
  induction numbered generalizing rule with
  | nil =>
    rw [inline, List.cons_append, declarations, arguments_following, declarations_arguments, texts,
      String.ofList_toList]
    rfl
  | cons line numbered ih =>
    have below : declarations ((line :: numbered).flatMap nextInline) =
        swallowed (line.1 :: numbered.map Prod.fst) := ih line.1
    rw [inline, List.cons_append, declarations, arguments_following, declarations_arguments, texts,
      String.ofList_toList, below]
    rfl

/-- All rules of the paragraph are found, and each takes the arguments below it as well. -/
theorem declarations_paragraph (rule : PlainRule) (numbered : List (PlainRule × Nat)) :
    declarations (Inline.ofText (rule.content ++ nextLines numbered)) =
      swallowed (rule :: numbered.map Prod.fst) := by
  rw [ofText_paragraph, declarations_inline]

end PlainRule

end BoardRules.Note
