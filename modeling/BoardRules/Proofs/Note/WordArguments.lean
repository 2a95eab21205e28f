import BoardRules.Proofs.Note.PlainRules
import BoardRules.Proofs.Note.Scanning

/-!
# Arguments as plain words

Where no emphasis follows the name of a rule, its arguments are the words right after it. Written
with a backslash before every punctuation character they make up a single text, in which nothing is
a mark, so that any words can be arguments: `rules_writeWords` reads them back whatever spaces stand
between them.
-/
namespace BoardRules.Note

open Text

/-! ## Written words -/

/-- A word with the spaces in front of it. -/
structure SpacedWord where
  text : String
  /-- How many spaces more than one. -/
  gap : Nat
  nonempty : text.toList ≠ []
  visible : ∀ c ∈ text.toList, isBlank c = false

namespace SpacedWord

def spaces (word : SpacedWord) : List Char := List.replicate (word.gap + 1) ' '

def written (word : SpacedWord) : List Char := word.spaces ++ escape word.text.toList

/-- What the written word is read as. -/
def spelled (word : SpacedWord) : List Char := word.spaces ++ word.text.toList

end SpacedWord

/-- A rule whose name stands between single backticks and has words after it. -/
structure WordRule where
  name : String
  words : List SpacedWord
  nonempty : name.toList ≠ []
  oneLine : '\n' ∉ name.toList
  noBacktick : backtick ∉ name.toList
  startsVisible : ∀ c ∈ name.toList.head?, isBlank c = false
  endsVisible : ∀ c ∈ name.toList.getLast?, isBlank c = false

namespace WordRule

/-- The rule without its words. -/
def bare (rule : WordRule) : PlainRule :=
  ⟨rule.name, [], rule.nonempty, rule.oneLine, rule.noBacktick, rule.startsVisible,
    rule.endsVisible⟩

def content (rule : WordRule) : List Char :=
  rule.bare.content ++ rule.words.flatMap SpacedWord.written

def line (rule : WordRule) : List Char := '-' :: ' ' :: rule.content

def declaration (rule : WordRule) : Declaration := ⟨rule.name, rule.words.map (·.text)⟩

end WordRule

/-- The note with one line for each rule, without a line ending after the last. -/
def writeWords (ending : LineEnding) (rules : List WordRule) : String :=
  String.ofList (ending.text.intercalate (rules.map WordRule.line))

/-! ## Reading the words -/

namespace SpacedWord

theorem spells_written (word : SpacedWord) : Spells word.written word.spelled := by
  have oneLine : '\n' ∉ word.text.toList := fun member =>
    absurd (word.visible _ member) (by decide)
  refine Spells.append (spells_self _ fun c member => ?_) (spells_escape _ oneLine)
  rw [List.eq_of_mem_replicate member]
  decide

theorem spells_flatMap (written : List SpacedWord) :
    Spells (written.flatMap SpacedWord.written) (written.flatMap spelled) := by
  induction written with
  | nil => exact fun _ _ _ => rfl
  | cons word written ih => exact word.spells_written.append ih

theorem head?_flatMap_written (written : List SpacedWord) :
    ∀ c ∈ (written.flatMap SpacedWord.written).head?, isBlank c = true := by
  cases written with
  | nil => intro c member; cases member
  | cons word written =>
    intro c member
    rw [← Option.some.inj member]
    decide

theorem head?_flatMap_spelled (written : List SpacedWord) :
    ∀ c ∈ (written.flatMap spelled).head?, isBlank c = true := by
  cases written with
  | nil => intro c member; cases member
  | cons word written =>
    intro c member
    rw [← Option.some.inj member]
    decide

theorem words_flatMap_spelled (written : List SpacedWord) :
    Text.words (written.flatMap spelled) = written.map fun word => word.text.toList := by
  induction written with
  | nil => rfl
  | cons word written ih =>
    rw [List.flatMap_cons, words_append _ (head?_flatMap_spelled written), ih, spelled, spaces,
      words_replicate_append (by decide), words_eq_singleton word.nonempty word.visible]
    rfl

end SpacedWord

/-! ## The rule of a paragraph -/

theorem pairs_flushText (pending : List Char) : Pairs (flushText pending) (flushText pending) := by
  unfold flushText
  split
  · exact fun _ _ => rfl
  · exact Pairs.piece (by simp)

/-- The words are one text behind the name, if there are any. -/
theorem WordRule.ofText_content (rule : WordRule) :
    Inline.ofText rule.content = .code rule.name.toList ::
      settleAll (flushText (rule.words.flatMap SpacedWord.spelled).reverse) := by
  have reads : ∀ before, piecesAfter before [] (rule.words.flatMap SpacedWord.written) =
      flushText (rule.words.flatMap SpacedWord.spelled).reverse := by
    intro before
    have spelled := SpacedWord.spells_flatMap rule.words before [] []
    rwa [List.append_nil, List.append_nil, piecesAfter] at spelled
  have cut : Piece.ofText rule.content = [.code rule.name.toList] ++
      flushText (rule.words.flatMap SpacedWord.spelled).reverse :=
    rule.bare.piecesAfter_content (SpacedWord.head?_flatMap_written rule.words) reads none []
  have pairs := (Pairs.piece (p := .code rule.name.toList) (by simp)).append
    (pairs_flushText (rule.words.flatMap SpacedWord.spelled).reverse)
  have name : Settles [.code rule.name.toList] [.code rule.name.toList] :=
    Settles.piece (by rw [Piece.settle]) (by simp)
  calc Inline.ofText rule.content
    _ = settleAll (pairRuns [] ([.code rule.name.toList] ++
          flushText (rule.words.flatMap SpacedWord.spelled).reverse)) :=
        congrArg (fun cut => settleAll (pairRuns [] cut)) cut
    _ = settleAll ([.code rule.name.toList] ++
          flushText (rule.words.flatMap SpacedWord.spelled).reverse) :=
        congrArg settleAll pairs.pairRuns_eq
    _ = _ := name _

theorem WordRule.declarations_content (rule : WordRule) :
    declarations (Inline.ofText rule.content) = [rule.declaration] := by
  have words := SpacedWord.words_flatMap_spelled rule.words
  rw [rule.ofText_content, declaration]
  cases spelled : rule.words.flatMap SpacedWord.spelled with
  | nil =>
    rw [spelled] at words
    have none : rule.words = [] := List.map_eq_nil_iff.mp words.symm
    simp [none, flushText, settleAll, declarations, arguments]
  | cons c rest =>
    rw [spelled] at words
    rw [flushText_reverse _ (List.cons_ne_nil c rest)]
    have settled : settleAll [.text (c :: rest)] = [.text (c :: rest)] := by
      simp [settleAll, Piece.settle, Inline.before]
    have read : arguments [.text (c :: rest)] = rule.words.map fun word => word.text.toList := words
    rw [settled, declarations, read, List.map_map]
    simp [declarations, Function.comp_def]

/-! ## Lines and blocks -/

namespace WordRule

theorem content_eq_cons (rule : WordRule) :
    ∃ first rest, rule.content = backtick :: first :: rest ∧ first ≠ backtick := by
  obtain ⟨first, name, split⟩ := List.exists_cons_of_ne_nil rule.nonempty
  refine ⟨first, name ++ backtick :: rule.words.flatMap SpacedWord.written, ?_, ?_⟩
  · simp [content, bare, PlainRule.content, split]
  · intro same
    exact rule.noBacktick (by rw [split, same]; exact List.mem_cons_self)

/-- A rule ends in the backtick of its name or with its last word. -/
theorem getLast?_content (rule : WordRule) :
    ∀ c ∈ rule.content.getLast?, isBlank c = false := by
  rcases List.eq_nil_or_concat rule.words with none | ⟨words, word, ended⟩
  · obtain ⟨c, last, visible⟩ := rule.bare.getLast?_content
    rw [content, none, List.flatMap_nil, List.append_nil, last]
    rintro _ ⟨⟩
    exact visible
  · have filled : escape word.text.toList ≠ [] := by
      obtain ⟨c, starts, _⟩ := head?_escape word.text.toList word.nonempty
      intro empty
      have first := starts []
      rw [empty] at first
      cases first
    have last : rule.content.getLast? = word.text.toList.getLast? := by
      rw [content, ended, List.concat_eq_append, List.flatMap_append, List.flatMap_singleton,
        SpacedWord.written, ← List.append_assoc, ← List.append_assoc,
        List.getLast?_append_of_ne_nil _ filled, getLast?_escape]
    rw [last]
    exact fun c member => word.visible c (List.mem_of_getLast? member)

theorem not_mem_content (rule : WordRule) : '\n' ∉ rule.content := by
  intro member
  rcases List.mem_append.mp member with name | words
  · exact rule.bare.not_mem_content name
  · obtain ⟨word, _, inside⟩ := List.mem_flatMap.mp words
    rcases List.mem_append.mp inside with space | text
    · exact absurd (List.eq_of_mem_replicate space) (by decide)
    · exact not_mem_escape _ (fun broken => absurd (word.visible _ broken) (by decide)) text

theorem lines_writeWords (ending : LineEnding) (rules : List WordRule) :
    lines (ending.text.intercalate (rules.map line)) = rules.map line := by
  refine lines_intercalate ending _ ?_ ?_ ?_
  · intro row member
    obtain ⟨rule, _, rfl⟩ := List.mem_map.mp member
    simp [line]
  · intro row member
    obtain ⟨rule, _, rfl⟩ := List.mem_map.mp member
    simp [line, rule.not_mem_content]
  · intro row member last
    obtain ⟨rule, _, rfl⟩ := List.mem_map.mp member
    obtain ⟨first, rest, opened, _⟩ := rule.content_eq_cons
    have filled : rule.content ≠ [] := by simp [opened]
    rw [line, List.getLast?_cons_cons, List.getLast?_cons_of_ne_nil filled] at last
    exact absurd (rule.getLast?_content _ last) (by decide)

/-- The scanner after the rule's line: its paragraph is open. -/
def scanner (rule : WordRule) : Scanner := ⟨[2], .paragraph [rule.content] true⟩

/-- A rule's line ends what stands above it and opens a paragraph of its own. -/
theorem line_below (rule : WordRule) {s : Scanner} (inset : s.Inset) (yields : s.block.Yields)
    (nested : s.block ≠ .closed → s.items ≠ []) :
    s.line rule.line = (s.block.paragraphs, rule.scanner) := by
  obtain ⟨first, rest, opened, single⟩ := rule.content_eq_cons
  have trimmed := trimEnd_eq_self rule.content rule.getLast?_content
  have begun : Scanner.begin [] ⟨0, rule.line⟩ = rule.scanner := by
    rw [line, scanner]
    rw [opened] at trimmed ⊢
    rw [begin_backtick, openBlock_backtick _ _ single, trimmed]
    rfl
  have interrupts : interrupts ⟨0, rule.line⟩ = true := by
    rw [line, opened]
    exact interrupts_backtick _
  rw [← begun]
  exact Scanner.line_outside inset yields (by simp [line]) rfl interrupts
    fun open_ bare => absurd bare (nested open_)

theorem paragraphs_below (rules : List WordRule) {s : Scanner} (inset : s.Inset)
    (yields : s.block.Yields) (nested : s.block ≠ .closed → s.items ≠ []) :
    s.paragraphs (rules.map line) = s.block.paragraphs ++ rules.map content := by
  induction rules generalizing s with
  | nil => simp [Scanner.paragraphs]
  | cons rule rules ih =>
    have below := ih (s := rule.scanner) (by simp [Scanner.Inset, scanner]) trivial
      (by simp [scanner])
    have paragraph : rule.scanner.block.paragraphs = [rule.content] := by
      simp [scanner, Block.paragraphs, List.intercalate]
    rw [List.map_cons, Scanner.paragraphs, rule.line_below inset yields nested, below, paragraph]
    rfl

end WordRule

/-- Words written after names are read back as the arguments of the rules, each rule with its own,
in order. -/
theorem rules_writeWords (ending : LineEnding) (rules : List WordRule) :
    Note.rules (writeWords ending rules) = rules.map WordRule.declaration := by
  have paragraphs := WordRule.paragraphs_below rules Scanner.inset_start trivial
    (fun opened => absurd rfl opened)
  rw [Note.rules, itemParagraphs_eq, writeWords, String.toList_ofList, WordRule.lines_writeWords,
    paragraphs]
  change (rules.map WordRule.content).flatMap (fun text => declarations (Inline.ofText text)) = _
  rw [List.flatMap_map, List.map_eq_flatMap]
  exact List.flatMap_congr fun rule _ => rule.declarations_content

/-- A rule with two words and one without any. -/
def wordRules : List WordRule :=
  have visible : ∀ {text : List Char}, text.any isBlank = false → ∀ c ∈ text, isBlank c = false :=
    fun none c member => Bool.eq_false_iff.mpr (List.any_eq_false.mp none c member)
  [⟨"milestoned_issue",
      [⟨"v1.2", 0, by decide, visible (by decide)⟩,
        ⟨"next", 2, by decide, visible (by decide)⟩],
      by decide, by decide, by decide, by rintro _ ⟨⟩; decide, by rintro _ ⟨⟩; decide⟩,
    ⟨"reopened_issue", [], by decide, by decide, by decide, by rintro _ ⟨⟩; decide,
      by rintro _ ⟨⟩; decide⟩]

example : writeWords .lineFeed wordRules =
    "- `milestoned_issue` v1\\.2   next\n- `reopened_issue`" := by
  decide

end BoardRules.Note
