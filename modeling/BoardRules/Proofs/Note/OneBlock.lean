import BoardRules.Proofs.Note.BlockScanner

/-!
# The scanner with one block

As a paragraph and a block that is skipped are never open together, the two can be read as one block,
and a line as a function that gives the paragraphs it ends beside the state after it. Theorems about
whole notes are proved of this scanner, and it hands out what the scanner of notes does
(`itemParagraphs_eq`): by induction on the lines, where each line needs of the ones above that they
leave at most one of the two open (`matches_line`).
-/
namespace BoardRules.Note

open Text

/-- The block that is open between two lines. -/
inductive Block where
  | closed
  | paragraph (lines : List (List Char)) (inItem : Bool)
  | fence (mark : Char) (length depth : Nat)
  | comment
  | markup
  deriving DecidableEq, Repr

structure Scanner where
  /-- Content columns of the open list items, outermost first. -/
  items : List Nat
  block : Block
  deriving DecidableEq, Repr

def Scanner.start : Scanner := ⟨[], .closed⟩

/-- The paragraph that ends with the block, if it stands in a list item. -/
def Block.paragraphs : Block → List (List Char)
  | .paragraph lines true => [['\n'].intercalate lines]
  | _ => []

/-- The block that a text opens inside the given items. -/
def openBlock (items : List Nat) (text : List Char) : Block :=
  match fence? text with
  | some (mark, length) => .fence mark length items.length
  | none =>
    if isHeading text || isQuotation text then .closed
    else match comment? text with
      | some rest => if contains commentClosing rest then .closed else .comment
      | none =>
        if opensMarkup text then .markup
        else .paragraph [trimEnd text] (!items.isEmpty)

/-- The state after a line that continues no open block. -/
def Scanner.begin (items : List Nat) (line : Indented) : Scanner :=
  match openItems items line with
  | (items, none) => ⟨items, .closed⟩
  | (items, some text) => ⟨items, openBlock items text⟩

/-- A blank line ends paragraphs and markup. -/
def Block.afterBlank : Block → Block
  | .paragraph _ _ => .closed
  | .markup => .closed
  | block => block

/-- One line with content: the paragraphs that it ends, and the state after it. -/
def Scanner.content (s : Scanner) (line : Indented) : List (List Char) × Scanner :=
  let depth := depthAt s.items line.column
  match s.block with
  | .closed => ([], .begin (s.items.take depth) line)
  | .fence mark length fenceDepth =>
    if depth < fenceDepth then ([], .begin (s.items.take depth) line)
    else ([], if closesFence mark length line.text then ⟨s.items, .closed⟩ else s)
  | .comment => ([], if contains commentClosing line.text then ⟨s.items, .closed⟩ else s)
  | .markup => ([], s)
  | .paragraph lines inItem =>
    let within := depth == s.items.length
    if within && line.column - containerColumn s.items < codeIndent && isUnderline line.text then
      ([], ⟨s.items, .closed⟩)
    else if interrupts line && !(within && codeIndent ≤ line.column - containerColumn s.items) then
      (s.block.paragraphs, .begin (s.items.take depth) line)
    else ([], ⟨s.items, .paragraph (lines ++ [trimEnd line.text]) inItem⟩)

/-- One line: the paragraphs that it ends, and the state after it. -/
def Scanner.line (s : Scanner) (text : List Char) : List (List Char) × Scanner :=
  let line := skipIndent 0 text
  if line.text.isEmpty then (s.block.paragraphs, ⟨s.items, s.block.afterBlank⟩)
  else s.content line

/-- All paragraphs that end from here on. -/
def Scanner.paragraphs (s : Scanner) : List (List Char) → List (List Char)
  | [] => s.block.paragraphs
  | text :: rest => (s.line text).1 ++ (s.line text).2.paragraphs rest

namespace Scanner

/-- The state after some lines. -/
def after (s : Scanner) : List (List Char) → Scanner
  | [] => s
  | text :: rest => (s.line text).2.after rest

/-- The paragraphs that end within some lines. -/
def ended (s : Scanner) : List (List Char) → List (List Char)
  | [] => []
  | text :: rest => (s.line text).1 ++ (s.line text).2.ended rest

/-- What was found above stays, and the state alone decides about the lines below. -/
theorem paragraphs_append (s : Scanner) (above below : List (List Char)) :
    s.paragraphs (above ++ below) = s.ended above ++ (s.after above).paragraphs below := by
  induction above generalizing s with
  | nil => rfl
  | cons text above ih => rw [List.cons_append, paragraphs, ih, ended, after, List.append_assoc]

theorem paragraphs_eq_ended (s : Scanner) (rows : List (List Char)) :
    s.paragraphs rows = s.ended rows ++ (s.after rows).block.paragraphs := by
  have all := s.paragraphs_append rows []
  rwa [List.append_nil] at all

end Scanner

namespace BlockScanner

variable {b : BlockScanner}

/-! ## Both scanners read the same -/

/-- What is open, as one block. -/
def block (b : BlockScanner) : Block :=
  match b.skipped, b.paragraph with
  | some (.fence mark length depth), _ => .fence mark length depth
  | some .comment, _ => .comment
  | some .markup, _ => .markup
  | none, some paragraph => .paragraph paragraph.lines paragraph.inItem
  | none, none => .closed

def scanner (b : BlockScanner) : Scanner := ⟨b.items, b.block⟩

theorem ending_eq (exclusive : b.Exclusive) : b.ending = b.block.paragraphs := by
  obtain ⟨items, paragraph, skipped, output⟩ := b
  rcases exclusive with closed | clear
  · obtain rfl : paragraph = none := closed
    rcases skipped with _ | _ | _ | _ <;> rfl
  · obtain rfl : skipped = none := clear
    rcases paragraph with _ | ⟨lines, _ | _⟩ <;> rfl

/-- The state is the one-block scanner's after its line, and has put out what that line ends. -/
structure Matches (b : BlockScanner) (output : List (List Char))
    (turn : List (List Char) × Scanner) : Prop where
  state : b.scanner = turn.2
  output : b.output = output ++ turn.1

theorem matches_nil (b : BlockScanner) : b.Matches b.output ([], b.scanner) :=
  ⟨rfl, (List.append_nil _).symm⟩

theorem matches_openText (items : List Nat) (output : List (List Char)) (text : List Char) :
    (openText ⟨items, none, none, output⟩ text).Matches output ([], ⟨items, openBlock items text⟩) := by
  unfold openText openBlock
  cases fence? text with
  | some opening => exact matches_nil _
  | none =>
    cases isHeading text || isQuotation text with
    | true => exact matches_nil _
    | false =>
      cases comment? text with
      | none => cases opensMarkup text <;> exact matches_nil _
      | some rest =>
        dsimp only
        cases contains commentClosing rest <;> exact matches_nil _

theorem matches_begin (items : List Nat) (output : List (List Char)) (line : Indented) :
    (begin ⟨items, none, none, output⟩ line).Matches output ([], .begin items line) := by
  unfold begin Scanner.begin
  dsimp only
  generalize openItems items line = opened
  obtain ⟨items, _ | text⟩ := opened
  · exact matches_nil _
  · exact matches_openText items output text

/-- A line under an open paragraph. -/
theorem matches_content_paragraph (items : List Nat) (paragraph : Paragraph)
    (output : List (List Char)) (line : Indented) :
    (content ⟨items, some paragraph, none, output⟩ line).Matches output
      (Scanner.content ⟨items, .paragraph paragraph.lines paragraph.inItem⟩ line) := by
  unfold content resume Scanner.content
  dsimp only [Option.isSome_some]
  rw [if_pos rfl, extend_eq, flush_eq, ending_eq (.inr rfl)]
  dsimp only [block]
  split_ifs
  · exact matches_nil _
  · have anew := matches_begin (items.take (depthAt items line.column))
      (output ++ (Block.paragraph paragraph.lines paragraph.inItem).paragraphs) line
    exact ⟨anew.state, by rw [anew.output, List.append_nil]⟩
  · exact matches_nil _

/-- A line under a block that is skipped. -/
theorem matches_content_skipped (items : List Nat) (skipped : Skipped)
    (output : List (List Char)) (line : Indented) :
    (content ⟨items, none, some skipped, output⟩ line).Matches output
      (Scanner.content (scanner ⟨items, none, some skipped, output⟩) line) := by
  unfold content Scanner.content skip
  cases skipped with
  | fence mark length depth =>
    dsimp only [scanner, block]
    split_ifs
    · exact matches_begin _ _ _
    · exact matches_nil _
    · exact matches_nil _
  | comment =>
    dsimp only [scanner, block]
    split_ifs
    · exact matches_nil _
    · exact matches_nil _
  | markup => exact matches_nil _

theorem matches_content (exclusive : b.Exclusive) (line : Indented) :
    (b.content line).Matches b.output (b.scanner.content line) := by
  obtain ⟨items, _ | paragraph, _ | skipped, output⟩ := b
  · exact matches_begin _ _ _
  · exact matches_content_skipped items skipped output line
  · exact matches_content_paragraph items paragraph output line
  · simp [Exclusive] at exclusive

theorem matches_blank (exclusive : b.Exclusive) :
    b.blank.Matches b.output (b.scanner.block.paragraphs, ⟨b.items, b.scanner.block.afterBlank⟩) := by
  rw [blank, flush_eq, ending_eq exclusive]
  obtain ⟨items, _ | paragraph, _ | skipped, output⟩ := b
  · exact ⟨rfl, rfl⟩
  · cases skipped <;> exact ⟨rfl, rfl⟩
  · exact ⟨rfl, rfl⟩
  · simp [Exclusive] at exclusive

/-- One line does the same to both scanners, if at most one block is open above it. -/
theorem matches_line (exclusive : b.Exclusive) (text : List Char) :
    (b.line text).Matches b.output (b.scanner.line text) := by
  rw [line, Scanner.line]
  split_ifs
  · exact matches_blank exclusive
  · exact matches_content exclusive _

/-- By induction on the lines: each leaves at most one block open for the next. -/
theorem matches_after (exclusive : b.Exclusive) (rows : List (List Char)) :
    (b.after rows).Matches b.output (b.scanner.ended rows, b.scanner.after rows) := by
  induction rows generalizing b with
  | nil => exact matches_nil b
  | cons text rows ih =>
    have first := matches_line exclusive text
    have others := ih (exclusive.line text)
    rw [first.state, first.output] at others
    refine ⟨others.state, ?_⟩
    rw [Scanner.ended, ← List.append_assoc]
    exact others.output

end BlockScanner

/-- The paragraphs of a note are those that the scanner with one block finds. -/
theorem itemParagraphs_eq (note : List Char) :
    itemParagraphs note = Scanner.start.paragraphs (lines note) := by
  have exclusive := BlockScanner.exclusive_after (lines note)
  have run := BlockScanner.matches_after (b := .start) (.inl rfl) (lines note)
  calc itemParagraphs note
    _ = (BlockScanner.start.after (lines note)).output ++
        (BlockScanner.start.after (lines note)).scanner.block.paragraphs := by
      rw [itemParagraphs, BlockScanner.finish_eq, BlockScanner.ending_eq exclusive]
      rfl
    _ = Scanner.start.ended (lines note) ++ (Scanner.start.after (lines note)).block.paragraphs := by
      rw [run.output, run.state]
      rfl
    _ = Scanner.start.paragraphs (lines note) := (Scanner.paragraphs_eq_ended _ _).symm

end BoardRules.Note
