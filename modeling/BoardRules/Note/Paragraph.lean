import BoardRules.Text.Decimal
import BoardRules.Text.Pieces

/-!
# Paragraphs of list items

A note is read line by line, and of all its blocks only the paragraphs that stand directly in a
list item are handed out. Headings, code, comments, markup and quotations are recognised so that
nothing inside them is taken for such a paragraph.

Between two lines the scanner keeps the open paragraph, the open block whose lines are skipped, and
the open list items. These are a list of columns, outermost first: a line belongs to the items whose
content column it reaches.
-/
namespace BoardRules.Note

open Text

def tabStop : Nat := 4

/-- Content indented this far beyond its item is code. -/
def codeIndent : Nat := 4

/-- What is left of a line, and the column where it begins. -/
structure Indented where
  column : Nat
  text : List Char
  deriving DecidableEq, Repr

/-- Skips spaces and tabs only; other blanks are content. -/
def skipIndent (column : Nat) : List Char → Indented
  | ' ' :: rest => skipIndent (column + 1) rest
  | '\t' :: rest => skipIndent ((column / tabStop + 1) * tabStop) rest
  | text => ⟨column, text⟩

/-! ## Line shapes -/

/-- The head of a list item. A bullet has no number. -/
structure Marker where
  number : Option Nat
  /-- The column right after the marker's own characters. -/
  endColumn : Nat
  content : Indented
  deriving DecidableEq, Repr

def isBullet (c : Char) : Bool := c == '-' || c == '+' || c == '*'

def isIndent (c : Char) : Bool := c == ' ' || c == '\t'

/-- Item numbers have at most this many digits. -/
def maxNumberDigits : Nat := 9

/-- The number of a marker, its width and the text after it. -/
def markerHead? : List Char → Option (Option Nat × Nat × List Char)
  | [] => none
  | c :: rest =>
    if isBullet c then some (none, 1, rest)
    else
      let digits := (c :: rest).takeWhile Char.isDigit
      match digits, (c :: rest).dropWhile Char.isDigit with
      | _ :: _, close :: after =>
        if digits.length ≤ maxNumberDigits && (close == '.' || close == ')') then
          some (some (Decimal.value digits), digits.length + 1, after)
        else none
      | _, _ => none

/-- A marker ends its line or is followed by a space or a tab. -/
def marker? (line : Indented) : Option Marker :=
  match markerHead? line.text with
  | none => none
  | some (number, width, after) =>
    if (after.head?.map isIndent).getD true then
      some ⟨number, line.column + width, skipIndent (line.column + width) after⟩
    else none

/-- The column that a line must reach to belong to the item. -/
def Marker.contentColumn (m : Marker) : Nat :=
  if m.content.text.isEmpty || codeIndent < m.content.column - m.endColumn then m.endColumn + 1
  else m.content.column

/-- Three or more equal marks, with nothing but spaces and tabs among them. -/
def isThematicBreak (text : List Char) : Bool :=
  match text.filter (fun c => !isIndent c) with
  | [] => false
  | mark :: rest =>
    (mark == '-' || mark == '*' || mark == '_') && rest.all (· == mark) && 2 ≤ rest.length

/-- A line that turns the paragraph above it into a heading. -/
def isUnderline (text : List Char) : Bool :=
  match trimEnd text with
  | [] => false
  | mark :: rest => (mark == '=' || mark == '-') && rest.all (· == mark)

/-- One to six number signs, closed by a space, a tab or the end of the line. -/
def isHeading (text : List Char) : Bool :=
  let level := (text.takeWhile (· == '#')).length
  1 ≤ level && level ≤ 6 && ((text.drop level).head?.map isIndent).getD true

/-- Mark and length of the code fence that the line opens. -/
def fence? : List Char → Option (Char × Nat)
  | [] => none
  | mark :: rest =>
    let length := (rest.takeWhile (· == mark)).length + 1
    let info := rest.dropWhile (· == mark)
    if (mark == '\x60' || mark == '~') && 3 ≤ length && !(mark == '\x60' && info.contains mark) then
      some (mark, length)
    else none

def closesFence (mark : Char) (length : Nat) (text : List Char) : Bool :=
  (trimEnd text).all (· == mark) && length ≤ (trimEnd text).length

def isQuotation (text : List Char) : Bool := text.head? == some '>'

def commentOpening : List Char := ['<', '!', '-', '-']

def commentClosing : List Char := ['-', '-', '>']

/-- What follows the opening of a comment. -/
def comment? (text : List Char) : Option (List Char) := after? commentOpening text

def opensMarkup : List Char → Bool
  | '<' :: c :: _ => c.isAlpha || c == '/' || c == '!' || c == '?'
  | _ => false

/-- Of the list items only a bullet or number one, with content, ends a paragraph. -/
def interrupts (line : Indented) : Bool :=
  isThematicBreak line.text || isHeading line.text || (fence? line.text).isSome ||
    (comment? line.text).isSome || isQuotation line.text ||
    match marker? line with
    | some m => !m.content.text.isEmpty && (m.number.isNone || m.number == some 1)
    | none => false

/-! ## Open items -/

def containerColumn (items : List Nat) : Nat := items.getLastD 0

/-- How many of the open items a line at this column belongs to. -/
def depthAt (items : List Nat) (column : Nat) : Nat := (items.takeWhile (· ≤ column)).length

theorem length_skipIndent_le (column : Nat) (cs : List Char) :
    (skipIndent column cs).text.length ≤ cs.length := by
  fun_induction skipIndent column cs with
  | case1 column rest ih => simp; omega
  | case2 column rest ih => simp; omega
  | case3 => simp

theorem length_markerHead_lt {text : List Char} {number : Option Nat} {width : Nat}
    {after : List Char} (h : markerHead? text = some (number, width, after)) :
    after.length < text.length := by
  unfold markerHead? at h
  split at h
  · simp at h
  · next c rest =>
    split at h
    · simp at h; simp [← h.2.2]
    · have hlen : ((c :: rest).dropWhile Char.isDigit).length ≤ (c :: rest).length :=
        (List.dropWhile_sublist _).length_le
      simp only at h
      split at h
      · next hdrop =>
        split at h
        · simp only [Option.some.injEq, Prod.mk.injEq] at h
          rw [hdrop, List.length_cons] at hlen
          rw [← h.2.2]; omega
        · simp at h
      · simp at h

theorem length_content_lt {line : Indented} {m : Marker} (h : marker? line = some m) :
    m.content.text.length < line.text.length := by
  unfold marker? at h
  split at h
  · simp at h
  · next number width after hhead =>
    split at h
    · simp only [Option.some.injEq] at h
      have := length_skipIndent_le (line.column + width) after
      have := length_markerHead_lt hhead
      rw [← h]; simp; omega
    · simp at h

/-- Opens the list items that a line begins with. What is left of the line, if it can begin a
block, comes with them. -/
def openItems (items : List Nat) (line : Indented) : List Nat × Option (List Char) :=
  if codeIndent ≤ line.column - containerColumn items || isThematicBreak line.text then
    (items, none)
  else
    match _found : marker? line with
    | none => (items, some line.text)
    | some m =>
      if m.content.text.isEmpty then (items ++ [m.contentColumn], none)
      else openItems (items ++ [m.contentColumn]) m.content
termination_by line.text.length
decreasing_by exact length_content_lt _found

/-! ## The scanner -/

/-- Lines of text that belong together. -/
structure Paragraph where
  lines : List (List Char)
  inItem : Bool
  deriving DecidableEq, Repr

/-- A block whose lines are skipped until it ends. -/
inductive Skipped where
  | fence (mark : Char) (length depth : Nat)
  | comment
  | markup
  deriving DecidableEq, Repr

structure BlockScanner where
  /-- Content columns of the open list items, outermost first. -/
  items : List Nat
  paragraph : Option Paragraph
  skipped : Option Skipped
  /-- The paragraphs of list items that have ended, their lines joined by line feeds. -/
  output : List (List Char)
  deriving DecidableEq, Repr

namespace BlockScanner

def start : BlockScanner := ⟨[], none, none, []⟩

/-- Ends the open paragraph, which is handed out if it stands in a list item. -/
def flush (b : BlockScanner) : BlockScanner :=
  match b.paragraph with
  | none => b
  | some paragraph =>
    { b with
      paragraph := none
      output :=
        if paragraph.inItem then b.output ++ [['\n'].intercalate paragraph.lines] else b.output }

/-- A blank line ends paragraphs and markup. -/
def blank (b : BlockScanner) : BlockScanner :=
  if b.flush.skipped = some .markup then { b.flush with skipped := none } else b.flush

/-- A line under an open block that is skipped: whether it belongs to the block, and the state after
it. -/
def skip (b : BlockScanner) (block : Skipped) (depth : Nat) (text : List Char) :
    Bool × BlockScanner :=
  match block with
  | .fence mark length fenceDepth =>
    if depth < fenceDepth then (false, { b with skipped := none })
    else (true, if closesFence mark length text then { b with skipped := none } else b)
  | .comment => (true, if contains commentClosing text then { b with skipped := none } else b)
  | .markup => (true, b)

/-- Goes on with the open paragraph. -/
def append (b : BlockScanner) (text : List Char) : BlockScanner :=
  { b with
    paragraph := b.paragraph.map fun paragraph =>
      { paragraph with lines := paragraph.lines ++ [trimEnd text] } }

/-- A line under an open paragraph: whether it belongs to the paragraph, and the state after it. -/
def extend (b : BlockScanner) (depth : Nat) (line : Indented) : Bool × BlockScanner :=
  let within := depth == b.items.length
  if within && line.column - containerColumn b.items < codeIndent then
    -- With an underline the paragraph was a heading all along.
    if isUnderline line.text then (true, { b with paragraph := none })
    else if interrupts line then (false, b.flush)
    else (true, b.append line.text)
  else if !within && interrupts line then (false, { b.flush with items := b.items.take depth })
  else (true, b.append line.text)

/-- Opens the block that a text begins. -/
def openText (b : BlockScanner) (text : List Char) : BlockScanner :=
  match fence? text with
  | some (mark, length) => { b with skipped := some (.fence mark length b.items.length) }
  | none =>
    if isHeading text || isQuotation text then b
    else match comment? text with
      | some rest =>
        if contains commentClosing rest then b else { b with skipped := some .comment }
      | none =>
        if opensMarkup text then { b with skipped := some .markup }
        else { b with paragraph := some ⟨[trimEnd text], !b.items.isEmpty⟩ }

/-- A line that continues no open block opens its items, and the block that begins after them. -/
def begin (b : BlockScanner) (line : Indented) : BlockScanner :=
  match openItems b.items line with
  | (items, none) => { b with items }
  | (items, some text) => { b with items }.openText text

/-- A line that is not skipped. -/
def resume (b : BlockScanner) (depth : Nat) (line : Indented) : BlockScanner :=
  if b.paragraph.isSome then
    match b.extend depth line with
    | (true, b) => b
    | (false, b) => b.begin line
  else { b with items := b.items.take depth }.begin line

/-- A line with content. -/
def content (b : BlockScanner) (line : Indented) : BlockScanner :=
  let depth := depthAt b.items line.column
  match b.skipped with
  | none => b.resume depth line
  | some block =>
    match b.skip block depth line.text with
    | (true, b) => b
    | (false, b) => b.resume depth line

def line (b : BlockScanner) (text : List Char) : BlockScanner :=
  let rest := skipIndent 0 text
  if rest.text.isEmpty then b.blank else b.content rest

def after (b : BlockScanner) (rows : List (List Char)) : BlockScanner := rows.foldl line b

def finish (b : BlockScanner) : List (List Char) := b.flush.output

end BlockScanner

/-- The paragraphs whose parent is a list item, in order, their lines joined by line feeds. -/
def itemParagraphs (note : List Char) : List (List Char) :=
  (BlockScanner.start.after (lines note)).finish

end BoardRules.Note
