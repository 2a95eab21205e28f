import BoardRules.Proofs.Note.RoundTrip
import Mathlib.Tactic.SplitIfs

/-!
# The scanner between two lines

A note is given by its lines. What the lines above have left open decides what the lines below
mean, and nothing else of them does: the paragraphs of a note are those that end within the lines
above and those that the scanner, going on from its state, finds below (`paragraphs_append`). A line
at column zero stands outside all open items, so where it begins a block the scanner goes on as if
nothing stood above it (`line_outside`).
-/
namespace BoardRules.Note

open Text

/-! ## Notes given by their lines -/

/-- A line of a note holds no line ending. -/
structure Line where
  text : List Char
  noFeed : '\n' ∉ text
  noReturn : '\r' ∉ text

/-- The note whose lines are joined by line feeds. -/
def ofLines (rows : List Line) : String := String.ofList (['\n'].intercalate (rows.map Line.text))

namespace Scanner

/-- An empty last line ends a paragraph that would end anyway. -/
theorem paragraphs_append_empty (s : Scanner) (rows : List (List Char)) :
    s.paragraphs (rows ++ [[]]) = s.paragraphs rows := by
  have blank : ∀ t : Scanner, t.paragraphs [[]] = t.block.paragraphs := by
    intro t
    rcases t with ⟨items, _ | ⟨lines, _ | _⟩ | _ | _ | _⟩ <;>
      simp [paragraphs, line, skipIndent, Block.afterBlank, Block.paragraphs]
  rw [paragraphs_append, blank, paragraphs_eq_ended]

end Scanner

/-- Only an empty last line is lost when lines are joined and cut again. -/
theorem lines_join (rows : List Line) :
    lines (['\n'].intercalate (rows.map Line.text)) = rows.map Line.text ∨
      lines (['\n'].intercalate (rows.map Line.text)) ++ [[]] = rows.map Line.text := by
  have cut : ∀ (row : Line) (rest : List Char), lines (row.text ++ '\n' :: rest) =
      row.text :: lines rest := fun row rest =>
    lines_append .lineFeed row.text rest row.noFeed fun last =>
      row.noReturn (List.mem_of_getLast? last)
  induction rows with
  | nil => exact Or.inl rfl
  | cons row rows ih =>
    cases rows with
    | nil =>
      have clean : ∀ c ∈ row.text, (c == '\n') = false := fun c member =>
        beq_eq_false_iff_ne.mpr (ne_of_mem_of_not_mem member row.noFeed)
      have whole := pieces_eq_singleton row.text clean
      by_cases empty : row.text = []
      · exact Or.inr (by simp [List.intercalate, lines, linesOfPieces, pieces, empty])
      · exact Or.inl (by simp [List.intercalate, lines, whole, linesOfPieces, empty])
    | cons next rows =>
      have joined : ['\n'].intercalate ((row :: next :: rows).map Line.text) =
          row.text ++ '\n' :: ['\n'].intercalate ((next :: rows).map Line.text) := by
        simp [List.intercalate]
      rw [joined, cut, List.map_cons (l := next :: rows), List.cons_append, List.cons_inj_right,
        List.cons_inj_right]
      exact ih

/-- The rules of paragraphs of list items. -/
def rulesOf (paragraphs : List (List Char)) : List Declaration :=
  paragraphs.flatMap fun paragraph => declarations (Inline.ofText paragraph)

theorem rulesOf_append (above below : List (List Char)) :
    rulesOf (above ++ below) = rulesOf above ++ rulesOf below := List.flatMap_append

theorem rules_ofLines (rows : List Line) :
    Note.rules (ofLines rows) = rulesOf (Scanner.start.paragraphs (rows.map Line.text)) := by
  rw [Note.rules, itemParagraphs_eq, ofLines, String.toList_ofList, rulesOf]
  rcases lines_join rows with same | shorter
  · rw [same]
  · rw [← Scanner.paragraphs_append_empty, shorter]

/-! ## Open items -/

theorem le_column_skipIndent (column : Nat) (text : List Char) :
    column ≤ (skipIndent column text).column := by
  fun_induction skipIndent column text with
  | case1 column rest ih => omega
  | case2 column rest ih =>
    have stop : column < (column / tabStop + 1) * tabStop := by
      simp only [tabStop]
      omega
    omega
  | case3 => exact Nat.le_refl _

/-- The content of an item begins right of its marker. -/
theorem column_lt_contentColumn {line : Indented} {m : Marker} (found : marker? line = some m) :
    line.column < m.contentColumn := by
  unfold marker? at found
  split at found
  · cases found
  · next number width after head =>
    split at found
    · have content := le_column_skipIndent (line.column + width) after
      have wide : 0 < width := by
        unfold markerHead? at head
        grind
      obtain rfl := Option.some.inj found
      unfold Marker.contentColumn
      dsimp only
      split
      · omega
      · omega
    · cases found

theorem contentColumn_pos {line : Indented} {m : Marker} (found : marker? line = some m) :
    0 < m.contentColumn := Nat.zero_lt_of_lt (column_lt_contentColumn found)

/-- A line opens items inside those that are open, and their contents stand right of column zero. -/
theorem openItems_extends (items : List Nat) (line : Indented) :
    ∃ more, (openItems items line).1 = items ++ more ∧ ∀ column ∈ more, 0 < column := by
  fun_induction openItems items line with
  | case1 items line => exact ⟨[], by simp, by simp⟩
  | case2 items line => exact ⟨[], by simp, by simp⟩
  | case3 items line _ m found _ =>
    exact ⟨[m.contentColumn], rfl, by simpa using contentColumn_pos found⟩
  | case4 items line _ m found _ ih =>
    obtain ⟨more, extends_, inside⟩ := ih
    refine ⟨m.contentColumn :: more, by simp [extends_], ?_⟩
    simpa [contentColumn_pos found] using inside

/-- No line at column zero belongs to an open item. -/
def Scanner.Inset (s : Scanner) : Prop := ∀ column ∈ s.items, 0 < column

namespace Scanner

theorem items_begin (items : List Nat) (line : Indented) :
    (begin items line).items = (openItems items line).1 := by
  unfold begin
  split <;> simp [*]

theorem inset_begin {items : List Nat} (inset : ∀ column ∈ items, 0 < column) (line : Indented) :
    (begin items line).Inset := by
  obtain ⟨more, extends_, inside⟩ := openItems_extends items line
  rw [Inset, items_begin, extends_]
  exact List.forall_mem_append.mpr ⟨inset, inside⟩

/-- What a line does to the scanner, whatever the paragraphs are that it ends. -/
inductive Goes (s : Scanner) (line : Indented) : Scanner → Prop where
  /-- The line begins anew inside the items that it reaches. -/
  | begins : Goes s line (.begin (s.items.take (depthAt s.items line.column)) line)
  | closes : Goes s line ⟨s.items, .closed⟩
  /-- The line is passed over. -/
  | hides (other : ∀ lines inItem, s.block ≠ .paragraph lines inItem) : Goes s line s
  | continues {lines : List (List Char)} {inItem : Bool} (block : s.block = .paragraph lines inItem) :
      Goes s line ⟨s.items, .paragraph (lines ++ [trimEnd line.text]) inItem⟩

theorem goes_content (s : Scanner) (line : Indented) : s.Goes line (s.content line).2 := by
  obtain ⟨items, block⟩ := s
  unfold Scanner.content
  cases block with
  | closed => exact .begins
  | fence mark length depth =>
    dsimp only
    split_ifs
    · exact .begins
    · exact .closes
    · exact .hides (by simp)
  | comment =>
    dsimp only
    split_ifs
    · exact .closes
    · exact .hides (by simp)
  | markup => exact .hides (by simp)
  | paragraph lines inItem =>
    dsimp only
    split_ifs
    · exact .closes
    · exact .begins
    · exact .continues rfl

theorem goes_line (s : Scanner) (text : List Char) :
    s.Goes (skipIndent 0 text) (s.line text).2 := by
  rw [line]
  split_ifs
  · obtain ⟨items, block⟩ := s
    cases block with
    | closed => exact .closes
    | fence mark length depth => exact .hides (by simp)
    | comment => exact .hides (by simp)
    | markup => exact .closes
    | paragraph lines inItem => exact .closes
  · exact s.goes_content _

/-- The open items stay, or a line keeps some of them and opens others. -/
theorem Inset.line {s : Scanner} (inset : s.Inset) (text : List Char) : (s.line text).2.Inset := by
  have goes := s.goes_line text
  generalize (s.line text).2 = next at goes ⊢
  cases goes with
  | begins => exact inset_begin (fun column member => inset column (List.mem_of_mem_take member)) _
  | closes => exact inset
  | hides => exact inset
  | continues => exact inset

theorem Inset.after {s : Scanner} (inset : s.Inset) (rows : List (List Char)) :
    (s.after rows).Inset := by
  induction rows generalizing s with
  | nil => exact inset
  | cons text rows ih => exact ih (inset.line text)

theorem inset_start : start.Inset := by simp [Inset, start]

end Scanner

/-- An open comment asks of a line only whether it closes the comment. -/
theorem Scanner.line_comment (items : List Nat) (text : List Char) :
    Scanner.line ⟨items, .comment⟩ text =
      ([], ⟨items, if contains commentClosing (skipIndent 0 text).text then .closed
        else .comment⟩) := by
  rw [Scanner.line]
  split_ifs with blank closes closes
  · rw [List.isEmpty_iff.mp blank] at closes
    exact absurd closes (by decide)
  · rfl
  · simp [Scanner.content, closes]
  · simp [Scanner.content, closes]

/-! ## Lines outside all items -/

/-- A block that ends when a line at column zero begins another: all but comments, markup and the
fences that stand outside all items. -/
def Block.Yields : Block → Prop
  | .closed => True
  | .paragraph _ _ => True
  | .fence _ _ depth => 0 < depth
  | .comment => False
  | .markup => False

theorem Scanner.Inset.depthAt_zero {s : Scanner} (inset : s.Inset) : depthAt s.items 0 = 0 := by
  unfold depthAt
  cases items : s.items with
  | nil => rfl
  | cons column rest =>
    have right : column ≠ 0 := by
      have := inset column (by simp [items])
      omega
    simp [right]

/-- The line ends what stands above it, and the scanner goes on as if it were the first line. -/
theorem Scanner.line_outside {s : Scanner} (inset : s.Inset) (yields : s.block.Yields)
    {text : List Char} (filled : text ≠ []) (unindented : skipIndent 0 text = ⟨0, text⟩)
    (interrupts : interrupts ⟨0, text⟩ = true)
    (noUnderline : s.block ≠ .closed → s.items = [] → isUnderline text = false) :
    s.line text = (s.block.paragraphs, .begin [] ⟨0, text⟩) := by
  have outside := inset.depthAt_zero
  have shallow : ¬ codeIndent ≤ 0 - containerColumn s.items := by simp [codeIndent]
  rw [Scanner.line, unindented, if_neg (by simpa using filled), content]
  simp only [outside, List.take_zero]
  cases block : s.block with
  | closed => rfl
  | comment => exact absurd yields (by simp [block, Block.Yields])
  | markup => exact absurd yields (by simp [block, Block.Yields])
  | fence mark length depth =>
    have deep : 0 < depth := by simpa [block, Block.Yields] using yields
    simp [deep, Block.paragraphs]
  | paragraph lines inItem =>
    have noHeading : ((0 == s.items.length) &&
        decide (0 - containerColumn s.items < codeIndent) && isUnderline text) = false := by
      cases items : s.items with
      | nil => simp [noUnderline (by simp [block]) items]
      | cons column rest => simp
    have ends : (Note.interrupts ⟨0, text⟩ && !((0 == s.items.length) &&
        decide (codeIndent ≤ 0 - containerColumn s.items))) = true := by
      rw [interrupts, decide_eq_false shallow, Bool.and_false]
      rfl
    dsimp only
    rw [noHeading, if_neg Bool.false_ne_true, if_pos ends]

/-! ## Items that begin with code -/

/-- What begins with a single backtick is a paragraph, as no fence is that short. -/
theorem openBlock_backtick (items : List Nat) {first : Char} (rest : List Char)
    (single : first ≠ backtick) : openBlock items (backtick :: first :: rest) =
      .paragraph [trimEnd (backtick :: first :: rest)] (!items.isEmpty) := by
  have noFence : fence? (backtick :: first :: rest) = none := by simp [fence?, single]
  have noHeading : isHeading (backtick :: first :: rest) = false := rfl
  have noQuotation : isQuotation (backtick :: first :: rest) = false := rfl
  have noComment : comment? (backtick :: first :: rest) = none := rfl
  have noMarkup : opensMarkup (backtick :: first :: rest) = false := rfl
  simp [openBlock, noFence, noHeading, noQuotation, noComment, noMarkup]

theorem begin_backtick (rest : List Char) : Scanner.begin [] ⟨0, '-' :: ' ' :: backtick :: rest⟩ =
    ⟨[2], openBlock [2] (backtick :: rest)⟩ := by
  have inner : openItems [2] ⟨2, backtick :: rest⟩ = ([2], some (backtick :: rest)) := by
    rw [openItems.eq_1, if_neg (by exact Bool.false_ne_true)]
    split
    · rfl
    · next m found => cases found
  have item : openItems [] ⟨0, '-' :: ' ' :: backtick :: rest⟩ =
      ([2], some (backtick :: rest)) := by
    rw [openItems.eq_1, if_neg (by exact Bool.false_ne_true)]
    split
    · next missing => cases missing
    · next m found =>
      obtain rfl := Option.some.inj found
      exact inner
  rw [Scanner.begin, item]

/-- An item with content ends the paragraph above it. -/
theorem interrupts_backtick (rest : List Char) :
    interrupts ⟨0, '-' :: ' ' :: backtick :: rest⟩ = true := by
  have item : marker? ⟨0, '-' :: ' ' :: backtick :: rest⟩ =
      some ⟨none, 1, ⟨2, backtick :: rest⟩⟩ := rfl
  simp [interrupts, item]

end BoardRules.Note
