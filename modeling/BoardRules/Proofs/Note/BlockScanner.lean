import BoardRules.Note.Paragraph
import Mathlib.Tactic.SplitIfs

/-!
# What a line does to the scanner

The open paragraph and the open block whose lines are skipped have a place each, and nothing in the
state itself keeps one from being opened beside the other. The lines do (`exclusive_after`): before a
line begins a block, the paragraph above it has been handed out and the block that hid it has been
left, so it begins where neither is open (`goes_line`), and it opens at most one of them
(`opens_begin`).
-/
namespace BoardRules.Note.BlockScanner

open Text

variable {b : BlockScanner}

/-- A paragraph or a block that is skipped can be open, not both. -/
def Exclusive (b : BlockScanner) : Prop := b.paragraph = none ∨ b.skipped = none

/-! ## Effects of the parts of a line -/

/-- The open paragraph, if it stands in a list item. -/
def ending (b : BlockScanner) : List (List Char) :=
  match b.paragraph with
  | none => []
  | some paragraph => if paragraph.inItem then [['\n'].intercalate paragraph.lines] else []

theorem ending_of_none (closed : b.paragraph = none) : b.ending = [] := by rw [ending, closed]

theorem flush_eq (b : BlockScanner) :
    b.flush = { b with paragraph := none, output := b.output ++ b.ending } := by
  obtain ⟨items, paragraph, skipped, output⟩ := b
  cases paragraph with
  | none => simp [flush, ending]
  | some paragraph =>
    unfold flush ending
    dsimp only
    split_ifs <;> simp

theorem finish_eq (b : BlockScanner) : b.finish = b.output ++ b.ending := by rw [finish, flush_eq]

/-- A block that is skipped is left or kept, and a line that does not belong to it is met without
it. -/
theorem skip_cases (b : BlockScanner) (block : Skipped) (depth : Nat) (text : List Char) :
    b.skip block depth text = (false, { b with skipped := none }) ∨
    b.skip block depth text = (true, { b with skipped := none }) ∨
    b.skip block depth text = (true, b) := by
  unfold skip
  cases block with
  | fence mark length fenceDepth =>
    dsimp only
    split_ifs
    · exact .inl rfl
    · exact .inr (.inl rfl)
    · exact .inr (.inr rfl)
  | comment =>
    dsimp only
    split_ifs
    · exact .inr (.inl rfl)
    · exact .inr (.inr rfl)
  | markup => exact .inr (.inr rfl)

/-- The three outcomes of a line under a paragraph: the paragraph is dropped, ends or goes on. Of the
paragraph's own items the truncation keeps all. -/
theorem extend_eq (b : BlockScanner) (depth : Nat) (line : Indented) :
    let within := depth == b.items.length
    let indent := line.column - containerColumn b.items
    b.extend depth line =
      if within && indent < codeIndent && isUnderline line.text then
        (true, { b with paragraph := none })
      else if interrupts line && !(within && codeIndent ≤ indent) then
        (false, { b.flush with items := b.items.take depth })
      else (true, b.append line.text) := by
  intro within indent
  unfold extend
  by_cases same : depth = b.items.length
  · have all : b.flush = { b.flush with items := b.items.take depth } := by
      rw [same, List.take_length, flush_eq]
    rw [← all]
    by_cases shallow : indent < codeIndent
    · have notDeep : ¬codeIndent ≤ indent := Nat.not_le.mpr shallow
      simp [within, indent, same, shallow, notDeep]
    · have deep : codeIndent ≤ indent := Nat.not_lt.mp shallow
      simp [within, indent, same, shallow, deep]
  · simp [within, same]

/-- A line that does not belong to the paragraph is met without it, inside the items that it
reaches. -/
theorem extend_cases (b : BlockScanner) (depth : Nat) (line : Indented) :
    b.extend depth line = (true, { b with paragraph := none }) ∨
    b.extend depth line = (false, { b.flush with items := b.items.take depth }) ∨
    b.extend depth line = (true, b.append line.text) := by
  rw [extend_eq]
  split_ifs
  · exact .inl rfl
  · exact .inr (.inl rfl)
  · exact .inr (.inr rfl)

/-- What the text of a line opens, beside what is open. -/
inductive Opens (b : BlockScanner) : BlockScanner → Prop where
  | nothing : Opens b b
  | fence (mark : Char) (length : Nat) :
      Opens b { b with skipped := some (.fence mark length b.items.length) }
  | comment : Opens b { b with skipped := some .comment }
  | markup : Opens b { b with skipped := some .markup }
  | paragraph (text : List Char) :
      Opens b { b with paragraph := some ⟨[text], !b.items.isEmpty⟩ }

theorem opens_openText (b : BlockScanner) (text : List Char) : b.Opens (b.openText text) := by
  unfold openText
  split
  · exact .fence _ _
  · split
    · exact .nothing
    · split
      · split
        · exact .nothing
        · exact .comment
      · split
        · exact .markup
        · exact .paragraph _

theorem opens_begin (b : BlockScanner) (line : Indented) :
    Opens { b with items := (openItems b.items line).1 } (b.begin line) := by
  unfold begin
  split
  · next items opened => rw [opened]; exact .nothing
  · next items text opened => rw [opened]; exact opens_openText _ text

/-! ## One line -/

/-- What a line does to the scanner. -/
inductive Goes (b : BlockScanner) (line : Indented) : BlockScanner → Prop where
  /-- No block is open any more, and the line begins anew inside the items that it reaches. -/
  | begins : Goes b line
      (begin ⟨b.items.take (depthAt b.items line.column), none, none, b.output ++ b.ending⟩ line)
  | closes {output : List (List Char)} (out : output = b.output ∨ output = b.output ++ b.ending) :
      Goes b line ⟨b.items, none, none, output⟩
  /-- The line is passed over. -/
  | hides (closed : b.paragraph = none) : Goes b line b
  | continues {paragraph : Paragraph} (opened : b.paragraph = some paragraph)
      (clear : b.skipped = none) :
      Goes b line
        ⟨b.items, some { paragraph with lines := paragraph.lines ++ [trimEnd line.text] }, none,
          b.output⟩

/-- With no paragraph open there is none to end first. -/
theorem goes_begin (closed : b.paragraph = none) (line : Indented) :
    b.Goes line
      (begin ⟨b.items.take (depthAt b.items line.column), none, none, b.output⟩ line) := by
  have anew : b.Goes line _ := .begins
  rwa [ending_of_none closed, List.append_nil] at anew

theorem resume_of_none (closed : b.paragraph = none) (depth : Nat) (line : Indented) :
    b.resume depth line = begin ⟨b.items.take depth, none, b.skipped, b.output⟩ line := by
  simp [resume, closed]

/-- A line that is not skipped ends the open paragraph before it begins anew. -/
theorem goes_resume (clear : b.skipped = none) (line : Indented) :
    b.Goes line (b.resume (depthAt b.items line.column) line) := by
  cases opened : b.paragraph with
  | none =>
    rw [resume_of_none opened, clear]
    exact goes_begin opened line
  | some paragraph =>
    simp only [resume, opened, Option.isSome_some, if_true]
    rcases b.extend_cases (depthAt b.items line.column) line with extended | extended | extended
    · rw [extended, clear]
      exact .closes (.inl rfl)
    · rw [extended, flush_eq, clear]
      exact .begins
    · rw [extended]
      simp only [append, opened, clear, Option.map_some]
      exact .continues opened clear

/-- Where a line is skipped, or leaves the block that was skipped, no paragraph is open. -/
theorem goes_content (exclusive : b.Exclusive) (line : Indented) : b.Goes line (b.content line) := by
  unfold content
  cases skipping : b.skipped with
  | none => exact goes_resume skipping line
  | some block =>
    have closed : b.paragraph = none := by simpa [Exclusive, skipping] using exclusive
    dsimp only
    rcases b.skip_cases block (depthAt b.items line.column) line.text with
      skipped | skipped | skipped
    · have left : ({ b with skipped := none } : BlockScanner).paragraph = none := closed
      rw [skipped]
      dsimp only
      rw [resume_of_none left]
      exact goes_begin closed line
    · rw [skipped, closed]
      exact .closes (.inl rfl)
    · rw [skipped]
      exact .hides closed

/-- A blank line ends a paragraph, and passes over what is skipped up to its end. -/
theorem goes_blank (exclusive : b.Exclusive) (line : Indented) : b.Goes line b.blank := by
  obtain ⟨items, paragraph, skipped, output⟩ := b
  unfold blank
  rw [flush_eq]
  dsimp only
  cases skipped with
  | none =>
    rw [if_neg nofun]
    exact .closes (.inr rfl)
  | some block =>
    obtain rfl : paragraph = none := by simpa [Exclusive] using exclusive
    rw [ending_of_none rfl, List.append_nil]
    split_ifs
    · exact .closes (.inl rfl)
    · exact .hides rfl

theorem goes_line (exclusive : b.Exclusive) (text : List Char) :
    b.Goes (skipIndent 0 text) (b.line text) := by
  rw [line]
  split_ifs
  · exact goes_blank exclusive _
  · exact goes_content exclusive _

/-! ## Exclusion -/

/-- Where neither is open, at most one is opened. -/
theorem exclusive_begin (items : List Nat) (output : List (List Char)) (line : Indented) :
    (begin ⟨items, none, none, output⟩ line).Exclusive := by
  have opens := opens_begin ⟨items, none, none, output⟩ line
  generalize begin _ line = next at opens ⊢
  cases opens with
  | nothing => exact .inl rfl
  | fence => exact .inl rfl
  | comment => exact .inl rfl
  | markup => exact .inl rfl
  | paragraph => exact .inr rfl

theorem Exclusive.line (exclusive : b.Exclusive) (text : List Char) : (b.line text).Exclusive := by
  have goes := goes_line exclusive text
  generalize b.line text = next at goes ⊢
  cases goes with
  | begins => exact exclusive_begin _ _ _
  | closes => exact .inl rfl
  | hides => exact exclusive
  | continues => exact .inr rfl

theorem Exclusive.after (exclusive : b.Exclusive) (rows : List (List Char)) :
    (b.after rows).Exclusive := by
  induction rows generalizing b with
  | nil => exact exclusive
  | cons text rows ih => exact ih (exclusive.line text)

/-- After any lines a paragraph or a block that is skipped is open, not both. -/
theorem exclusive_after (rows : List (List Char)) : (start.after rows).Exclusive :=
  Exclusive.after (.inl rfl) rows

end BoardRules.Note.BlockScanner
