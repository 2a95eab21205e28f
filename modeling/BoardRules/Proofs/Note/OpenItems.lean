import BoardRules.Proofs.Note.Separators

/-!
# Open items between two lines

Which items a line belongs to is found from the outermost item inwards, and the search is over at the
first item whose content the line does not reach. It misses none that the line reaches: between two
lines the contents of the open items stand further and further to the right (`nested_after`). For items
are opened one inside the other by the markers of one line, and a line that begins anew keeps only the
items that it reaches. A paragraph keeps the items that were open when it began, and a fence those that
it stands in.
-/
namespace BoardRules.Note

open Text

variable {b : BlockScanner}

/-! ## Items that a line opens -/

/-- What follows a marker belongs to its item, if there is anything. -/
theorem contentColumn_le {m : Marker} (filled : ¬m.content.text.isEmpty = true) :
    m.contentColumn ≤ m.content.column := by
  unfold Marker.contentColumn
  split
  · next far =>
    rw [Bool.or_eq_true, or_iff_right filled, decide_eq_true_eq] at far
    omega
  · exact Nat.le_refl _

theorem pairwise_append_singleton {items : List Nat} {column : Nat} (nested : items.Pairwise (· < ·))
    (inside : ∀ outer ∈ items, outer < column) : (items ++ [column]).Pairwise (· < ·) := by
  refine List.pairwise_append.mpr ⟨nested, List.pairwise_singleton _ _, ?_⟩
  intro outer member inner last
  rw [List.mem_singleton.mp last]
  exact inside outer member

/-- A line that reaches all open items opens its own items inside them. -/
theorem pairwise_openItems {items : List Nat} {line : Indented} (nested : items.Pairwise (· < ·))
    (reached : ∀ column ∈ items, column ≤ line.column) :
    (openItems items line).1.Pairwise (· < ·) := by
  fun_induction openItems items line with
  | case1 items line => exact nested
  | case2 items line => exact nested
  | case3 items line _ m found _ =>
    have right := column_lt_contentColumn found
    refine pairwise_append_singleton nested fun outer member => ?_
    exact Nat.lt_of_le_of_lt (reached outer member) right
  | case4 items line _ m found filled ih =>
    have right := column_lt_contentColumn found
    have below := contentColumn_le filled
    have inside : ∀ outer ∈ items, outer < m.contentColumn := fun outer member =>
      Nat.lt_of_le_of_lt (reached outer member) right
    refine ih (pairwise_append_singleton nested inside) (List.forall_mem_append.mpr ⟨?_, ?_⟩)
    · exact fun outer member => Nat.le_trans (Nat.le_of_lt (inside outer member)) below
    · simpa using below

/-- Without a marker no item is opened. -/
theorem openItems_of_marker?_eq_none {line : Indented} (none : marker? line = none) (items : List Nat) :
    (openItems items line).1 = items := by
  rw [openItems.eq_1]
  split
  · rfl
  · split
    · rfl
    · next m found => cases none.symm.trans found

/-- A line reaches all items that are counted as reached. -/
theorem reached_of_mem_take {items : List Nat} {column outer : Nat}
    (member : outer ∈ items.take (depthAt items column)) : outer ≤ column := by
  have taken : items.takeWhile (· ≤ column) = items.take (depthAt items column) :=
    List.prefix_iff_eq_take.mp (List.takeWhile_prefix _)
  rw [← taken] at member
  simpa using List.mem_takeWhile_imp member

/-- If the contents stand further and further to the right, all items that a line reaches are counted. -/
theorem depthAt_eq_countP {items : List Nat} (nested : items.Pairwise (· < ·)) (column : Nat) :
    depthAt items column = items.countP (· ≤ column) := by
  unfold depthAt
  induction nested with
  | nil => rfl
  | @cons outer items inside _ ih =>
    by_cases reached : outer ≤ column
    · simp [reached, ih]
    · have none : items.countP (· ≤ column) = 0 := by
        refine List.countP_eq_zero.mpr fun inner member => ?_
        have right := inside inner member
        simp only [decide_eq_true_eq]
        omega
      simp [reached, none]

/-- What a line opens inside items that it reaches stands right of them, right of column zero. -/
theorem inset_openItems {items : List Nat} (inset : ∀ column ∈ items, 0 < column) (line : Indented) :
    ∀ column ∈ (openItems items line).1, 0 < column := by
  obtain ⟨more, extends_, inside⟩ := openItems_extends items line
  rw [extends_]
  exact List.forall_mem_append.mpr ⟨inset, inside⟩

namespace BlockScanner

/-! ## What holds between two lines -/

structure Sound (b : BlockScanner) : Prop where
  nested : b.items.Pairwise (· < ·)
  inset : ∀ column ∈ b.items, 0 < column
  exclusive : b.Exclusive
  /-- A paragraph has a line, and is in an item if any is open. -/
  paragraph : ∀ paragraph, b.paragraph = some paragraph →
    paragraph.lines ≠ [] ∧ paragraph.inItem = !b.items.isEmpty
  /-- A fence stands in all items that are open. -/
  fence : ∀ mark length depth, b.skipped = some (.fence mark length depth) → depth = b.items.length

theorem sound_start : start.Sound := ⟨.nil, nofun, .inl rfl, nofun, nofun⟩

/-- A line that begins anew inside items that it reaches. -/
theorem sound_begin {items : List Nat} {line : Indented} (output : List (List Char))
    (nested : items.Pairwise (· < ·)) (inset : ∀ column ∈ items, 0 < column)
    (reached : ∀ column ∈ items, column ≤ line.column) :
    (begin ⟨items, none, none, output⟩ line).Sound := by
  have opens := opens_begin ⟨items, none, none, output⟩ line
  have deeper := pairwise_openItems nested reached
  have right := inset_openItems inset line
  generalize begin _ line = next at opens ⊢
  cases opens with
  | nothing => exact ⟨deeper, right, .inl rfl, nofun, nofun⟩
  | fence mark length =>
    refine ⟨deeper, right, .inl rfl, nofun, ?_⟩
    rintro _ _ _ ⟨⟩
    rfl
  | comment => exact ⟨deeper, right, .inl rfl, nofun, nofun⟩
  | markup => exact ⟨deeper, right, .inl rfl, nofun, nofun⟩
  | paragraph text =>
    refine ⟨deeper, right, .inr rfl, ?_, nofun⟩
    rintro _ ⟨⟩
    exact ⟨List.cons_ne_nil _ _, rfl⟩

theorem Sound.line (sound : b.Sound) (text : List Char) : (b.line text).Sound := by
  have goes := goes_line sound.exclusive text
  generalize b.line text = next at goes ⊢
  cases goes with
  | begins =>
    refine sound_begin _ (sound.nested.sublist (List.take_sublist _ _)) ?_ fun _ => reached_of_mem_take
    exact fun column member => sound.inset column (List.mem_of_mem_take member)
  | closes => exact ⟨sound.nested, sound.inset, .inl rfl, nofun, nofun⟩
  | hides => exact sound
  | continues opened =>
    refine ⟨sound.nested, sound.inset, .inr rfl, ?_, nofun⟩
    rintro _ ⟨⟩
    exact ⟨by simp, (sound.paragraph _ opened).2⟩

theorem Sound.after (sound : b.Sound) (rows : List (List Char)) : (b.after rows).Sound := by
  induction rows generalizing b with
  | nil => exact sound
  | cons text rows ih => exact ih (sound.line text)

/-! ## Where a paragraph began -/

/-- One of the rows began the paragraph, in an item if any was open then, and all rows below went on
with it. -/
def Began (rows : List (List Char)) (paragraph : Paragraph) : Prop :=
  ∃ above first below text, rows = above ++ first :: below ∧
    (start.after (above ++ [first])).paragraph = some ⟨[text], paragraph.inItem⟩ ∧
    (paragraph.inItem = true ↔ (start.after (above ++ [first])).items ≠ []) ∧
    paragraph.lines = text :: below.map fun row => trimEnd (skipIndent 0 row).text

theorem after_append_singleton (b : BlockScanner) (rows : List (List Char)) (row : List Char) :
    b.after (rows ++ [row]) = (b.after rows).line row := List.foldl_concat _ _ _ _

/-- A paragraph begins with one line, and in an item if any is open then. -/
theorem paragraph_begin {items : List Nat} {output : List (List Char)} {line : Indented}
    {paragraph : Paragraph}
    (opened : (begin ⟨items, none, none, output⟩ line).paragraph = some paragraph) :
    ∃ text, paragraph.lines = [text] ∧
      paragraph.inItem = !(begin ⟨items, none, none, output⟩ line).items.isEmpty := by
  have opens := opens_begin ⟨items, none, none, output⟩ line
  generalize begin _ line = next at opens opened ⊢
  cases opens with
  | nothing => cases opened
  | fence => cases opened
  | comment => cases opened
  | markup => cases opened
  | paragraph text =>
    cases opened
    exact ⟨text, rfl, rfl⟩

/-- By induction from the last row: it has begun the paragraph, or went on with it. -/
theorem began_of_paragraph {rows : List (List Char)} {paragraph : Paragraph}
    (opened : (start.after rows).paragraph = some paragraph) : Began rows paragraph := by
  induction rows using List.reverseRecOn generalizing paragraph with
  | nil => cases opened
  | append_singleton rows row ih =>
    have goes := goes_line (exclusive_after rows) row
    rw [← after_append_singleton] at goes
    generalize here : start.after (rows ++ [row]) = next at goes opened
    cases goes with
    | begins =>
      obtain ⟨text, alone, kind⟩ := paragraph_begin opened
      refine ⟨rows, row, [], text, rfl, ?_, ?_, alone⟩
      · rw [here, opened, ← alone]
      · rw [here, kind]
        simp
    | closes => cases opened
    | hides closed => cases closed.symm.trans opened
    | continues before =>
      obtain ⟨above, first, below, text, rfl, begun, kind, lines⟩ := ih before
      cases opened
      exact ⟨above, first, below ++ [row], text, by simp, begun, kind, by simp [lines]⟩

end BlockScanner

/-! ## Notes without markers -/

/-- The line begins, after spaces and tabs, as an item begins. -/
def Marked (row : List Char) : Prop :=
  ∃ c ∈ (row.dropWhile isIndent).head?, c ∈ ['-', '+', '*'] ∨ c.isDigit = true

instance : DecidablePred Marked := fun row =>
  decidable_of_iff
    ((row.dropWhile isIndent).head?.any fun c => ['-', '+', '*'].contains c || c.isDigit) (by
      simp [Marked, Option.any_eq_true])

theorem text_skipIndent_eq (column : Nat) (row : List Char) :
    (skipIndent column row).text = row.dropWhile isIndent := by
  fun_induction skipIndent column row with
  | case1 column rest ih => exact ih
  | case2 column rest ih => exact ih
  | case3 column text noSpace noTab =>
    cases text with
    | nil => rfl
    | cons c rest =>
      have visible : isIndent c = false := by
        refine Bool.eq_false_iff.mpr fun indent => ?_
        rcases isIndent_cases indent with rfl | rfl
        · exact noSpace rest rfl
        · exact noTab rest rfl
      simp [visible]

theorem marker?_of_not_marked {row : List Char} (unmarked : ¬Marked row) (column : Nat) :
    marker? (skipIndent column row) = none := by
  unfold marker?
  rw [text_skipIndent_eq]
  unfold Marked at unmarked
  cases text : row.dropWhile isIndent with
  | nil => rfl
  | cons c rest =>
    rw [text] at unmarked
    have other : c ∉ ['-', '+', '*'] ∧ ¬c.isDigit = true :=
      not_or.mp fun either => unmarked ⟨c, rfl, either⟩
    have noBullet : isBullet c = false := by
      simpa [isBullet, and_assoc] using other.1
    simp [markerHead?, noBullet, other.2]

namespace BlockScanner

/-- Outside all items no paragraph is handed out. -/
theorem Sound.ending_eq_nil (sound : b.Sound) (outside : b.items = []) : b.ending = [] := by
  unfold ending
  cases opened : b.paragraph with
  | none => rfl
  | some paragraph =>
    have kind := (sound.paragraph paragraph opened).2
    rw [outside] at kind
    simp [kind]

/-- A line without a marker opens no item, and outside all items it ends no paragraph of one. -/
theorem Sound.line_of_not_marked (sound : b.Sound) (outside : b.items = []) {row : List Char}
    (unmarked : ¬Marked row) : (b.line row).items = [] ∧ (b.line row).output = b.output := by
  have nothing := sound.ending_eq_nil outside
  have goes := goes_line sound.exclusive row
  generalize b.line row = next at goes ⊢
  cases goes with
  | begins =>
    have opens := opens_begin
      ⟨b.items.take (depthAt b.items (skipIndent 0 row).column), none, none, b.output ++ b.ending⟩
      (skipIndent 0 row)
    rw [openItems_of_marker?_eq_none (marker?_of_not_marked unmarked 0)] at opens
    generalize begin _ (skipIndent 0 row) = next at opens ⊢
    cases opens <;> simp [outside, nothing]
  | closes out => simpa [outside, nothing] using out
  | hides => exact ⟨outside, rfl⟩
  | continues => exact ⟨outside, rfl⟩

theorem Sound.finish_of_not_marked (sound : b.Sound) (outside : b.items = [])
    {rows : List (List Char)} (unmarked : ∀ row ∈ rows, ¬Marked row) :
    (b.after rows).finish = b.output := by
  induction rows generalizing b with
  | nil =>
    have all : (b.after []).finish = b.output ++ b.ending := finish_eq b
    rw [all, sound.ending_eq_nil outside, List.append_nil]
  | cons row rows ih =>
    obtain ⟨first, others⟩ := List.forall_mem_cons.mp unmarked
    obtain ⟨still, same⟩ := sound.line_of_not_marked outside first
    exact (ih (sound.line row) still others).trans same

end BlockScanner

/-- Between any two lines the contents of the open items stand further and further to the right, right
of column zero. A paragraph or a block that is skipped can be open, not both. A paragraph has the lines
from the one that began it on, and is in an item exactly if one was open when it began; a fence stands
in no more items than are open. So a line reaches as many items as are counted from the outermost one
on. A note in which no line begins as an item does holds no paragraph of an item and declares no rule. -/
theorem nested_after :
    (∀ rows : List (List Char),
      let b := BlockScanner.start.after rows
      (b.items.Pairwise (· < ·) ∧ ∀ column ∈ b.items, 0 < column) ∧
      (b.paragraph = none ∨ b.skipped = none) ∧
      (∀ paragraph, b.paragraph = some paragraph →
        paragraph.lines ≠ [] ∧ BlockScanner.Began rows paragraph) ∧
      (∀ mark length depth, b.skipped = some (.fence mark length depth) → depth ≤ b.items.length) ∧
      ∀ column, depthAt b.items column = b.items.countP (· ≤ column)) ∧
    ∀ note : String, (∀ row ∈ lines note.toList, ¬Marked row) →
      itemParagraphs note.toList = [] ∧ Note.rules note = [] := by
  refine ⟨?_, ?_⟩
  · intro rows b
    have sound : b.Sound := BlockScanner.sound_start.after rows
    refine ⟨⟨sound.nested, sound.inset⟩, sound.exclusive, ?_, ?_, depthAt_eq_countP sound.nested⟩
    · intro paragraph opened
      exact ⟨(sound.paragraph paragraph opened).1, BlockScanner.began_of_paragraph opened⟩
    · intro mark length depth opened
      exact Nat.le_of_eq (sound.fence mark length depth opened)
  · intro note unmarked
    have none : itemParagraphs note.toList = [] :=
      BlockScanner.sound_start.finish_of_not_marked rfl unmarked
    exact ⟨none, by rw [Note.rules, none]; rfl⟩

/-- A paragraph in an item of an item, with a lazy line, and below it a fence in an item of its own,
which ends the paragraph. A note of text alone declares nothing, whatever its markup. -/
theorem nested_after_lazy :
    let lazy := ["- 7. `rule`".toList, "lazy".toList]
    let paragraph : Paragraph := ⟨["`rule`".toList, "lazy".toList], true⟩
    (BlockScanner.start.after lazy = ⟨[2, 5], some paragraph, none, []⟩ ∧
      BlockScanner.Began lazy paragraph) ∧
    (BlockScanner.start.after (lazy ++ ["  * ~~~".toList]) =
        ⟨[2, 4], none, some (.fence '~' 3 2), ["`rule`\nlazy".toList]⟩ ∧ 2 ≤ [2, 4].length) ∧
    Note.rules "`rule` **bug**\n  _- x_\n" = [] := by
  intro lazy paragraph
  have opened : BlockScanner.start.after lazy = ⟨[2, 5], some paragraph, none, []⟩ := by
    decide +kernel
  have fence : BlockScanner.start.after (lazy ++ ["  * ~~~".toList]) =
      ⟨[2, 4], none, some (.fence '~' 3 2), ["`rule`\nlazy".toList]⟩ := by
    decide +kernel
  refine ⟨⟨opened, ?_⟩, ⟨fence, ?_⟩, ?_⟩
  · exact ((nested_after.1 lazy).2.2.1 _ (congrArg BlockScanner.paragraph opened)).2
  · have deep := (nested_after.1 _).2.2.2.1 _ _ _ (congrArg BlockScanner.skipped fence)
    rwa [fence] at deep
  · exact (nested_after.2 _ (by decide +kernel)).2

end BoardRules.Note
