import BoardRules.Proofs.Note.InlineReading
import BoardRules.Proofs.Note.OneBlock

/-!
# Reading undoes writing

A note that was written for nested rules is read back as exactly these rules (`rules_write`). Its
lines are separated whatever the line ending, and each line ends the paragraph above it and opens
the paragraph of its own rule, however deep the rule stands.
-/
namespace BoardRules.Note

open Text

/-! ## Lines -/

theorem LineEnding.text_cases (ending : LineEnding) :
    ending.text = ['\n'] ∨ ending.text = ['\r', '\n'] := by
  cases ending
  · exact Or.inl rfl
  · exact Or.inr rfl

/-- A row with its line ending is read as the row. -/
theorem lines_append (ending : LineEnding) (row rest : List Char) (oneLine : '\n' ∉ row)
    (noReturn : row.getLast? ≠ some '\r') :
    lines (row ++ (ending.text ++ rest)) = row :: lines rest := by
  have clean : ∀ c ∈ row, (c == '\n') = false := by
    intro c member
    exact beq_eq_false_iff_ne.mpr (ne_of_mem_of_not_mem member oneLine)
  obtain ⟨piece, pieces_rest, cut⟩ := List.exists_cons_of_ne_nil (pieces_ne_nil (· == '\n') rest)
  rcases ending.text_cases with lineFeed | both
  · have ended : endedLine row = row := if_neg noReturn
    rw [lineFeed, lines, List.singleton_append, pieces_append_cons (by rfl) _ _ clean, lines, cut,
      linesOfPieces, ended]
    exact List.cons_ne_nil _ _
  · have clean_return : ∀ c ∈ row ++ ['\r'], (c == '\n') = false := by
      intro c member
      rcases List.mem_append.mp member with inside | final
      · exact clean c inside
      · rw [List.mem_singleton.mp final]
        decide
    have ended : endedLine (row ++ ['\r']) = row := by simp [endedLine]
    have spread : row ++ (['\r', '\n'] ++ rest) = (row ++ ['\r']) ++ '\n' :: rest := by simp
    rw [both, spread, lines, pieces_append_cons (by rfl) _ _ clean_return, lines, cut,
      linesOfPieces, ended]
    exact List.cons_ne_nil _ _

/-- Rows that are not empty and hold neither a line feed nor a carriage return at their end are
read back from the text that they are joined to. -/
theorem lines_intercalate (ending : LineEnding) (rows : List (List Char))
    (nonempty : ∀ row ∈ rows, row ≠ []) (oneLine : ∀ row ∈ rows, '\n' ∉ row)
    (noReturn : ∀ row ∈ rows, row.getLast? ≠ some '\r') :
    lines (ending.text.intercalate rows) = rows := by
  induction rows with
  | nil => rfl
  | cons row rows ih =>
    cases rows with
    | nil =>
      have clean : ∀ c ∈ row, (c == '\n') = false := fun c member =>
        beq_eq_false_iff_ne.mpr (ne_of_mem_of_not_mem member (oneLine row List.mem_cons_self))
      have filled : row.isEmpty = false := by simpa using nonempty row List.mem_cons_self
      simp [List.intercalate, lines, pieces_eq_singleton row clean, linesOfPieces, filled]
    | cons next rows =>
      have tail := ih (fun r m => nonempty r (List.mem_cons_of_mem row m))
        (fun r m => oneLine r (List.mem_cons_of_mem row m))
        (fun r m => noReturn r (List.mem_cons_of_mem row m))
      have joined : ending.text.intercalate (row :: next :: rows) =
          row ++ (ending.text ++ ending.text.intercalate (next :: rows)) := by
        simp [List.intercalate]
      rw [joined, lines_append ending _ _ (oneLine row List.mem_cons_self)
        (noReturn row List.mem_cons_self), tail]

/-! ## The shape of a written line -/

theorem not_mem_escape (text : List Char) (oneLine : '\n' ∉ text) : '\n' ∉ escape text := by
  intro member
  obtain ⟨c, inside, final⟩ := List.mem_flatMap.mp member
  cases punctuation : isAsciiPunctuation c with
  | true =>
    have cases : '\n' = '\\' ∨ '\n' = c := by simpa [punctuation] using final
    rcases cases with backslash | same
    · exact absurd backslash (by decide)
    · exact oneLine (same ▸ inside)
  | false =>
    have same : '\n' = c := by simpa [punctuation] using final
    exact oneLine (same ▸ inside)

theorem not_mem_written (argument : WrittenArgument) : '\n' ∉ argument.written := by
  have marks : '\n' ∉ argument.marks.text := by cases argument.marks <;> decide
  have text := not_mem_escape _ argument.oneLine
  simp [WrittenArgument.written, marks, text]

theorem not_mem_codeSpan (name : List Char) (oneLine : '\n' ∉ name) : '\n' ∉ codeSpan name := by
  have fence : '\n' ∉ codeFence name := by
    intro member
    exact absurd (List.eq_of_mem_replicate member) (by decide)
  have content : '\n' ∉ codeContent name := by
    rcases codeContent_cases name with ⟨_, same⟩ | ⟨_, padded⟩
    · rw [same]
      exact oneLine
    · rw [padded]
      simp [oneLine]
  simp [codeSpan, fence, content]

namespace WrittenRule

theorem not_mem_content (rule : WrittenRule) : '\n' ∉ rule.content := by
  intro member
  rcases List.mem_append.mp member with span | arguments
  · exact not_mem_codeSpan _ rule.oneLine span
  · obtain ⟨argument, _, inside⟩ := List.mem_flatMap.mp arguments
    exact not_mem_written argument inside

/-- A rule ends in the fence of its name or in the marks of its last argument. -/
theorem getLast?_content (rule : WrittenRule) :
    ∃ c, rule.content.getLast? = some c ∧ isBlank c = false := by
  unfold content
  rcases List.eq_nil_or_concat rule.arguments with bare | ⟨arguments, argument, ended⟩
  · refine ⟨backtick, ?_, by decide⟩
    rw [bare, List.flatMap_nil, List.append_nil, codeSpan, codeFence, List.replicate_succ',
      ← List.append_assoc, ← List.append_assoc, List.getLast?_concat]
  · refine ⟨argument.marks.mark, ?_, by cases argument.marks <;> decide⟩
    have marks : argument.marks.text =
        List.replicate (argument.marks.count - 1) argument.marks.mark ++ [argument.marks.mark] := by
      cases argument.marks <;> rfl
    rw [ended, List.concat_eq_append, List.flatMap_append, List.flatMap_singleton,
      WrittenArgument.written, marks]
    simp only [← List.append_assoc, ← List.cons_append, List.getLast?_concat]

theorem content_eq_cons (rule : WrittenRule) : ∃ rest, rule.content = backtick :: rest :=
  ⟨_, codeSpan_append _ _⟩

theorem trimEnd_content (rule : WrittenRule) (before : List Char) :
    trimEnd (before ++ rule.content) = before ++ rule.content := by
  obtain ⟨c, last, visible⟩ := rule.getLast?_content
  obtain ⟨initial, split⟩ := List.getLast?_eq_some_iff.mp last
  rw [split, ← List.append_assoc]
  simp [trimEnd, dropEndWhile, visible]

theorem getLast?_line (rule : WrittenRule) : rule.line.getLast? ≠ some '\r' := by
  obtain ⟨c, last, visible⟩ := rule.getLast?_content
  obtain ⟨rest, opened⟩ := rule.content_eq_cons
  have nonempty : rule.content ≠ [] := by simp [opened]
  rw [line, List.getLast?_append_of_ne_nil _ (by simp), List.getLast?_cons_cons,
    List.getLast?_cons_of_ne_nil nonempty, last]
  intro same
  rw [Option.some.inj same] at visible
  exact absurd visible (by decide)

theorem lines_write (ending : LineEnding) (rules : List WrittenRule) :
    lines (ending.text.intercalate (rules.map line)) = rules.map line := by
  refine lines_intercalate ending _ ?_ ?_ ?_
  · intro row member
    obtain ⟨rule, _, rfl⟩ := List.mem_map.mp member
    simp [line]
  · intro row member
    obtain ⟨rule, _, rfl⟩ := List.mem_map.mp member
    simp [line, rule.not_mem_content]
  · intro row member
    obtain ⟨rule, _, rfl⟩ := List.mem_map.mp member
    exact rule.getLast?_line

/-! ## Blocks -/

/-- The fence of the name is no code fence, as it is closed on the same line. -/
theorem fence?_content (rule : WrittenRule) : fence? rule.content = none := by
  have closed : (afterRun backtick (List.replicate (longestRun backtick rule.name.toList) backtick ++
      (codeContent rule.name.toList ++ (codeFence rule.name.toList ++
        rule.arguments.flatMap WrittenArgument.written)))).contains backtick = true := by
    rw [afterRun_replicate _ _ _ (by rw [head?_codeContent _ _ rule.nonempty]; decide)]
    simp [codeFence]
  rw [content, codeSpan_append, fence?]
  rw [afterRun] at closed
  simp only [closed]
  simp [backtick]

theorem marker?_content (rule : WrittenRule) (column : Nat) :
    marker? ⟨column, rule.content⟩ = none := by
  obtain ⟨rest, opened⟩ := rule.content_eq_cons
  rw [opened]
  rfl

theorem isThematicBreak_content (rule : WrittenRule) : isThematicBreak rule.content = false := by
  obtain ⟨rest, opened⟩ := rule.content_eq_cons
  rw [opened]
  rfl

theorem openBlock_content (rule : WrittenRule) (items : List Nat) :
    openBlock items rule.content = .paragraph [rule.content] (!items.isEmpty) := by
  have trimmed := rule.trimEnd_content []
  obtain ⟨rest, opened⟩ := rule.content_eq_cons
  have no_heading : isHeading rule.content = false := by rw [opened]; rfl
  have no_quotation : isQuotation rule.content = false := by rw [opened]; rfl
  have no_comment : comment? rule.content = none := by rw [opened]; rfl
  have no_markup : opensMarkup rule.content = false := by rw [opened]; rfl
  rw [List.nil_append] at trimmed
  simp [openBlock, rule.fence?_content, no_heading, no_quotation, no_comment, no_markup, trimmed]

end WrittenRule

/-- The content columns of the items that are open inside an item of the given depth. -/
def itemColumns (depth : Nat) : List Nat := (List.range depth).map fun outer => 2 * (outer + 1)

theorem itemColumns_succ (depth : Nat) :
    itemColumns (depth + 1) = itemColumns depth ++ [2 * (depth + 1)] := by
  simp [itemColumns, List.range_succ]

theorem length_itemColumns (depth : Nat) : (itemColumns depth).length = depth := by
  simp [itemColumns]

theorem containerColumn_itemColumns (depth : Nat) :
    containerColumn (itemColumns depth) = 2 * depth := by
  cases depth with
  | zero => rfl
  | succ depth => simp [itemColumns_succ, containerColumn]

theorem take_itemColumns (depth outer : Nat) (inside : outer ≤ depth) :
    (itemColumns depth).take outer = itemColumns outer := by
  rw [itemColumns, ← List.map_take, List.take_range, Nat.min_eq_left inside, itemColumns]

/-- A line indented for `outer` items belongs to just as many. -/
theorem depthAt_itemColumns (depth outer : Nat) (inside : outer ≤ depth) :
    depthAt (itemColumns depth) (2 * outer) = outer := by
  have reached : (itemColumns depth).takeWhile (· ≤ 2 * outer) = itemColumns outer := by
    induction depth with
    | zero =>
      obtain rfl := Nat.le_zero.mp inside
      rfl
    | succ depth ih =>
      by_cases same : outer = depth + 1
      · subst same
        refine List.takeWhile_eq_self_iff.mpr fun column member => ?_
        obtain ⟨item, below, rfl⟩ := List.mem_map.mp member
        have := List.mem_range.mp below
        exact decide_eq_true (by omega)
      · have shallower := ih (by omega)
        rw [itemColumns_succ, List.takeWhile_append, shallower]
        split
        · next whole =>
          rw [length_itemColumns, length_itemColumns] at whole
          subst whole
          simp
        · rfl
  rw [depthAt, reached, length_itemColumns]

theorem skipIndent_replicate (column width : Nat) (rest : List Char) :
    skipIndent column (List.replicate width ' ' ++ rest) = skipIndent (column + width) rest := by
  induction width generalizing column with
  | zero => rfl
  | succ width ih =>
    rw [List.replicate_succ, List.cons_append, skipIndent, ih]
    congr 1
    omega

namespace WrittenRule

/-- The rule's line without its indentation. -/
def item (rule : WrittenRule) : Indented := ⟨2 * rule.depth, '-' :: ' ' :: rule.content⟩

/-- The scanner after the rule's line: the rule's items are open and its paragraph is. -/
def scanner (rule : WrittenRule) : Scanner :=
  ⟨itemColumns (rule.depth + 1), .paragraph [rule.content] true⟩

theorem paragraphs_block (rule : WrittenRule) : rule.scanner.block.paragraphs = [rule.content] := by
  simp [scanner, Block.paragraphs, List.intercalate]

theorem skipIndent_line (rule : WrittenRule) : skipIndent 0 rule.line = rule.item := by
  rw [line, skipIndent_replicate, Nat.zero_add]
  rfl

theorem marker?_item (rule : WrittenRule) :
    marker? rule.item = some ⟨none, 2 * rule.depth + 1, ⟨2 * rule.depth + 2, rule.content⟩⟩ := by
  obtain ⟨rest, opened⟩ := rule.content_eq_cons
  have skipped : skipIndent (2 * rule.depth + 1) (' ' :: rule.content) =
      ⟨2 * rule.depth + 2, rule.content⟩ := by
    rw [opened]
    rfl
  have head : markerHead? rule.item.text = some (none, 1, ' ' :: rule.content) := rfl
  have blank : ((some ' ').map isIndent).getD true = true := by decide
  rw [marker?, head]
  change (if ((some ' ').map isIndent).getD true then
    some (Marker.mk none (2 * rule.depth + 1) (skipIndent (2 * rule.depth + 1) (' ' :: rule.content)))
    else none) = _
  rw [if_pos blank, skipped]

theorem isThematicBreak_item (rule : WrittenRule) : isThematicBreak rule.item.text = false := by
  obtain ⟨rest, opened⟩ := rule.content_eq_cons
  have marks : rule.item.text.filter (fun c => !isIndent c) =
      '-' :: backtick :: rest.filter fun c => !isIndent c := by
    rw [item, opened]
    rfl
  rw [isThematicBreak, marks]
  rfl

theorem interrupts_item (rule : WrittenRule) : interrupts rule.item = true := by
  obtain ⟨rest, opened⟩ := rule.content_eq_cons
  simp [interrupts, rule.marker?_item, opened]

theorem isUnderline_item (rule : WrittenRule) : isUnderline rule.item.text = false := by
  have text : rule.item.text = ['-', ' '] ++ rule.content := rfl
  rw [isUnderline, text, rule.trimEnd_content]
  rfl

/-- Below the items that it stands in, the line opens an item of its own and in it the paragraph. -/
theorem begin_item (rule : WrittenRule) :
    Scanner.begin (itemColumns rule.depth) rule.item = rule.scanner := by
  obtain ⟨rest, opened⟩ := rule.content_eq_cons
  have column : (Marker.mk none (2 * rule.depth + 1)
      ⟨2 * rule.depth + 2, rule.content⟩).contentColumn = 2 * (rule.depth + 1) := by
    simp [Marker.contentColumn, opened, codeIndent]
    omega
  have inner : openItems (itemColumns (rule.depth + 1)) ⟨2 * rule.depth + 2, rule.content⟩ =
      (itemColumns (rule.depth + 1), some rule.content) := by
    have aligned : ¬ codeIndent ≤ 2 * rule.depth + 2 -
        containerColumn (itemColumns (rule.depth + 1)) := by
      rw [containerColumn_itemColumns, codeIndent]
      omega
    rw [openItems.eq_1, if_neg (by simp [aligned, rule.isThematicBreak_content])]
    split
    · rfl
    · next m found => cases (rule.marker?_content _).symm.trans found
  have outer : openItems (itemColumns rule.depth) rule.item =
      (itemColumns (rule.depth + 1), some rule.content) := by
    have aligned : ¬ codeIndent ≤ rule.item.column - containerColumn (itemColumns rule.depth) := by
      have column : rule.item.column = 2 * rule.depth := rfl
      rw [containerColumn_itemColumns, codeIndent, column]
      omega
    rw [openItems.eq_1, if_neg (by simp [aligned, rule.isThematicBreak_item])]
    split
    · next missing => cases rule.marker?_item.symm.trans missing
    · next m found =>
      obtain rfl := Option.some.inj (rule.marker?_item.symm.trans found)
      rw [column, ← itemColumns_succ, if_neg (by simp [opened])]
      exact inner
  have block := rule.openBlock_content (itemColumns (rule.depth + 1))
  have items : (itemColumns (rule.depth + 1)).isEmpty = false := by simp [itemColumns_succ]
  rw [items] at block
  rw [Scanner.begin, outer]
  exact congrArg (Scanner.mk _) block

theorem line_start (rule : WrittenRule) (outermost : rule.depth = 0) :
    Scanner.start.line rule.line = ([], rule.scanner) := by
  have begun := rule.begin_item
  rw [Scanner.line, rule.skipIndent_line, if_neg (by simp [item]), Scanner.content]
  rw [outermost] at begun
  exact congrArg (Prod.mk []) begun

/-- A rule's line ends the paragraph of the rule above it. -/
theorem line_scanner (above below : WrittenRule) (nested : below.depth ≤ above.depth + 1) :
    above.scanner.line below.line = ([above.content], below.scanner) := by
  have depth : depthAt (itemColumns (above.depth + 1)) below.item.column = below.depth :=
    depthAt_itemColumns _ _ nested
  have outer : (itemColumns (above.depth + 1)).take below.depth = itemColumns below.depth :=
    take_itemColumns _ _ nested
  -- An item right inside the one above is aligned with its content, any other one is outside it.
  have aligned : (below.depth == (itemColumns (above.depth + 1)).length &&
      decide (codeIndent ≤ below.item.column - containerColumn (itemColumns (above.depth + 1)))) =
        false := by
    have column : below.item.column = 2 * below.depth := rfl
    rw [column, length_itemColumns, containerColumn_itemColumns, codeIndent]
    by_cases same : below.depth = above.depth + 1
    · simp [same]
    · simp [same]
  rw [Scanner.line, below.skipIndent_line, if_neg (by simp [item]), scanner]
  simp only [Scanner.content, depth, outer, aligned, below.isUnderline_item, below.interrupts_item,
    below.begin_item, Bool.and_false, Bool.not_false, Bool.and_self, Bool.false_eq_true, if_false,
    if_true]
  exact congrArg (fun ended => (ended, below.scanner)) above.paragraphs_block

theorem paragraphs_scanner (above : WrittenRule) (rules : List WrittenRule)
    (nested : (above :: rules).IsChain fun above below => below.depth ≤ above.depth + 1) :
    above.scanner.paragraphs (rules.map line) = above.content :: rules.map content := by
  induction rules generalizing above with
  | nil => exact above.paragraphs_block
  | cons below rules ih =>
    obtain ⟨step, rest⟩ := List.isChain_cons_cons.mp nested
    rw [List.map_cons, Scanner.paragraphs, line_scanner above below step, ih below rest,
      List.map_cons]
    rfl

theorem paragraphs_start (rules : List WrittenRule) (nested : Nested rules) :
    Scanner.start.paragraphs (rules.map line) = rules.map content := by
  cases rules with
  | nil => rfl
  | cons rule rules =>
    rw [List.map_cons, Scanner.paragraphs, rule.line_start (nested.1 rule rfl),
      paragraphs_scanner rule rules nested.2, List.map_cons]
    rfl

end WrittenRule

/-- Reading a note undoes writing it: the rules come back in order, each with its own arguments. -/
theorem rules_write (ending : LineEnding) (rules : List WrittenRule)
    (nested : WrittenRule.Nested rules) :
    Note.rules (write ending rules) = rules.map WrittenRule.declaration := by
  have read : ∀ written : List WrittenRule,
      (written.map WrittenRule.content).flatMap (fun text => declarations (Inline.ofText text)) =
        written.map WrittenRule.declaration := by
    intro written
    induction written with
    | nil => rfl
    | cons rule written ih =>
      rw [List.map_cons, List.flatMap_cons, declarations_content, ih]
      rfl
  rw [Note.rules, itemParagraphs_eq, write, String.toList_ofList, WrittenRule.lines_write,
    WrittenRule.paragraphs_start rules nested, read]

/-- Three rules, the second inside the item of the first. -/
def threeRules : List WrittenRule :=
  [⟨0, "added`label",
      [⟨"good *first* issue", .doubleStar, by decide, by decide, by rintro _ ⟨⟩; decide,
          by rintro _ ⟨⟩; decide⟩,
        ⟨"_", .lowLine, by decide, by decide, by rintro _ ⟨⟩; decide, by rintro _ ⟨⟩; decide⟩],
      by decide, by decide⟩,
    ⟨1, "  ", [], by decide, by decide⟩,
    ⟨0, "new_issue",
      [⟨"a b", .star, by decide, by decide, by rintro _ ⟨⟩; decide, by rintro _ ⟨⟩; decide⟩],
      by decide, by decide⟩]

example : write .lineFeed threeRules =
    "- `` added`label `` **good \\*first\\* issue** _\\__\n  - `  `\n- ` new_issue ` *a b*" := by
  decide

theorem rules_write_threeRules :
    WrittenRule.Nested threeRules ∧
      Note.rules (write .carriageReturnLineFeed threeRules) =
        [⟨"added`label", ["good *first* issue", "_"]⟩, ⟨"  ", []⟩, ⟨"new_issue", ["a b"]⟩] := by
  have nested : WrittenRule.Nested threeRules := ⟨by decide, by simp [threeRules]⟩
  exact ⟨nested, rules_write .carriageReturnLineFeed threeRules nested⟩

end BoardRules.Note
