import BoardRules.Proofs.Note.PlainRules
import BoardRules.Proofs.Note.Scanning

/-!
# Numbered items

Rules may be written as the items of a numbered list. The scanner lets a numbered line end the
paragraph above it only if its number is one, which is a rule for the first item of a list. So a
later item goes on with the paragraph of the item above, though it stands outside that item: its rule
is still read, but its arguments are taken for arguments of the rules above as well.
-/
namespace BoardRules.Note

open Text

namespace PlainRule

/-- Number one is the only one that begins a paragraph below another item. -/
def readBack : Nat → List PlainRule → List Declaration
  | 0, first :: rules => first.declaration :: swallowed rules
  | _, rules => swallowed rules

end PlainRule

/-- The note with one numbered line for each rule. -/
def writeNumbered (ending : LineEnding) (start : Nat) (rules : List PlainRule) : String :=
  String.ofList (ending.text.intercalate ((rules.zipIdx start).map PlainRule.item))

namespace PlainRule

/-! ## Lines -/

theorem not_mem_item (numbered : PlainRule × Nat) : '\n' ∉ item numbered := by
  intro member
  rcases List.mem_append.mp member with label | content
  · rcases List.mem_append.mp label with digit | mark
    · exact absurd (Decimal.isDigit_render digit) (by decide)
    · exact absurd mark (by decide)
  · exact numbered.1.not_mem_content content

theorem getLast?_item (numbered : PlainRule × Nat) :
    ∀ c ∈ (item numbered).getLast?, isBlank c = false := by
  obtain ⟨c, last, visible⟩ := numbered.1.getLast?_content
  have nonempty : numbered.1.content ≠ [] := by simp [content]
  rw [item, List.getLast?_append_of_ne_nil _ nonempty, last]
  rintro _ ⟨⟩
  exact visible

theorem lines_writeNumbered (ending : LineEnding) (numbered : List (PlainRule × Nat)) :
    lines (ending.text.intercalate (numbered.map item)) = numbered.map item := by
  refine lines_intercalate ending _ ?_ ?_ ?_
  · intro row member
    obtain ⟨line, _, rfl⟩ := List.mem_map.mp member
    simp [item, label]
  · intro row member
    obtain ⟨line, _, rfl⟩ := List.mem_map.mp member
    exact not_mem_item line
  · intro row member
    obtain ⟨line, _, rfl⟩ := List.mem_map.mp member
    exact fun same => absurd (getLast?_item line _ same) (by decide)

/-! ## Blocks -/

theorem item_eq_cons (numbered : PlainRule × Nat) :
    ∃ digit rest, item numbered = digit :: rest ∧ digit.isDigit = true := by
  obtain ⟨digit, digits, render⟩ : ∃ digit digits, Decimal.render numbered.2 = digit :: digits :=
    List.exists_cons_of_ne_nil Nat.toDigits_ne_nil
  have member : digit ∈ Decimal.render numbered.2 := by
    rw [render]
    exact List.mem_cons_self
  refine ⟨digit, digits ++ (['.', ' '] ++ numbered.1.content), ?_, Decimal.isDigit_render member⟩
  rw [item, label, render]
  simp only [List.cons_append, List.append_assoc]

/-- The column where the content of an item begins. -/
def contentColumn (number : Nat) : Nat := (Decimal.render number).length + 2

theorem skipIndent_item (numbered : PlainRule × Nat) :
    skipIndent 0 (item numbered) = ⟨0, item numbered⟩ := by
  obtain ⟨digit, rest, opened, isDigit⟩ := item_eq_cons numbered
  have noSpace := ne_of_isDigit isDigit (d := ' ') (by decide)
  have noTab := ne_of_isDigit isDigit (d := '\t') (by decide)
  rw [opened, skipIndent]
  · exact fun _ same => absurd (List.cons.inj same).1 noSpace
  · exact fun _ same => absurd (List.cons.inj same).1 noTab

theorem markerHead?_item (numbered : PlainRule × Nat)
    (short : numbered.2 < 10 ^ maxNumberDigits) :
    markerHead? (item numbered) =
      some (some numbered.2, (Decimal.render numbered.2).length + 1, ' ' :: numbered.1.content) := by
  have digits : ∀ c ∈ Decimal.render numbered.2, c.isDigit = true := fun c => Decimal.isDigit_render
  have few : (Decimal.render numbered.2).length ≤ maxNumberDigits :=
    (Nat.length_toDigits_le_iff (by decide) (by decide)).mpr short
  have value := Decimal.value_render numbered.2
  have spread : item numbered = Decimal.render numbered.2 ++ '.' :: ' ' :: numbered.1.content := by
    simp only [item, label, List.append_assoc, List.cons_append, List.nil_append]
  have taken : (item numbered).takeWhile Char.isDigit = Decimal.render numbered.2 := by
    rw [spread, List.takeWhile_append_of_pos digits, List.takeWhile_cons_of_neg (by decide),
      List.append_nil]
  have dropped : (item numbered).dropWhile Char.isDigit = '.' :: ' ' :: numbered.1.content := by
    rw [spread, List.dropWhile_append_of_pos digits, List.dropWhile_cons_of_neg (by decide)]
  obtain ⟨digit, rest, opened, isDigit⟩ := item_eq_cons numbered
  obtain ⟨first, others, render⟩ := List.exists_cons_of_ne_nil
    (show Decimal.render numbered.2 ≠ [] from Nat.toDigits_ne_nil)
  have noBullet : isBullet digit = false := by
    simp [isBullet, ne_of_isDigit isDigit (d := '-') (by decide),
      ne_of_isDigit isDigit (d := '+') (by decide), ne_of_isDigit isDigit (d := '*') (by decide)]
  rw [opened] at taken dropped ⊢
  rw [render] at taken few value ⊢
  simp only [markerHead?, noBullet, taken, dropped, few, value, Bool.false_eq_true, if_false,
    decide_true, beq_self_eq_true, Bool.true_or, Bool.and_self, if_true]

theorem marker?_item (numbered : PlainRule × Nat) (short : numbered.2 < 10 ^ maxNumberDigits) :
    marker? ⟨0, item numbered⟩ =
      some ⟨some numbered.2, (Decimal.render numbered.2).length + 1,
        ⟨contentColumn numbered.2, numbered.1.content⟩⟩ := by
  have skipped : skipIndent ((Decimal.render numbered.2).length + 1) (' ' :: numbered.1.content) =
      ⟨contentColumn numbered.2, numbered.1.content⟩ := rfl
  have blank : ((some ' ').map isIndent).getD true = true := by decide
  rw [marker?, markerHead?_item numbered short]
  simp only [List.head?_cons, blank, if_true, Nat.zero_add, skipped]

theorem isThematicBreak_item (numbered : PlainRule × Nat) :
    isThematicBreak (item numbered) = false := by
  obtain ⟨digit, rest, opened, isDigit⟩ := item_eq_cons numbered
  have noIndent : isIndent digit = false := by
    simp [isIndent, ne_of_isDigit isDigit (d := ' ') (by decide),
      ne_of_isDigit isDigit (d := '\t') (by decide)]
  have noMark : (digit == '-' || digit == '*' || digit == '_') = false := by
    simp [ne_of_isDigit isDigit (d := '-') (by decide),
      ne_of_isDigit isDigit (d := '*') (by decide), ne_of_isDigit isDigit (d := '_') (by decide)]
  have marks : (item numbered).filter (fun c => !isIndent c) =
      digit :: rest.filter fun c => !isIndent c := by
    rw [opened, List.filter_cons_of_pos (by simp [noIndent])]
  rw [isThematicBreak, marks]
  simp only [noMark, Bool.false_and]

/-- Nothing but the number decides whether an item ends the paragraph above it. -/
theorem interrupts_item (numbered : PlainRule × Nat)
    (short : numbered.2 < 10 ^ maxNumberDigits) :
    interrupts ⟨0, item numbered⟩ = (numbered.2 == 1) := by
  obtain ⟨digit, rest, opened, isDigit⟩ := item_eq_cons numbered
  have ne {d : Char} (other : d.isDigit = false) : digit ≠ d := ne_of_isDigit isDigit other
  have no_heading : isHeading (item numbered) = false := by
    rw [opened]
    simp [isHeading, ne (d := '#') (by decide)]
  have no_fence : fence? (item numbered) = none := by
    rw [opened]
    simp [fence?, ne (d := '\x60') (by decide), ne (d := '~') (by decide)]
  have no_comment : comment? (item numbered) = none := by
    rw [opened]
    simp [comment?, after?, commentOpening, (ne (d := '<') (by decide)).symm]
  have no_quotation : isQuotation (item numbered) = false := by
    rw [opened]
    simp [isQuotation, ne (d := '>') (by decide)]
  have filled : numbered.1.content.isEmpty = false := rfl
  simp [interrupts, isThematicBreak_item, no_heading, no_fence, no_comment, no_quotation,
    marker?_item numbered short, filled]

/-- The scanner after an item's line: its paragraph is open. -/
def scanner (numbered : PlainRule × Nat) : Scanner :=
  ⟨[contentColumn numbered.2], .paragraph [numbered.1.content] true⟩

theorem content_eq_cons (rule : PlainRule) : ∃ rest, rule.content = backtick :: rest := ⟨_, rfl⟩

theorem openBlock_content (rule : PlainRule) (items : List Nat) :
    openBlock items rule.content = .paragraph [rule.content] (!items.isEmpty) := by
  obtain ⟨first, name, split⟩ := List.exists_cons_of_ne_nil rule.nonempty
  have single : first ≠ backtick := by
    intro same
    have member : first ∈ rule.name.toList := by rw [split]; exact List.mem_cons_self
    exact rule.noBacktick (same ▸ member)
  have trimmed := trimEnd_eq_self rule.content (by
    obtain ⟨c, last, visible⟩ := rule.getLast?_content
    rw [last]
    rintro _ ⟨⟩
    exact visible)
  rw [content, split, List.cons_append] at trimmed ⊢
  rw [openBlock_backtick items _ single, trimmed]

theorem begin_item (numbered : PlainRule × Nat) (short : numbered.2 < 10 ^ maxNumberDigits) :
    Scanner.begin [] ⟨0, item numbered⟩ = scanner numbered := by
  obtain ⟨rest, opened⟩ := numbered.1.content_eq_cons
  have noBreak : isThematicBreak numbered.1.content = false := by rw [opened]; rfl
  have noMarker : marker? ⟨contentColumn numbered.2, numbered.1.content⟩ = none := by
    rw [opened]
    rfl
  have filled : numbered.1.content.isEmpty = false := rfl
  have column : Marker.contentColumn ⟨some numbered.2, (Decimal.render numbered.2).length + 1,
      ⟨contentColumn numbered.2, numbered.1.content⟩⟩ = contentColumn numbered.2 := by
    simp [Marker.contentColumn, filled, contentColumn, codeIndent]
  have inner : openItems [contentColumn numbered.2]
      ⟨contentColumn numbered.2, numbered.1.content⟩ =
        ([contentColumn numbered.2], some numbered.1.content) := by
    have aligned : ¬ codeIndent ≤ contentColumn numbered.2 -
        containerColumn [contentColumn numbered.2] := by
      simp [containerColumn, codeIndent]
    rw [openItems.eq_1, if_neg (by simp [aligned, noBreak])]
    split
    · rfl
    · next m found => cases noMarker.symm.trans found
  have outer : openItems [] ⟨0, item numbered⟩ =
      ([contentColumn numbered.2], some numbered.1.content) := by
    rw [openItems.eq_1, if_neg (by simp [isThematicBreak_item, codeIndent])]
    split
    · next missing => cases (marker?_item numbered short).symm.trans missing
    · next m found =>
      obtain rfl := Option.some.inj ((marker?_item numbered short).symm.trans found)
      rw [column, if_neg (by simp [filled])]
      exact inner
  rw [Scanner.begin, outer]
  exact congrArg (Scanner.mk _) (numbered.1.openBlock_content [contentColumn numbered.2])

theorem line_start (numbered : PlainRule × Nat) (short : numbered.2 < 10 ^ maxNumberDigits) :
    Scanner.start.line (item numbered) = ([], scanner numbered) := by
  have begun := begin_item numbered short
  have filled : (item numbered).isEmpty = false := by simp [item, label]
  rw [Scanner.line, skipIndent_item, if_neg (by simp [filled]), Scanner.content]
  exact congrArg (Prod.mk []) begun

/-- What a numbered line does to the paragraph of the item above: it stands outside that item, so
its number alone counts. -/
theorem line_below (numbered : PlainRule × Nat) (short : numbered.2 < 10 ^ maxNumberDigits)
    {column : Nat} (inside : 0 < column) (lines : List (List Char)) :
    Scanner.line ⟨[column], .paragraph lines true⟩ (item numbered) =
      if numbered.2 = 1 then ([['\n'].intercalate lines], scanner numbered)
      else ([], ⟨[column], .paragraph (lines ++ [item numbered]) true⟩) := by
  have filled : (item numbered).isEmpty = false := by simp [item, label]
  have outside : depthAt [column] 0 = 0 := by
    have right : column ≠ 0 := by omega
    simp [depthAt, right]
  have trimmed := trimEnd_eq_self (item numbered) (getLast?_item numbered)
  have interrupts := interrupts_item numbered short
  rw [Scanner.line, skipIndent_item, if_neg (by simp [filled])]
  by_cases one : numbered.2 = 1
  · have begun := begin_item numbered short
    simp [Scanner.content, outside, interrupts, one, begun, Block.paragraphs]
  · simp [Scanner.content, outside, interrupts, one, trimmed]

theorem intercalate_cons (row : List Char) (numbered : List (PlainRule × Nat)) :
    ['\n'].intercalate (row :: numbered.map item) = row ++ nextLines numbered := by
  induction numbered generalizing row with
  | nil => simp [nextLines, List.intercalate]
  | cons line numbered ih =>
    have joined : ['\n'].intercalate (row :: item line :: numbered.map item) =
        row ++ '\n' :: ['\n'].intercalate (item line :: numbered.map item) := by
      simp [List.intercalate]
    rw [List.map_cons, joined, ih]
    rfl

/-- From number two on no line ends the paragraph. -/
theorem paragraphs_others (rules : List PlainRule) (start : Nat) (others : 2 ≤ start)
    (short : start + rules.length ≤ 10 ^ maxNumberDigits) {column : Nat} (inside : 0 < column)
    (lines : List (List Char)) :
    Scanner.paragraphs ⟨[column], .paragraph lines true⟩ ((rules.zipIdx start).map item) =
      [['\n'].intercalate (lines ++ (rules.zipIdx start).map item)] := by
  induction rules generalizing start lines with
  | nil => simp [Scanner.paragraphs, Block.paragraphs]
  | cons rule rules ih =>
    rw [List.length_cons] at short
    have below := line_below (rule, start) (by show start < _; omega) inside lines
    rw [if_neg (by show start ≠ 1; omega)] at below
    rw [List.zipIdx_cons, List.map_cons, Scanner.paragraphs, below,
      ih (start + 1) (by omega) (by omega), List.append_assoc]
    rfl

theorem paragraphs_scanner (rule : PlainRule) (number : Nat) (rules : List PlainRule)
    (positive : 0 < number) (short : number + (rules.length + 1) ≤ 10 ^ maxNumberDigits) :
    Scanner.paragraphs (scanner (rule, number)) ((rules.zipIdx (number + 1)).map item) =
      [rule.content ++ nextLines (rules.zipIdx (number + 1))] := by
  rw [scanner, paragraphs_others rules (number + 1) (by omega) (by omega) (by simp [contentColumn]),
    List.singleton_append, intercalate_cons]

theorem declarations_content (rule : PlainRule) :
    declarations (Inline.ofText rule.content) = [rule.declaration] := by
  have alone := rule.declarations_paragraph []
  rw [nextLines, List.flatMap_nil, List.append_nil] at alone
  rw [alone]
  simp [swallowed, declaration]

theorem declarations_start (start : Nat) (rules : List PlainRule)
    (short : start + rules.length ≤ 10 ^ maxNumberDigits) :
    (Scanner.start.paragraphs ((rules.zipIdx start).map item)).flatMap
      (fun text => declarations (Inline.ofText text)) = readBack start rules := by
  have merged : ∀ (rule : PlainRule) (number : Nat) (below : List PlainRule),
      declarations (Inline.ofText (rule.content ++ nextLines (below.zipIdx number))) =
        swallowed (rule :: below) := by
    intro rule number below
    rw [declarations_paragraph, List.zipIdx_map_fst]
  cases rules with
  | nil => cases start <;> rfl
  | cons first rules =>
    rw [List.length_cons] at short
    have begun := line_start (first, start) (by show start < _; omega)
    rw [List.zipIdx_cons, List.map_cons, Scanner.paragraphs, begun, List.nil_append]
    cases start with
    | succ start =>
      rw [paragraphs_scanner first (start + 1) rules (by omega) (by omega), List.flatMap_singleton,
        merged]
      rfl
    | zero =>
      have alone := first.declarations_content
      cases rules with
      | nil =>
        rw [List.zipIdx_nil, List.map_nil, Scanner.paragraphs, scanner, Block.paragraphs,
          List.intercalate_singleton, List.flatMap_singleton, alone]
        rfl
      | cons second rules =>
        have ended := line_below (second, 1) (by show 1 < _; decide)
          (show 0 < contentColumn 0 by simp [contentColumn]) [first.content]
        rw [if_pos rfl, List.intercalate_singleton] at ended
        rw [List.length_cons] at short
        rw [List.zipIdx_cons, List.map_cons, Scanner.paragraphs, scanner, ended,
          paragraphs_scanner second 1 rules (by omega) (by omega), List.flatMap_append,
          List.flatMap_singleton, List.flatMap_singleton, alone, merged]
        rfl

theorem swallowed_eq_iff (rules : List PlainRule) :
    swallowed rules = rules.map declaration ↔ ∀ rule ∈ rules.tail, rule.arguments = [] := by
  induction rules with
  | nil => simp [swallowed]
  | cons rule rules ih =>
    have own : (rule :: rules).flatMap (fun below => below.arguments.map (·.text)) =
        rule.arguments.map (·.text) ↔ ∀ below ∈ rules, below.arguments = [] := by
      simp [List.flatMap_cons, List.flatMap_eq_nil_iff]
    have tail : (∀ below ∈ rules, below.arguments = []) →
        ∀ below ∈ rules.tail, below.arguments = [] := fun bare below member =>
      bare below (List.mem_of_mem_tail member)
    simp only [swallowed, List.map_cons, List.cons.injEq, declaration, Declaration.mk.injEq,
      true_and, own, List.tail_cons]
    exact ⟨fun same => same.1, fun bare => ⟨bare, ih.mpr (tail bare)⟩⟩

theorem readBack_eq_iff (start : Nat) (rules : List PlainRule) :
    readBack start rules = rules.map declaration ↔
      ∀ rule ∈ rules.drop (if start = 0 then 2 else 1), rule.arguments = [] := by
  cases start with
  | succ start => simpa [readBack] using swallowed_eq_iff rules
  | zero =>
    cases rules with
    | nil => simp [readBack, swallowed]
    | cons first rules => simpa [readBack] using swallowed_eq_iff rules

theorem rules_eq_readBack (ending : LineEnding) (start : Nat) (rules : List PlainRule)
    (short : start + rules.length ≤ 10 ^ maxNumberDigits) :
    Note.rules (writeNumbered ending start rules) = readBack start rules := by
  rw [Note.rules, itemParagraphs_eq, writeNumbered, String.toList_ofList, lines_writeNumbered,
    declarations_start start rules short]

/-- Every rule of a numbered list is read, but a rule whose paragraph goes on takes the arguments of
all rules below it as well. So the rules come back as they were written exactly if no rule below the
first has arguments or, counted from zero, no rule below the second. -/
theorem rules_writeNumbered (ending : LineEnding) (start : Nat) (rules : List PlainRule)
    (short : start + rules.length ≤ 10 ^ maxNumberDigits) :
    Note.rules (writeNumbered ending start rules) = readBack start rules ∧
      (Note.rules (writeNumbered ending start rules) = rules.map declaration ↔
        ∀ rule ∈ rules.drop (if start = 0 then 2 else 1), rule.arguments = []) := by
  have reads := rules_eq_readBack ending start rules short
  exact ⟨reads, by rw [reads, readBack_eq_iff]⟩

end PlainRule

/-- Two rules with an argument each. -/
def labelRules : List PlainRule :=
  [⟨"added_label", [⟨"bug", by decide, by simp [isSpecial, backtick], by rintro _ ⟨⟩; decide,
      by rintro _ ⟨⟩; decide⟩], by decide, by decide, by decide, by rintro _ ⟨⟩; decide,
      by rintro _ ⟨⟩; decide⟩,
    ⟨"removed_label", [⟨"wontfix", by decide, by simp [isSpecial, backtick],
      by rintro _ ⟨⟩; decide, by rintro _ ⟨⟩; decide⟩], by decide, by decide, by decide,
      by rintro _ ⟨⟩; decide, by rintro _ ⟨⟩; decide⟩]

example : writeNumbered .lineFeed 9 labelRules =
    "9. `added_label` **bug**\n10. `removed_label` **wontfix**" := by
  decide

theorem rules_writeNumbered_labelRules :
    9 + labelRules.length ≤ 10 ^ maxNumberDigits ∧
      Note.rules (writeNumbered .lineFeed 9 labelRules) =
        [⟨"added_label", ["bug", "wontfix"]⟩, ⟨"removed_label", ["wontfix"]⟩] := by
  have short : 9 + labelRules.length ≤ 10 ^ maxNumberDigits := by decide
  exact ⟨short, (PlainRule.rules_writeNumbered .lineFeed 9 labelRules short).1⟩

/-- Counted from one, the first rule takes the argument of the second. -/
theorem rules_writeNumbered_swallowed :
    ¬ ∀ (start : Nat) (rules : List PlainRule), rules ≠ [] →
      start + rules.length ≤ 10 ^ maxNumberDigits →
      Note.rules (writeNumbered .lineFeed start rules) = rules.map PlainRule.declaration := by
  intro always
  have same := always 1 labelRules (by simp [labelRules]) (by decide)
  rw [PlainRule.rules_eq_readBack .lineFeed 1 labelRules (by decide)] at same
  revert same
  decide

end BoardRules.Note
