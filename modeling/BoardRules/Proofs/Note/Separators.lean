import BoardRules.Proofs.Note.Scanning
import Mathlib.Data.List.Infix

/-!
# What separates the parts of a note

An unindented heading, fenced block or comment of several lines closes every paragraph and every
list item above it and leaves nothing behind. The shapes of such separators are said here in terms
of their characters; `rules_separated` says that the parts above and below one declare their rules
independently, and that the separator declares none, whatever stands inside it.
-/
namespace BoardRules.Note

open Text

/-! ## Shapes of lines -/

/-- One to six number signs, and after them nothing or a space or a tab. -/
def IsHeadingLine (text : List Char) : Prop :=
  ∃ level rest, text = List.replicate level '#' ++ rest ∧ 1 ≤ level ∧ level ≤ 6 ∧
    (rest = [] ∨ ∃ c, rest.head? = some c ∧ isIndent c = true)

/-- Three or more backticks or tildes, and after them an info string. A fence of backticks has none
in its info string. -/
structure OpensFence (mark : Char) (length : Nat) (text : List Char) : Prop where
  marks : mark = backtick ∨ mark = '~'
  long : 3 ≤ length
  info : ∃ info, text = List.replicate length mark ++ info ∧ info.head? ≠ some mark ∧
    (mark = backtick → backtick ∉ info)

/-- At least as many marks as the opening line has, indented or not, and nothing but blanks after
them. -/
def ClosesFence (mark : Char) (length : Nat) (text : List Char) : Prop :=
  ∃ indent count trail, text = indent ++ (List.replicate count mark ++ trail) ∧
    (∀ c ∈ indent, isIndent c = true) ∧ length ≤ count ∧ ∀ c ∈ trail, isBlank c = true

/-- The line begins with the opening of a comment and does not close it. -/
def OpensComment (text : List Char) : Prop :=
  ∃ rest, text = commentOpening ++ rest ∧ ¬ commentClosing <:+: rest

/-- An unindented heading, a whole fenced block or a whole comment of more than one line. -/
inductive Separator where
  | heading (line : Line) (shape : IsHeadingLine line.text)
  | fenced (mark : Char) (length : Nat) (opening : Line) (body : List Line) (closing : Line)
      (opens : OpensFence mark length opening.text)
      (inside : ∀ line ∈ body, ¬ ClosesFence mark length line.text)
      (closes : ClosesFence mark length closing.text)
  | comment (opening : Line) (body : List Line) (closing : Line)
      (opens : OpensComment opening.text)
      (inside : ∀ line ∈ body, ¬ commentClosing <:+: line.text)
      (closes : commentClosing <:+: closing.text)

def Separator.lines : Separator → List Line
  | heading line _ => [line]
  | fenced _ _ opening body closing _ _ _ => opening :: (body ++ [closing])
  | comment opening body closing _ _ _ => opening :: (body ++ [closing])

/-! ## How the scanner sees them -/

theorem isIndent_cases {c : Char} (indent : isIndent c = true) : c = ' ' ∨ c = '\t' := by
  simpa [isIndent] using indent

/-- Indentation is skipped up to the first other character. -/
theorem text_skipIndent (indent rest : List Char) (blank : ∀ c ∈ indent, isIndent c = true)
    (stops : ∀ c ∈ rest.head?, isIndent c = false) (column : Nat) :
    (skipIndent column (indent ++ rest)).text = rest := by
  induction indent generalizing column with
  | nil =>
    rw [List.nil_append]
    unfold skipIndent
    split
    · exact absurd (stops ' ' rfl) (by decide)
    · exact absurd (stops '\t' rfl) (by decide)
    · rfl
  | cons c indent ih =>
    obtain ⟨first, others⟩ := List.forall_mem_cons.mp blank
    rcases isIndent_cases first with rfl | rfl
    · exact ih others _
    · exact ih others _

theorem exists_indent (column : Nat) (text : List Char) :
    ∃ indent, text = indent ++ (skipIndent column text).text ∧ ∀ c ∈ indent, isIndent c = true := by
  fun_induction skipIndent column text with
  | case1 column rest ih =>
    obtain ⟨indent, split, blank⟩ := ih
    exact ⟨' ' :: indent, by rw [List.cons_append, ← split], by simpa [isIndent] using blank⟩
  | case2 column rest ih =>
    obtain ⟨indent, split, blank⟩ := ih
    exact ⟨'\t' :: indent, by rw [List.cons_append, ← split], by simpa [isIndent] using blank⟩
  | case3 column text => exact ⟨[], rfl, by simp⟩

/-- The end of a comment is not in the indentation. -/
theorem closing_infix_skipIndent (column : Nat) (text : List Char) :
    commentClosing <:+: (skipIndent column text).text ↔ commentClosing <:+: text := by
  have skip : ∀ indent rest : List Char, (∀ c ∈ indent, isIndent c = true) →
      (commentClosing <:+: indent ++ rest ↔ commentClosing <:+: rest) := by
    intro indent rest blank
    induction indent with
    | nil => rfl
    | cons c indent ih =>
      obtain ⟨first, others⟩ := List.forall_mem_cons.mp blank
      have unmarked : ¬ commentClosing <+: c :: (indent ++ rest) := by
        intro begins
        obtain ⟨after, joined⟩ := begins
        rw [← (List.cons.inj joined).1] at first
        exact absurd first (by decide)
      rw [List.cons_append, List.infix_cons_iff, or_iff_right unmarked, ih others]
  obtain ⟨indent, split, blank⟩ := exists_indent column text
  conv_rhs => rw [split]
  exact (skip indent _ blank).symm

theorem closesFence_iff (mark : Char) (length : Nat) (visible : isBlank mark = false)
    (unindented : isIndent mark = false) (some : 0 < length) (text : List Char) :
    closesFence mark length (skipIndent 0 text).text = true ↔ ClosesFence mark length text := by
  simp only [closesFence, Bool.and_eq_true, decide_eq_true_eq, List.all_eq_true, beq_iff_eq]
  constructor
  · rintro ⟨marks, long⟩
    obtain ⟨indent, split, indented⟩ := exists_indent 0 text
    obtain ⟨trail, ends, blank⟩ := exists_trail (skipIndent 0 text).text
    have run := List.eq_replicate_iff.mpr ⟨rfl, marks⟩
    refine ⟨indent, _, trail, ?_, indented, long, blank⟩
    rw [← run, ← ends, ← split]
  · rintro ⟨indent, count, trail, rfl, indented, long, blank⟩
    obtain ⟨more, rfl⟩ : ∃ more, count = more + 1 := ⟨count - 1, by omega⟩
    have stops : ∀ c ∈ (List.replicate (more + 1) mark ++ trail).head?, isIndent c = false := by
      rw [List.replicate_succ]
      rintro _ ⟨⟩
      exact unindented
    have trimmed : trimEnd (List.replicate (more + 1) mark ++ trail) =
        List.replicate (more + 1) mark := by
      rw [trimEnd_append_blank _ _ blank]
      refine trimEnd_eq_self _ fun c last => ?_
      rw [List.eq_of_mem_replicate (List.mem_of_getLast? last)]
      exact visible
    rw [text_skipIndent _ _ indented stops, trimmed]
    exact ⟨fun c member => List.eq_of_mem_replicate member, by simpa using long⟩

theorem IsHeadingLine.isHeading {text : List Char} (shape : IsHeadingLine text) :
    isHeading text = true := by
  obtain ⟨level, rest, rfl, least, most, next⟩ := shape
  have stops : rest.takeWhile (· == '#') = [] := by
    rcases next with rfl | ⟨c, first, indent⟩
    · rfl
    · cases rest with
      | nil => rfl
      | cons d rest =>
        obtain rfl := Option.some.inj first
        rcases isIndent_cases indent with rfl | rfl <;> rfl
  have taken : (List.replicate level '#' ++ rest).takeWhile (· == '#') =
      List.replicate level '#' := by
    rw [List.takeWhile_append_of_pos (by simp), stops, List.append_nil]
  have dropped : (List.replicate level '#' ++ rest).drop level = rest := by
    rw [List.drop_append_of_le_length (by simp)]
    simp
  simp only [Note.isHeading, taken, List.length_replicate, dropped, least, most, decide_true,
    Bool.true_and]
  rcases next with rfl | ⟨c, first, indent⟩
  · rfl
  · simp [first, indent]

theorem OpensFence.fence?_eq {mark : Char} {length : Nat} {text : List Char}
    (opens : OpensFence mark length text) : fence? text = some (mark, length) := by
  obtain ⟨info, rfl, stops, noBacktick⟩ := opens.info
  have long := opens.long
  obtain ⟨more, rfl⟩ : ∃ more, length = more + 1 := ⟨length - 1, by omega⟩
  have run := runLength_replicate mark more info stops
  have after := afterRun_replicate mark more info stops
  rw [runLength] at run
  rw [afterRun] at after
  rw [List.replicate_succ, List.cons_append, fence?]
  simp only [run, after]
  rcases opens.marks with rfl | rfl
  · have absent := noBacktick rfl
    simp [backtick] at absent ⊢
    exact ⟨by omega, absent⟩
  · simp
    omega

/-! ## The scanner below a separator -/

/-- Comments, markup and fences: what hides the lines in it. -/
def Block.isOpaque : Block → Bool
  | .closed => false
  | .paragraph _ _ => false
  | .fence _ _ _ => true
  | .comment => true
  | .markup => true

theorem Block.yields_of_not_isOpaque {block : Block} (settled : block.isOpaque = false) :
    block.Yields := by
  cases block with
  | closed => trivial
  | paragraph => trivial
  | fence => cases settled
  | comment => cases settled
  | markup => cases settled

/-- Lines that end what stands above them and leave the scanner as it is at the start of a note. -/
def Separates (rows : List (List Char)) : Prop :=
  ∀ s : Scanner, s.Inset → s.block.isOpaque = false →
    s.ended rows = s.block.paragraphs ∧ s.after rows = Scanner.start

/-- The line of a separator that ends what stands above it: its first character is none of those of
a list item, a thematic break or an underline. -/
theorem Scanner.line_opening {s : Scanner} (inset : s.Inset) (settled : s.block.isOpaque = false)
    {first : Char} {rest : List Char}
    (outer : first = '#' ∨ first = '<' ∨ first = backtick ∨ first = '~')
    (interrupts : interrupts ⟨0, first :: rest⟩ = true) :
    s.line (first :: rest) = (s.block.paragraphs, ⟨[], openBlock [] (first :: rest)⟩) := by
  have unindented : skipIndent 0 (first :: rest) = ⟨0, first :: rest⟩ := by
    rcases outer with rfl | rfl | rfl | rfl <;> rfl
  have noBreak : isThematicBreak (first :: rest) = false := by
    rcases outer with rfl | rfl | rfl | rfl <;> rfl
  have noMarker : marker? ⟨0, first :: rest⟩ = none := by
    rcases outer with rfl | rfl | rfl | rfl <;> rfl
  have noUnderline : isUnderline (first :: rest) = false := by
    obtain ⟨trail, split, _⟩ := exists_trail (first :: rest)
    unfold isUnderline
    cases trimmed : trimEnd (first :: rest) with
    | nil => rfl
    | cons mark others =>
      rw [trimmed] at split
      obtain rfl := (List.cons.inj split).1
      rcases outer with rfl | rfl | rfl | rfl <;> rfl
  have opened : openItems [] ⟨0, first :: rest⟩ = ([], some (first :: rest)) := by
    rw [openItems.eq_1, if_neg (by simp [noBreak, codeIndent])]
    split
    · rfl
    · next m found => cases noMarker.symm.trans found
  rw [line_outside inset (Block.yields_of_not_isOpaque settled) (by simp) unindented interrupts
    fun _ _ => noUnderline, begin, opened]

theorem IsHeadingLine.separates {text : List Char} (shape : IsHeadingLine text) :
    Separates [text] := by
  intro s inset settled
  have heading := shape.isHeading
  obtain ⟨rest, rfl⟩ : ∃ rest, text = '#' :: rest := by
    obtain ⟨level, rest, rfl, least, _, _⟩ := shape
    obtain ⟨more, rfl⟩ : ∃ more, level = more + 1 := ⟨level - 1, by omega⟩
    exact ⟨_, by rw [List.replicate_succ, List.cons_append]⟩
  have noFence : fence? ('#' :: rest) = none := rfl
  have closed : openBlock [] ('#' :: rest) = .closed := by simp [openBlock, noFence, heading]
  have line := Scanner.line_opening inset settled (Or.inl rfl)
    (show interrupts ⟨0, '#' :: rest⟩ = true by simp [interrupts, heading])
  rw [closed] at line
  simp only [Scanner.ended, Scanner.after, line, List.append_nil, Scanner.start, and_self]

/-- The lines inside a block go on with it, and the last line ends it. -/
theorem separates_block (block : Block) {opening closing : List Char} {body : List (List Char)}
    (opens : ∀ s : Scanner, s.Inset → s.block.isOpaque = false →
      s.line opening = (s.block.paragraphs, ⟨[], block⟩))
    (inside : ∀ text ∈ body, Scanner.line ⟨[], block⟩ text = ([], ⟨[], block⟩))
    (closes : Scanner.line ⟨[], block⟩ closing = ([], .start)) :
    Separates (opening :: (body ++ [closing])) := by
  intro s inset settled
  have skipped : Scanner.ended ⟨[], block⟩ (body ++ [closing]) = [] ∧
      Scanner.after ⟨[], block⟩ (body ++ [closing]) = .start := by
    induction body with
    | nil => simp [Scanner.ended, Scanner.after, closes]
    | cons text body ih =>
      obtain ⟨first, others⟩ := List.forall_mem_cons.mp inside
      simpa [Scanner.ended, Scanner.after, first] using ih others
  rw [Scanner.ended, Scanner.after, opens s inset settled, skipped.1, skipped.2, List.append_nil]
  exact ⟨rfl, rfl⟩

/-- In a fence that stands outside all items a line is asked only whether it closes the fence. -/
theorem line_fence (mark : Char) {length : Nat} (long : 0 < length) (text : List Char) :
    Scanner.line ⟨[], .fence mark length 0⟩ text =
      ([], if closesFence mark length (skipIndent 0 text).text then .start
        else ⟨[], .fence mark length 0⟩) := by
  rw [Scanner.line]
  split_ifs with blank closes closes
  · rw [List.isEmpty_iff.mp blank] at closes
    simp [closesFence, trimEnd, dropEndWhile] at closes
    omega
  · rfl
  · simp [Scanner.content, depthAt, closes, Scanner.start]
  · simp [Scanner.content, depthAt, closes]

theorem separates_fenced {mark : Char} {length : Nat} {opening closing : List Char}
    {body : List (List Char)} (opens : OpensFence mark length opening)
    (inside : ∀ text ∈ body, ¬ ClosesFence mark length text)
    (closes : ClosesFence mark length closing) : Separates (opening :: (body ++ [closing])) := by
  have fence := opens.fence?_eq
  have long : 0 < length := Nat.lt_of_lt_of_le (by decide) opens.long
  have closing_iff := closesFence_iff mark length
    (show isBlank mark = false by rcases opens.marks with rfl | rfl <;> decide)
    (show isIndent mark = false by rcases opens.marks with rfl | rfl <;> decide) long
  obtain ⟨rest, rfl⟩ : ∃ rest, opening = mark :: rest := by
    obtain ⟨info, rfl, _⟩ := opens.info
    obtain ⟨more, rfl⟩ : ∃ more, length = more + 1 := ⟨length - 1, by omega⟩
    exact ⟨_, by rw [List.replicate_succ, List.cons_append]⟩
  have block : openBlock [] (mark :: rest) = .fence mark length 0 := by simp [openBlock, fence]
  refine separates_block (.fence mark length 0) ?_ ?_ ?_
  · intro s inset settled
    have line := Scanner.line_opening inset settled (Or.inr (Or.inr opens.marks))
      (show interrupts ⟨0, mark :: rest⟩ = true by simp [interrupts, fence])
    rwa [block] at line
  · intro text member
    rw [line_fence mark long, if_neg (mt (closing_iff text).mp (inside text member))]
  · rw [line_fence mark long, if_pos ((closing_iff closing).mpr closes)]

theorem separates_comment {opening closing : List Char} {body : List (List Char)}
    (opens : OpensComment opening) (inside : ∀ text ∈ body, ¬ commentClosing <:+: text)
    (closes : commentClosing <:+: closing) : Separates (opening :: (body ++ [closing])) := by
  have closing_iff : ∀ text, contains commentClosing (skipIndent 0 text).text = true ↔
      commentClosing <:+: text := fun text =>
    (contains_iff _ _).trans (closing_infix_skipIndent 0 text)
  obtain ⟨rest, rfl, unclosed⟩ := opens
  have comment : comment? (commentOpening ++ rest) = some rest :=
    (after?_eq_some_iff _ _ _).mpr rfl
  have block : openBlock [] (commentOpening ++ rest) = .comment := by
    have noFence : fence? (commentOpening ++ rest) = none := rfl
    have noHeading : isHeading (commentOpening ++ rest) = false := rfl
    have noQuotation : isQuotation (commentOpening ++ rest) = false := rfl
    simp [openBlock, noFence, noHeading, noQuotation, comment,
      mt (contains_iff commentClosing rest).mp unclosed]
  refine separates_block .comment ?_ ?_ ?_
  · intro s inset settled
    have line := Scanner.line_opening inset settled (Or.inr (Or.inl rfl))
      (show interrupts ⟨0, commentOpening ++ rest⟩ = true by simp [interrupts, comment])
    rwa [show '<' :: _ = commentOpening ++ rest from rfl, block] at line
  · intro text member
    rw [Scanner.line_comment, if_neg (mt (closing_iff text).mp (inside text member))]
  · rw [Scanner.line_comment, if_pos ((closing_iff closing).mpr closes)]
    rfl

theorem Separator.separates (separator : Separator) :
    Separates (separator.lines.map Line.text) := by
  cases separator with
  | heading line shape => exact shape.separates
  | fenced mark length opening body closing opens inside closes =>
    have apart : Separates (opening.text :: (body.map Line.text ++ [closing.text])) :=
      separates_fenced opens (List.forall_mem_map.mpr inside) closes
    simpa [lines] using apart
  | comment opening body closing opens inside closes =>
    have apart : Separates (opening.text :: (body.map Line.text ++ [closing.text])) :=
      separates_comment opens (List.forall_mem_map.mpr inside) closes
    simpa [lines] using apart

/-- Above and below a separator a note declares its rules as two notes would, and the separator
declares none. -/
theorem rules_separated (above below : List Line) (separator : Separator)
    (settled : (Scanner.start.after (above.map Line.text)).block.isOpaque = false) :
    Note.rules (ofLines (above ++ (separator.lines ++ below))) =
      Note.rules (ofLines above) ++ Note.rules (ofLines below) := by
  have inset : (Scanner.start.after (above.map Line.text)).Inset :=
    Scanner.inset_start.after (above.map Line.text)
  obtain ⟨ended, started⟩ := separator.separates _ inset settled
  rw [rules_ofLines, rules_ofLines, rules_ofLines, List.map_append, List.map_append,
    Scanner.paragraphs_append, Scanner.paragraphs_append, ended, started, ← List.append_assoc,
    ← Scanner.paragraphs_eq_ended, rulesOf_append]

/-- A rule, and below it the beginning of an item inside its item. -/
def openList : List Line :=
  [⟨"- `new_issue` **api**".toList, by decide, by decide⟩,
    ⟨"  - **web**".toList, by decide, by decide⟩]

def otherList : List Line := [⟨"- `assigned_issue`".toList, by decide, by decide⟩]

/-- A fence whose content looks like a list of rules. -/
def ruleFence : Separator :=
  .fenced backtick 3 ⟨"``` rules".toList, by decide, by decide⟩
    [⟨"- `close_issue`".toList, by decide, by decide⟩, ⟨[], by decide, by decide⟩,
      ⟨"``".toList, by decide, by decide⟩]
    ⟨"```".toList, by decide, by decide⟩
    ⟨Or.inl rfl, Nat.le_refl 3, " rules".toList, rfl, by decide, by decide⟩
    (by
      have closing_iff := closesFence_iff backtick 3 (by decide) (by decide) (by decide)
      simp only [← closing_iff, List.forall_mem_cons]
      decide)
    ⟨[], 3, [], rfl, by simp, Nat.le_refl 3, by simp⟩

theorem rules_separated_ruleFence :
    (Scanner.start.after (openList.map Line.text)).block.isOpaque = false ∧
      Note.rules (ofLines (openList ++ (ruleFence.lines ++ otherList))) =
        [⟨"new_issue", ["api"]⟩, ⟨"assigned_issue", []⟩] := by
  have settled : (Scanner.start.after (openList.map Line.text)).block.isOpaque = false := by
    decide +kernel
  have apart : Note.rules (ofLines openList) ++ Note.rules (ofLines otherList) =
      [⟨"new_issue", ["api"]⟩, ⟨"assigned_issue", []⟩] := by decide +kernel
  exact ⟨settled, (rules_separated openList otherList ruleFence settled).trans apart⟩

end BoardRules.Note
