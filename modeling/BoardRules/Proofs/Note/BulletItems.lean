import BoardRules.Proofs.Note.Scanning

/-!
# Bullet items side by side

A bullet line at column zero stands outside all items above it. It ends their paragraphs, code and
fences, so every line of a note of such bullets is read as if it stood alone. Comments and markup
are the exception: the scanner does not ask to which item they belong, so one that a bullet leaves
open swallows the bullets below it. `rules_bullets` says which rules are left, and that none is lost
exactly if the swallowed bullets declare none.
-/
namespace BoardRules.Note

open Text

/-- A line that begins with a bullet and a space, with more than spaces and tabs after them. -/
structure Bullet where
  content : List Char
  noFeed : '\n' ∉ content
  noReturn : '\r' ∉ content
  filled : ∃ c ∈ content, isIndent c = false

namespace Bullet

def line (bullet : Bullet) : Line where
  text := '-' :: ' ' :: bullet.content
  noFeed := by simp [bullet.noFeed]
  noReturn := by simp [bullet.noReturn]

/-- The rules of a note that is this line alone. -/
def rules (bullet : Bullet) : List Declaration := Note.rules (ofLines [bullet.line])

/-- What the line leaves open when it stands alone. -/
def leaves (bullet : Bullet) : Block := (Scanner.start.line bullet.line.text).2.block

/-- The bullets that are read and those that are swallowed, if the lines above have left this block
open. A comment swallows the line that closes it as well; markup goes on to the end of the note, as
no line is blank. -/
def sort : Block → List Bullet → List Bullet × List Bullet
  | _, [] => ([], [])
  | .comment, bullet :: below =>
    let rest := sort (if contains commentClosing bullet.line.text then .closed else .comment) below
    (rest.1, bullet :: rest.2)
  | .markup, bullet :: below => ([], bullet :: below)
  | _, bullet :: below =>
    let rest := sort bullet.leaves below
    (bullet :: rest.1, rest.2)

end Bullet

/-! ## The scanner between two bullets -/

/-- What holds between two bullet lines: all blocks stand in items. -/
structure Scanner.InItems (s : Scanner) : Prop where
  inset : s.Inset
  nested : s.block ≠ .closed → s.items ≠ []
  fenced : ∀ mark length depth, s.block = .fence mark length depth → 0 < depth

theorem Scanner.InItems.yields {s : Scanner} (inItems : s.InItems) (noComment : s.block ≠ .comment)
    (noMarkup : s.block ≠ .markup) : s.block.Yields := by
  cases block : s.block with
  | closed => trivial
  | paragraph => trivial
  | fence mark length depth => exact inItems.fenced mark length depth block
  | comment => exact absurd block noComment
  | markup => exact absurd block noMarkup

theorem filled_skipIndent {text : List Char} (filled : ∃ c ∈ text, isIndent c = false)
    (column : Nat) : (skipIndent column text).text ≠ [] := by
  fun_induction skipIndent column text with
  | case1 column rest ih =>
    obtain ⟨c, member, visible⟩ := filled
    rcases List.mem_cons.mp member with rfl | inside
    · exact absurd visible (by decide)
    · exact ih ⟨c, inside, visible⟩
  | case2 column rest ih =>
    obtain ⟨c, member, visible⟩ := filled
    rcases List.mem_cons.mp member with rfl | inside
    · exact absurd visible (by decide)
    · exact ih ⟨c, inside, visible⟩
  | case3 =>
    obtain ⟨c, member, _⟩ := filled
    exact List.ne_nil_of_mem member

namespace Bullet

variable (bullet : Bullet)

theorem marker?_line : marker? ⟨0, bullet.line.text⟩ =
    some ⟨none, 1, skipIndent 1 (' ' :: bullet.content)⟩ := rfl

theorem filled_content : (skipIndent 1 (' ' :: bullet.content)).text ≠ [] := by
  obtain ⟨c, member, visible⟩ := bullet.filled
  exact filled_skipIndent ⟨c, List.mem_cons_of_mem ' ' member, visible⟩ 1

theorem interrupts_line : interrupts ⟨0, bullet.line.text⟩ = true := by
  simp [interrupts, bullet.marker?_line, bullet.filled_content]

/-- A bullet line opens an item, unless it is a thematic break, which leaves nothing open. -/
theorem inItems_begin : (Scanner.begin [] ⟨0, bullet.line.text⟩).InItems := by
  have inset : (Scanner.begin [] ⟨0, bullet.line.text⟩).Inset := Scanner.inset_begin (by simp) _
  have nested : ∀ items text, openItems [] ⟨0, bullet.line.text⟩ = (items, some text) →
      items ≠ [] := by
    intro items text opened
    rw [openItems.eq_1] at opened
    split at opened
    · cases opened
    · split at opened
      · next missing => cases (bullet.marker?_line).symm.trans missing
      · next m found =>
        split at opened
        · cases opened
        · obtain ⟨more, extends_, _⟩ := openItems_extends ([] ++ [m.contentColumn]) m.content
          have same : items = [] ++ [m.contentColumn] ++ more := by rw [← extends_, opened]
          simp [same]
  unfold Scanner.begin at inset ⊢
  split at inset
  · exact ⟨inset, by simp, by simp⟩
  · next items text opened =>
    have filled := nested items text opened
    refine ⟨inset, fun _ => filled, fun mark length depth fence => ?_⟩
    have depthOf : depth = items.length := by
      unfold openBlock at fence
      grind
    rw [depthOf]
    exact List.length_pos_iff.mpr filled

/-- Below bullets that left no comment and no markup open, a bullet is read as if it stood alone. -/
theorem line_inItems {s : Scanner} (inItems : s.InItems) (noComment : s.block ≠ .comment)
    (noMarkup : s.block ≠ .markup) :
    s.line bullet.line.text = (s.block.paragraphs, .begin [] ⟨0, bullet.line.text⟩) := by
  refine Scanner.line_outside inItems.inset (inItems.yields noComment noMarkup) (by simp [line]) rfl
    bullet.interrupts_line fun opened bare => ?_
  exact absurd bare (inItems.nested opened)

theorem line_start :
    Scanner.start.line bullet.line.text = ([], .begin [] ⟨0, bullet.line.text⟩) :=
  bullet.line_inItems ⟨Scanner.inset_start, by simp [Scanner.start], by simp [Scanner.start]⟩
    (by simp [Scanner.start]) (by simp [Scanner.start])

theorem leaves_eq : bullet.leaves = (Scanner.begin [] ⟨0, bullet.line.text⟩).block := by
  rw [leaves, bullet.line_start]

theorem rules_eq : bullet.rules = rulesOf bullet.leaves.paragraphs := by
  rw [rules, rules_ofLines, List.map_singleton, Scanner.paragraphs, bullet.line_start,
    List.nil_append, bullet.leaves_eq]
  rfl

theorem line_markup (items : List Nat) :
    Scanner.line ⟨items, .markup⟩ bullet.line.text = ([], ⟨items, .markup⟩) := rfl

/-- The rules below what the scanner has left open are those of the bullets that it does not swallow.
-/
theorem rulesOf_paragraphs (s : Scanner) (inItems : s.InItems) (bullets : List Bullet) :
    rulesOf (s.paragraphs (bullets.map fun bullet => bullet.line.text)) =
      rulesOf s.block.paragraphs ++ (sort s.block bullets).1.flatMap rules := by
  induction bullets generalizing s with
  | nil => simp [Scanner.paragraphs, sort]
  | cons bullet below ih =>
    obtain ⟨items, block⟩ := s
    rw [List.map_cons, Scanner.paragraphs, rulesOf_append]
    cases block with
    | comment =>
      have still : Scanner.InItems
          ⟨items, if contains commentClosing bullet.line.text then .closed else .comment⟩ := by
        refine ⟨inItems.inset, fun _ => inItems.nested (by simp), ?_⟩
        split_ifs <;> simp
      have unindented : skipIndent 0 bullet.line.text = ⟨0, bullet.line.text⟩ := rfl
      rw [Scanner.line_comment, unindented, ih _ still]
      dsimp only
      split_ifs with closing <;> simp [sort, closing, Block.paragraphs, rulesOf]
    | markup =>
      have swallowed : (sort .markup below).1 = [] := by cases below <;> rfl
      rw [bullet.line_markup, ih _ inItems, swallowed]
      rfl
    | _ =>
      rw [bullet.line_inItems inItems (by simp) (by simp), ih _ bullet.inItems_begin,
        ← bullet.leaves_eq, ← bullet.rules_eq]
      rfl

end Bullet

/-- The bullets declare as many rules as those that are read and those that are swallowed. -/
theorem length_sort (block : Block) (bullets : List Bullet) :
    (bullets.flatMap Bullet.rules).length =
      ((Bullet.sort block bullets).1.flatMap Bullet.rules).length +
        ((Bullet.sort block bullets).2.flatMap Bullet.rules).length := by
  fun_induction Bullet.sort block bullets with
  | case1 => rfl
  | case2 bullet below rest ih =>
    simp only [rest, List.flatMap_cons, List.length_append]
    omega
  | case3 bullet below => simp
  | case4 block bullet below _ _ rest ih =>
    simp only [rest, List.flatMap_cons, List.length_append]
    omega

theorem flatMap_sort_of_swallowed (block : Block) (bullets : List Bullet)
    (bare : ∀ bullet ∈ (Bullet.sort block bullets).2, bullet.rules = []) :
    (Bullet.sort block bullets).1.flatMap Bullet.rules = bullets.flatMap Bullet.rules := by
  fun_induction Bullet.sort block bullets with
  | case1 => rfl
  | case2 bullet below rest ih =>
    obtain ⟨first, others⟩ := List.forall_mem_cons.mp bare
    rw [List.flatMap_cons, first, List.nil_append, ih others]
  | case3 bullet below => exact (List.flatMap_eq_nil_iff.mpr bare).symm
  | case4 block bullet below _ _ rest ih => rw [List.flatMap_cons, List.flatMap_cons, ih bare]

theorem flatMap_sort_eq_iff (block : Block) (bullets : List Bullet) :
    (Bullet.sort block bullets).1.flatMap Bullet.rules = bullets.flatMap Bullet.rules ↔
      ∀ bullet ∈ (Bullet.sort block bullets).2, bullet.rules = [] := by
  refine ⟨fun same => ?_, flatMap_sort_of_swallowed block bullets⟩
  have none : ((Bullet.sort block bullets).2.flatMap Bullet.rules).length = 0 := by
    have lengths := length_sort block bullets
    rw [same] at lengths
    omega
  exact List.flatMap_eq_nil_iff.mp (List.length_eq_zero_iff.mp none)

/-- A note of bullet lines declares what the lines that are not swallowed declare when they stand
alone. So no bullet bears on the rules of another exactly if all swallowed bullets declare none. -/
theorem rules_bullets (bullets : List Bullet) :
    Note.rules (ofLines (bullets.map Bullet.line)) =
        (Bullet.sort .closed bullets).1.flatMap Bullet.rules ∧
      (Note.rules (ofLines (bullets.map Bullet.line)) = bullets.flatMap Bullet.rules ↔
        ∀ bullet ∈ (Bullet.sort .closed bullets).2, bullet.rules = []) := by
  have inItems : Scanner.start.InItems :=
    ⟨Scanner.inset_start, by simp [Scanner.start], by simp [Scanner.start]⟩
  have reads := Bullet.rulesOf_paragraphs Scanner.start inItems bullets
  have texts : (bullets.map Bullet.line).map Line.text =
      bullets.map fun bullet => bullet.line.text := List.map_map
  rw [rules_ofLines, texts, reads]
  exact ⟨rfl, flatMap_sort_eq_iff .closed bullets⟩

/-- A bullet that leaves a comment open, and one with a rule. -/
def commentAbove : List Bullet :=
  [⟨"<!-- x".toList, by decide, by decide, '<', by decide, by decide⟩,
    ⟨"`close_issue`".toList, by decide, by decide, backtick, by decide, by decide⟩]

/-- The comment of the first bullet swallows the rule of the second. -/
theorem rules_bullets_commentAbove :
    ¬ ∀ bullets : List Bullet, Note.rules (ofLines (bullets.map Bullet.line)) =
      bullets.flatMap Bullet.rules := by
  intro always
  have same := always commentAbove
  revert same
  decide +kernel

end BoardRules.Note
