import BoardRules.Proofs.Store.Views

/-!
# Rule cards at the bottom

A rule takes effect only while a window shows its card. Rule cards that lie at the bottom of their
columns, two in a column at most, are all shown; certain changes leave them there.
-/
namespace BoardRules

/-! ## Suffixes of marked elements -/

section Sunk

variable {α : Type} {p : α → Bool}

theorem filter_suffix_cons {c : α} {cards : List α} (unmarked : p c = false)
    (sunk : cards.filter p <:+ cards) : (c :: cards).filter p <:+ c :: cards := by
  rw [List.filter_cons_of_neg (by simp [unmarked])]
  exact sunk.trans (List.suffix_cons c cards)

theorem filter_suffix_filter (q : α → Bool) {cards : List α} (sunk : cards.filter p <:+ cards) :
    (cards.filter q).filter p <:+ cards.filter q := by
  rw [List.filter_comm]
  exact sunk.filter q

/-- Above the suffix of marked elements there are none. -/
theorem filter_suffix_split {cards : List α} (sunk : cards.filter p <:+ cards) :
    ∃ above, cards = above ++ cards.filter p ∧ ∀ c ∈ above, p c = false := by
  obtain ⟨above, split⟩ := sunk
  refine ⟨above, split.symm, ?_⟩
  have twice : (cards.filter p).filter p = cards.filter p := by
    rw [List.filter_filter]
    simp
  have none : above.filter p = [] := by
    have counted := congrArg (fun cards => (cards.filter p).length) split
    simp only [List.filter_append, twice, List.length_append] at counted
    exact List.eq_nil_of_length_eq_zero (by omega)
  intro c member
  have unmarked := List.filter_eq_nil_iff.mp none c member
  simpa using unmarked

theorem filter_append_suffix {above below : List α} (unmarked : ∀ c ∈ above, p c = false)
    (marked : ∀ c ∈ below, p c = true) : (above ++ below).filter p <:+ above ++ below := by
  have none : above.filter p = [] := List.filter_eq_nil_iff.mpr (by simpa using unmarked)
  have all : below.filter p = below := List.filter_eq_self.mpr marked
  rw [List.filter_append, none, all, List.nil_append]
  exact List.suffix_append above below

theorem filter_filter_ne [DecidableEq α] {c : α} (cards : List α) (unmarked : p c = false) :
    (cards.filter (· ≠ c)).filter p = cards.filter p := by
  rw [List.filter_filter]
  apply List.filter_congr
  intro other _
  by_cases same : other = c
  · subst same
    simp [unmarked]
  · simp [same]

end Sunk

namespace Store

/-- To move a marked card behind another one leaves the marked cards at the bottom. -/
theorem insertBehind_sunk {p : CardId → Bool} {card anchor : CardId} {cards placed : List CardId}
    (nodup : cards.Nodup) (sunk : cards.filter p <:+ cards) (marked : p card = true)
    (anchored : p anchor = true)
    (inserted : insertBehind card anchor (cards.filter (· ≠ card)) = some placed) :
    placed.filter p <:+ placed := by
  obtain ⟨above, split, unmarked⟩ := filter_suffix_split (filter_suffix_filter (· ≠ card) sunk)
  have below_marked : ∀ c ∈ (cards.filter (· ≠ card)).filter p, p c = true :=
    fun c member => (List.mem_filter.mp member).2
  have below_nodup := (nodup.filter (· ≠ card)).filter p
  generalize (cards.filter (· ≠ card)).filter p = below at split below_marked below_nodup
  rw [split] at inserted
  have there : anchor ∈ below := by
    rcases List.mem_append.mp (insertBehind_anchor inserted) with outside | inside
    · rw [unmarked anchor outside] at anchored
      cases anchored
    · exact inside
  obtain ⟨upper, lower, rfl⟩ := List.append_of_mem there
  have higher : anchor ∉ above ++ upper := by
    intro member
    rcases List.mem_append.mp member with outside | inside
    · rw [unmarked anchor outside] at anchored
      cases anchored
    · exact (List.nodup_append.mp below_nodup).2.2 anchor inside anchor List.mem_cons_self rfl
  rw [← List.append_assoc, insertBehind_append higher] at inserted
  cases inserted
  rw [List.append_assoc]
  apply filter_append_suffix unmarked
  intro c member
  rcases List.mem_append.mp member with one | other
  · exact below_marked c (List.mem_append_left _ one)
  · rcases List.mem_cons.mp other with rfl | rest
    · exact anchored
    · rcases List.mem_cons.mp rest with rfl | later
      · exact marked
      · exact below_marked c (List.mem_append_right _ (List.mem_cons_of_mem _ later))

/-! ## Pinned rules -/

/-- Whether the note of a card declares any rule. -/
def declares (s : Store) (card : CardId) : Bool := !(s.declarations card).isEmpty

def ruleCards (s : Store) (id : ColumnId) : List CardId := (s.cardsIn id).filter s.declares

/-- In every column the rule cards lie at the bottom, and there are two of them at most. -/
def RulesPinned (s : Store) : Prop :=
  ∀ id, s.ruleCards id <:+ s.cardsIn id ∧ (s.ruleCards id).length ≤ 2

/-- It is enough to look at the columns that there are. -/
theorem WellFormed.rulesPinned_iff {s : Store} (wellFormed : s.WellFormed) :
    s.RulesPinned ↔ ∀ column ∈ s.columns, column.cards.filter s.declares <:+ column.cards ∧
      (column.cards.filter s.declares).length ≤ 2 := by
  unfold RulesPinned ruleCards
  constructor
  · intro pinned column member
    have here := pinned column.id
    rw [wellFormed.cardsIn_eq member] at here
    exact here
  · intro pinned id
    cases there : s.column? id with
    | none =>
      unfold cardsIn
      rw [there]
      exact ⟨List.suffix_refl [], Nat.zero_le 2⟩
    | some column =>
      rw [cardsIn_of_column? there]
      exact pinned column (column?_some there).1

/-- The second store has the columns, notes and rule cards of the first one, and its rule cards lie
at the bottom. -/
structure SameRules (s₀ s : Store) : Prop where
  wellFormed : s.WellFormed
  layout : s.layout = s₀.layout
  notes : s.cardNote? = s₀.cardNote?
  rules : ∀ id, (s.ruleCards id).Perm (s₀.ruleCards id)
  sunk : ∀ id, s.ruleCards id <:+ s.cardsIn id

/-- Changes that leave rule cards at the bottom: entities get cards, cards without rules move to the
top of a column, and rule cards of one column are put behind each other. -/
def SparesRules (s₀ : Store) : Call → Prop
  | .createCard _ content => content.note? = none
  | .moveCard card _ none => s₀.declares card = false
  | .moveCard card column (some anchor) =>
    card ∈ s₀.ruleCards column ∧ anchor ∈ s₀.ruleCards column
  | _ => True

namespace SameRules

variable {s₀ s : Store}

theorem refl (wellFormed : s₀.WellFormed) (pinned : s₀.RulesPinned) : SameRules s₀ s₀ :=
  ⟨wellFormed, rfl, rfl, fun _ => List.Perm.refl _, fun id => (pinned id).1⟩

theorem declarations (same : SameRules s₀ s) : s.declarations = s₀.declarations := by
  funext card
  unfold Store.declarations
  rw [same.notes]

theorem declares (same : SameRules s₀ s) : s.declares = s₀.declares := by
  funext card
  unfold Store.declares
  rw [same.declarations]

theorem pinned (same : SameRules s₀ s) (pinned : s₀.RulesPinned) : s.RulesPinned :=
  fun id => ⟨same.sunk id, (same.rules id).length_eq ▸ (pinned id).2⟩

/-- Whatever keeps layout, notes and contents keeps the rules. -/
theorem of_cardsIn (same : SameRules s₀ s) {s' : Store} (wellFormed : s'.WellFormed)
    (layout : s'.layout = s.layout) (notes : s'.cardNote? = s.cardNote?)
    (sunk : ∀ id, (s'.cardsIn id).filter s₀.declares <:+ s'.cardsIn id)
    (rules : ∀ id, ((s'.cardsIn id).filter s₀.declares).Perm ((s.cardsIn id).filter s₀.declares)) :
    SameRules s₀ s' := by
  have declares' : s'.declares = s₀.declares := by
    rw [← same.declares]
    funext card
    unfold Store.declares Store.declarations
    rw [notes]
  refine ⟨wellFormed, layout.trans same.layout, notes.trans same.notes, ?_, ?_⟩
  · intro id
    have before := same.rules id
    unfold ruleCards at before ⊢
    rw [declares']
    rw [same.declares] at before
    exact (rules id).trans before
  · intro id
    unfold ruleCards
    rw [declares']
    exact sunk id

theorem sunk_declares (same : SameRules s₀ s) (id : ColumnId) :
    (s.cardsIn id).filter s₀.declares <:+ s.cardsIn id := by
  have sunk := same.sunk id
  unfold ruleCards at sunk
  rwa [same.declares] at sunk

theorem moveCard_top (same : SameRules s₀ s) {card : CardId} (column : ColumnId)
    (plain : s₀.declares card = false) : SameRules s₀ (s.moveCard card column none).2 := by
  rcases result : s.moveCard card column none with ⟨answer, s'⟩
  cases answer with
  | error error =>
    rw [moveCard_error result]
    exact same
  | ok _ =>
    have wellFormed := same.wellFormed.moveCard card column none
    rw [result] at wellFormed
    obtain ⟨cards, inserted, contents, layout, frame⟩ := moveCard_ok result
    cases inserted
    refine same.of_cardsIn wellFormed layout ?_ ?_ ?_
    · rw [frame]
      rfl
    · intro id
      rw [contents id]
      split
      · rename_i here
        subst here
        exact filter_suffix_cons plain (filter_suffix_filter _ (same.sunk_declares id))
      · exact filter_suffix_filter _ (same.sunk_declares id)
    · intro id
      rw [contents id]
      split
      · rename_i here
        subst here
        rw [List.filter_cons_of_neg (by simp [plain]), filter_filter_ne _ plain]
      · rw [filter_filter_ne _ plain]

theorem moveCard_behind (same : SameRules s₀ s) {card anchor : CardId} {column : ColumnId}
    (rule : card ∈ s₀.ruleCards column) (last : anchor ∈ s₀.ruleCards column) :
    SameRules s₀ (s.moveCard card column (some anchor)).2 := by
  rcases result : s.moveCard card column (some anchor) with ⟨answer, s'⟩
  cases answer with
  | error error =>
    rw [moveCard_error result]
    exact same
  | ok _ =>
    have wellFormed := same.wellFormed.moveCard card column (some anchor)
    rw [result] at wellFormed
    obtain ⟨cards, inserted, contents, layout, frame⟩ := moveCard_ok result
    have marked : s₀.declares card = true := (List.mem_filter.mp rule).2
    have anchored : s₀.declares anchor = true := (List.mem_filter.mp last).2
    have here : card ∈ s.cardsIn column :=
      (List.mem_filter.mp ((same.rules column).mem_iff.mpr rule)).1
    have nodup := same.wellFormed.nodup_cardsIn column
    have moved : cards.Perm (s.cardsIn column) :=
      (insertBehind_perm inserted).trans (cons_filter_ne_perm nodup here)
    have others : ∀ id, id ≠ column → s'.cardsIn id = s.cardsIn id := by
      intro id different
      rw [contents id, if_neg different, same.wellFormed.filter_elsewhere here different]
    refine same.of_cardsIn wellFormed layout ?_ ?_ ?_
    · rw [frame]
      rfl
    · intro id
      by_cases this : id = column
      · subst this
        rw [contents id, if_pos rfl]
        exact insertBehind_sunk nodup (same.sunk_declares id) marked anchored inserted
      · rw [others id this]
        exact same.sunk_declares id
    · intro id
      by_cases this : id = column
      · subst this
        rw [contents id, if_pos rfl]
        exact moved.filter _
      · rw [others id this]

theorem createCard (same : SameRules s₀ s) (column : ColumnId) {content : CardContent}
    (plain : content.note? = none) : SameRules s₀ (s.createCard column content).2 := by
  have wellFormed := same.wellFormed.createCard column content
  rcases result : s.createCard column content with ⟨answer, s'⟩
  rw [result] at wellFormed
  cases answer with
  | error error =>
    rw [createCard_error result] at wellFormed ⊢
    exact ⟨wellFormed, same.layout, same.notes, same.rules, same.sunk⟩
  | ok card =>
    obtain ⟨rfl, contents, layout, frame⟩ := createCard_ok result
    have unknown := same.wellFormed.card?_next
    have noteless : s.cardNote? ⟨s.nextId "card"⟩ = none := by
      unfold cardNote?
      rw [unknown]
      rfl
    have undeclared : s₀.declares ⟨s.nextId "card"⟩ = false := by
      rw [← same.declares]
      unfold Store.declares Store.declarations
      rw [noteless]
      rfl
    refine same.of_cardsIn wellFormed layout ?_ ?_ ?_
    · funext card
      rw [frame]
      unfold cardNote? card?
      rw [List.find?_append]
      cases s.cards.find? fun stored => stored.id = card with
      | some stored => rfl
      | none =>
        by_cases new : (⟨s.nextId "card"⟩ : CardId) = card
        · simp [new, plain]
        · simp [new]
    · intro id
      rw [contents id]
      split
      · exact filter_suffix_cons undeclared (same.sunk_declares id)
      · exact same.sunk_declares id
    · intro id
      rw [contents id]
      split
      · rw [List.filter_cons_of_neg (by simp [undeclared])]
      · exact List.Perm.refl _

theorem closeIssue (same : SameRules s₀ s) (entity : EntityId) :
    SameRules s₀ (s.closeIssue entity).2 := by
  have wellFormed := same.wellFormed.closeIssue entity
  rcases s.closeIssue_cases entity with ⟨error, failed⟩ | closed
  · rw [failed]
    exact same
  · rw [closed] at wellFormed ⊢
    exact ⟨wellFormed, same.layout, same.notes, same.rules, same.sunk⟩

theorem read (same : SameRules s₀ s) {α : Type} (look : Store → Except TrackingError α) :
    SameRules s₀ (s.read look).2 := by
  have wellFormed := same.wellFormed.read look
  rcases s.read_cases look with ⟨_, answered⟩ | ⟨n, _, failed⟩
  · rw [answered]
    exact same
  · rw [failed] at wellFormed ⊢
    exact ⟨wellFormed, same.layout, same.notes, same.rules, same.sunk⟩

/-- Calls that spare the rules keep them. -/
theorem service (same : SameRules s₀ s) (call : Call) (spares : s₀.SparesRules call) :
    SameRules s₀ (Store.service call s).2 := by
  cases call with
  | boardsForEntity url => exact same.read _
  | cardContext card => exact same.read _
  | cardMemberships url => exact same.read _
  | pullRequestBody url => exact same.read _
  | reviews pullRequest => exact same.read _
  | createCard column content => exact same.createCard column spares
  | moveCard card column after =>
    cases after with
    | none => exact same.moveCard_top column spares
    | some anchor => exact same.moveCard_behind spares.1 spares.2
  | closeIssue entity => exact same.closeIssue entity

/-- A rule that is shown may be put back to the bottom of its column, now and later. -/
theorem spares_reposition (same : SameRules s₀ s) {rule : PlacedRule} (shown : s.Shows rule)
    {anchor : CardId} (anchored : rule.anchor = some anchor) :
    s₀.SparesRules (.moveCard rule.card rule.column.id (some anchor)) := by
  have declared : s.declares rule.card = true := by
    unfold Store.declares
    rw [List.isEmpty_eq_false_iff.mpr (List.ne_nil_of_mem shown.declared)]
    rfl
  have member : rule.card ∈ s.ruleCards rule.column.id :=
    List.mem_filter.mpr ⟨shown.placed, declared⟩
  -- The last card of the column is the last of its rule cards.
  have last : anchor ∈ s.ruleCards rule.column.id := by
    have final : (s.cardsIn rule.column.id).getLast? = some anchor := by
      have found := anchored.symm.trans shown.anchored
      exact (Option.filter_eq_some_iff.mp found.symm).1
    obtain ⟨above, split⟩ := same.sunk rule.column.id
    rw [← split, List.getLast?_append] at final
    cases lowest : (s.ruleCards rule.column.id).getLast? with
    | none =>
      rw [List.getLast?_eq_none_iff] at lowest
      rw [lowest] at member
      cases member
    | some other =>
      rw [lowest] at final
      cases final
      exact List.mem_of_getLast? lowest
  exact ⟨(same.rules _).mem_iff.mp member, (same.rules _).mem_iff.mp last⟩

end SameRules

end Store

end BoardRules
