import BoardRules.Proofs.Dispatch.Bystanders
import BoardRules.Proofs.Store.Stacked

/-!
# Lowering

Where no card of the entity moves, every automation finds the columns with the last cards that it has
read: rules only put cards behind these, and new cards come to the top. So the cards of rules that
fire end at the bottom of their columns, however many there are.
-/
namespace BoardRules

/-- The card that an action has made for an entity in a column. -/
def Action.createdIn? (id : ColumnId) : Action → Option CardId
  | .cardCreated column card => if column = id then some card else none
  | _ => none

/-- The cards that have been made for entities in a column, the newest one first. -/
def createdIn (id : ColumnId) (actions : List Action) : List CardId :=
  (actions.filterMap (Action.createdIn? id)).reverse

/-- The cards of which an action tells have been made since `s`, and hold what it says. -/
def Action.Made (s s' : Store) : Action → Prop
  | .cardCreated _ card =>
    s.card? card = none ∧ ∃ entity, s'.card? card = some ⟨card, none, some entity⟩
  | .companionCardAdded _ card =>
    s.card? card = none ∧ ∃ text, s'.card? card = some ⟨card, some text, none⟩
  | _ => True

/-- The store during a run in which no card of an entity moves: every column has the cards made for
entities on top, and below its last card those that were to be lowered. -/
structure Lowering (s₀ : Store) (lowers : ColumnId → CardId → Prop) (actions : List Action)
    (s : Store) : Prop where
  later : s₀.Later s
  contents : s₀.StackedOn (createdIn · actions) lowers s
  /-- Cards are made on top of a rule's card. -/
  above : ∀ id, createdIn id actions ≠ [] → s₀.cardsIn id ≠ []
  made : ∀ action ∈ actions, action.Made s₀ s

theorem mem_createdIn {id : ColumnId} {card : CardId} {actions : List Action} :
    card ∈ createdIn id actions ↔ .cardCreated id card ∈ actions := by
  unfold createdIn
  rw [List.mem_reverse, List.mem_filterMap]
  constructor
  · intro found
    obtain ⟨action, member, same⟩ := found
    cases action with
    | cardCreated column other =>
      unfold Action.createdIn? at same
      dsimp only at same
      split at same
      · rename_i here
        cases same
        rw [← here]
        exact member
      · cases same
    | _ => cases same
  · intro member
    exact ⟨_, member, if_pos rfl⟩

/-- Only the creation of a card for an entity adds such a card. -/
theorem createdIn_append {id : ColumnId} {actions : List Action} {action : Action}
    (other : action.createdIn? id = none) :
    createdIn id (actions ++ [action]) = createdIn id actions := by
  unfold createdIn
  rw [List.filterMap_append, List.filterMap_cons_none other]
  simp

theorem createdIn_append_created (id : ColumnId) (actions : List Action) (column : ColumnId)
    (card : CardId) : createdIn id (actions ++ [.cardCreated column card]) =
      if id = column then card :: createdIn id actions else createdIn id actions := by
  unfold createdIn
  rw [List.filterMap_append, List.reverse_append]
  by_cases here : column = id
  · simp [Action.createdIn?, here]
  · simp [Action.createdIn?, here, Ne.symm here]

theorem filter_createdIn {id : ColumnId} {card : CardId} {actions : List Action}
    (absent : .cardCreated id card ∉ actions) :
    (createdIn id actions).filter (· ≠ card) = createdIn id actions := by
  apply List.filter_eq_self.mpr
  intro other created
  have apart : other ≠ card := by
    rintro rfl
    exact absent (mem_createdIn.mp created)
  simpa using apart

theorem Action.Made.longer {s s' s'' : Store} {action : Action} (made : action.Made s s')
    (longer : s'.cards <+: s''.cards) : action.Made s s'' := by
  have kept {card : CardId} {stored : StoredCard} (known : s'.card? card = some stored) :
      s''.card? card = some stored := by
    rw [Store.card?_of_longer longer (by rw [known]; rfl), known]
  cases action with
  | cardCreated column card =>
    obtain ⟨new, entity, known⟩ := made
    exact ⟨new, entity, kept known⟩
  | companionCardAdded column card =>
    obtain ⟨new, text, known⟩ := made
    exact ⟨new, text, kept known⟩
  | _ => trivial

namespace Lowering

variable {s₀ s : Store} {lowers : ColumnId → CardId → Prop} {actions : List Action}

theorem start (wellFormed : s₀.WellFormed) (none : ∀ id card, ¬ lowers id card) :
    Lowering s₀ lowers [] s₀ where
  later := Store.Later.refl wellFormed
  contents := Store.StackedOn.refl s₀ none
  above id created := absurd rfl created
  made := by simp

/-- An action that creates nothing for an entity. -/
theorem noted (before : Lowering s₀ lowers actions s) {action : Action}
    (plain : ∀ id, action.createdIn? id = none) (made : action.Made s₀ s) :
    Lowering s₀ lowers (actions ++ [action]) s := by
  have same (id : ColumnId) : createdIn id (actions ++ [action]) = createdIn id actions :=
    createdIn_append (plain id)
  refine { before with contents := ?_, above := ?_, made := ?_ }
  · simp only [same]
    exact before.contents
  · intro id
    rw [same]
    exact before.above id
  · intro other member
    rcases List.mem_append.mp member with earlier | latest
    · exact before.made other earlier
    · rw [List.mem_singleton.mp latest]
      exact made

/-- The last card is at the bottom anyway. -/
theorem rest (before : Lowering s₀ lowers actions s) {id : ColumnId} {card : CardId}
    (final : (s₀.cardsIn id).getLast? = some card) :
    Lowering s₀ (Store.withCard lowers id card) actions s :=
  { before with contents := before.contents.rest final }

/-- A card of a rule goes behind the card that was last in its column. -/
theorem lower (before : Lowering s₀ lowers actions s) (wellFormed : s₀.WellFormed) {id : ColumnId}
    {card last : CardId} (final : (s₀.cardsIn id).getLast? = some last)
    (member : card ∈ s₀.cardsIn id) (different : card ≠ last) :
    ∃ s', s.moveCard card id (some last) = (.ok (), s') ∧
      Lowering s₀ (Store.withCard lowers id card)
        (actions ++ [.ruleCardRepositioned card id last]) s' := by
  have known := (wellFormed.known_iff card).mpr ⟨id, member⟩
  obtain ⟨s', success, contents⟩ := before.contents.sink before.later.wellFormed final
    (before.contents.inside member) different
  have kept (column : ColumnId) :
      (createdIn column actions).filter (· ≠ card) = createdIn column actions := by
    apply filter_createdIn
    intro created
    rw [(before.made _ created).1] at known
    cases known
  simp only [kept] at contents
  obtain ⟨_, _, _, _, whole⟩ := Store.moveCard_ok success
  refine ⟨s', success, noted ⟨before.later.moveCard success, contents, before.above, ?_⟩
    (fun _ => rfl) trivial⟩
  rw [whole]
  exact before.made

/-- A card that is made now is new, and the cards made earlier are still there. -/
theorem made_created (before : Lowering s₀ lowers actions s) {id : ColumnId} {content : CardContent}
    {card : CardId} {t : Store} (success : s.createCard id content = (.ok card, t)) {action : Action}
    (made : s₀.card? card = none → t.card? card = some ⟨card, content.note?, content.entity?⟩ →
      action.Made s₀ t) :
    ∀ other ∈ actions ++ [action], other.Made s₀ t := by
  obtain ⟨unknown, known, longer⟩ := before.later.wellFormed.card?_created success
  intro other member
  rcases List.mem_append.mp member with earlier | latest
  · exact (before.made other earlier).longer longer
  · rw [List.mem_singleton.mp latest]
    exact made (before.later.unknown unknown) known

/-- A card for an entity is made on top of a rule's card. -/
theorem create (before : Lowering s₀ lowers actions s) {id : ColumnId} {rule : CardId}
    (inside : rule ∈ s₀.cardsIn id) (entity : EntityId) :
    ∃ card s', s.createCard id (.entity entity) = (.ok card, s') ∧
      Lowering s₀ lowers (actions ++ [.cardCreated id card]) s' := by
  obtain ⟨column, found, _⟩ := Store.column?_of_mem inside
  have there : (s₀.column? id).isSome := by
    rw [found]
    rfl
  obtain ⟨card, s', success, later⟩ := before.later.createCard there (.entity entity)
  refine ⟨card, s', success, later, ?_, ?_,
    before.made_created success fun new known => ⟨new, entity, known⟩⟩
  · simp only [createdIn_append_created]
    exact before.contents.create success
  · intro column created
    rw [createdIn_append_created] at created
    by_cases here : column = id
    · rw [here]
      exact List.ne_nil_of_mem inside
    · rw [if_neg here] at created
      exact before.above column created

/-- A companion card is made at the top and goes behind the last card, if there is one. -/
theorem companion (before : Lowering s₀ lowers actions s) {id : ColumnId}
    (there : (s₀.column? id).isSome) (text : String) :
    ∃ card t, s.createCard id (.note text) = (.ok card, t) ∧
      match (s₀.cardsIn id).getLast? with
      | none => Lowering s₀ (Store.withCard lowers id card) (actions ++ [.companionCardAdded id card]) t
      | some last => ∃ s', t.moveCard card id (some last) = (.ok (), s') ∧
          Lowering s₀ (Store.withCard lowers id card)
            (actions ++ [.companionCardAdded id card] ++ [.ruleCardRepositioned card id last]) s' := by
  obtain ⟨card, t, success, later⟩ := before.later.createCard there (.note text)
  obtain ⟨unknown, known, longer⟩ := before.later.wellFormed.card?_created success
  have made : ∀ other ∈ actions ++ [.companionCardAdded id card], other.Made s₀ t :=
    before.made_created success fun new known => ⟨new, text, known⟩
  have contents := before.contents.create success
  have kept (column : ColumnId) :
      (if column = id then card :: createdIn column actions else createdIn column actions).filter
        (· ≠ card) = createdIn column (actions ++ [.companionCardAdded id card]) := by
    have others : (createdIn column actions).filter (· ≠ card) = createdIn column actions := by
      apply filter_createdIn
      intro created
      obtain ⟨_, entity, older⟩ := before.made _ created
      rw [unknown] at older
      cases older
    rw [createdIn_append rfl]
    split
    · rw [List.filter_cons_of_neg (by simp), others]
    · exact others
  have above (column : ColumnId)
      (created : createdIn column (actions ++ [.companionCardAdded id card]) ≠ []) :
      s₀.cardsIn column ≠ [] := by
    rw [createdIn_append rfl] at created
    exact before.above column created
  refine ⟨card, t, success, ?_⟩
  cases final : (s₀.cardsIn id).getLast? with
  | none =>
    have empty := List.getLast?_eq_none_iff.mp final
    have none_created : createdIn id actions = [] := by
      by_contra created
      exact before.above id created empty
    have single : (if id = id then card :: createdIn id actions else createdIn id actions) = [card] := by
      rw [if_pos rfl, none_created]
    have settled := contents.settle later.wellFormed empty single
    simp only [kept] at settled
    exact ⟨later, settled, above, made⟩
  | some last =>
    have member : card ∈ t.cardsIn id := by
      rw [(Store.createCard_ok success).2.1, if_pos rfl]
      exact List.mem_cons_self
    have different : card ≠ last := by
      rintro rfl
      have inside := before.contents.inside (List.mem_of_getLast? final)
      have older := (before.later.wellFormed.known_iff card).mpr ⟨id, inside⟩
      rw [unknown] at older
      cases older
    obtain ⟨s', moved, sunk⟩ := contents.sink later.wellFormed final member different
    simp only [kept] at sunk
    obtain ⟨_, _, _, _, whole⟩ := Store.moveCard_ok moved
    refine ⟨s', moved, noted ⟨later.moveCard moved, sunk, above, ?_⟩ (fun _ => rfl) trivial⟩
    rw [whole]
    exact made

/-- An issue is closed, which the columns do not show. -/
theorem close (before : Lowering s₀ lowers actions s) {issue : EntityId}
    (known : (s₀.entityById? issue).isSome) :
    ∃ s', s.closeIssue issue = (.ok (), s') ∧
      Lowering s₀ lowers (actions ++ [.issueClosed issue]) s' := by
  obtain ⟨s', success, later, columns, cards⟩ := before.later.closeIssue known
  refine ⟨s', success, noted ⟨later, ?_, before.above, ?_⟩ (fun _ => rfl) trivial⟩
  · unfold Store.StackedOn
    rw [columns]
    exact before.contents
  · intro action member
    exact (before.made action member).longer (cards ▸ List.prefix_refl _)

end Lowering

/-! ## Duties -/

/-- What is to go to the bottom because of rules that fire. -/
def loweredBy (rules : List PlacedRule) : ColumnId → CardId → Prop :=
  fun id card => ∃ rule ∈ rules, rule.column.id = id ∧ rule.card = card

/-- The companion cards of which actions tell. -/
def companionsOf (actions : List Action) : ColumnId → CardId → Prop :=
  fun id card => .companionCardAdded id card ∈ actions

theorem loweredBy_append (rules : List PlacedRule) (rule : PlacedRule) :
    loweredBy (rules ++ [rule]) = Store.withCard (loweredBy rules) rule.column.id rule.card := by
  funext id card
  apply propext
  unfold loweredBy Store.withCard
  constructor
  · rintro ⟨other, member, here, same⟩
    rcases List.mem_append.mp member with earlier | latest
    · exact .inl ⟨other, earlier, here, same⟩
    · cases List.mem_singleton.mp latest
      exact .inr ⟨here.symm, same.symm⟩
  · rintro (⟨other, member, here, same⟩ | ⟨rfl, rfl⟩)
    · exact ⟨other, List.mem_append_left _ member, here, same⟩
    · exact ⟨rule, by simp, rfl, rfl⟩

theorem companionsOf_append (actions : List Action) (id : ColumnId) (card : CardId) :
    companionsOf (actions ++ [.companionCardAdded id card]) =
      Store.withCard (companionsOf actions) id card := by
  funext column other
  apply propext
  unfold companionsOf Store.withCard
  simp

theorem companionsOf_append_repositioned (actions : List Action) (card : CardId) (id : ColumnId)
    (last : CardId) :
    companionsOf (actions ++ [.ruleCardRepositioned card id last]) = companionsOf actions := by
  funext column other
  apply propext
  unfold companionsOf
  simp

section Duties

variable {s₀ : Store} {lowers : ColumnId → CardId → Prop}

/-- The work of a duty puts the card of its rule to the bottom, and does not fail. -/
def Duty.Lowers (s₀ : Store) (duty : Duty) : Prop :=
  ∀ lowers, RuleRun.Triple Store.service (Lowering s₀ lowers) duty.work
    (fun _ => Lowering s₀ (Store.withCard lowers duty.rule.column.id duty.rule.card))
    fun _ _ _ => False

theorem PlacedRule.triple_lowering (wellFormed : s₀.WellFormed) {rule : PlacedRule}
    (shown : s₀.Shows rule) :
    RuleRun.Triple Store.service (Lowering s₀ lowers) (rule.lowering.forM Step.take)
      (fun _ => Lowering s₀ (Store.withCard lowers rule.column.id rule.card))
      fun _ _ _ => False := by
  obtain ⟨last, final⟩ := Option.isSome_iff_exists.mp
    (List.getLast?_isSome.mpr (List.ne_nil_of_mem shown.placed))
  have anchored := shown.anchored
  rw [final] at anchored
  unfold lowering
  by_cases same : rule.card = last
  · have resting : rule.anchor = none := by simp [anchored, Option.filter, same]
    rw [resting]
    rw [← same] at final
    exact RuleRun.triple_pure fun _ _ before => before.rest final
  · have raised : rule.anchor = some last := by simp [anchored, Option.filter, Ne.symm same]
    rw [raised]
    refine Step.triple_cons (Step.triple_take ?_) (RuleRun.triple_pure fun _ _ after => after)
    intro actions s before
    obtain ⟨s', success, after⟩ := before.lower wellFormed final shown.placed same
    exact ⟨(), s', success, after⟩

variable (automation : Automation)

theorem Automation.lowers_creation (wellFormed : s₀.WellFormed) {url : EntityUrl}
    {found : EntityBoards} (answer : Store.boardsForEntity url s₀ = .ok found) :
    ∀ round ∈ automation.creation found, round.duty.Lowers s₀ := by
  intro round member lowers
  obtain ⟨shown, steps⟩ := automation.mem_creation wellFormed answer member
  rw [Round.duty_work, steps]
  refine Step.triple_cons (Step.triple_take ?_) (PlacedRule.triple_lowering wellFormed shown)
  intro actions s before
  exact before.create shown.placed found.entity

theorem Automation.lowers_correction (wellFormed : s₀.WellFormed) {card : CardId}
    {context : CardContext} (answer : Store.cardContext card s₀ = .ok context) :
    ∀ round ∈ automation.correction context, round.duty.Lowers s₀ := by
  intro round member lowers
  obtain ⟨shown, steps⟩ := automation.mem_correction wellFormed answer member
  rw [Round.duty_work, steps, List.forM_eq_forM, List.forM_append]
  refine RuleRun.triple_bind (RuleRun.triple_forM ?_) fun _ =>
    PlacedRule.triple_lowering wellFormed shown
  intro step closing
  obtain ⟨issue, linked, rfl⟩ := automation.mem_closeLinked closing
  refine Step.triple_take ?_
  intro actions s before
  obtain ⟨s', success, after⟩ := before.close (Store.entityById?_of_linked linked)
  exact ⟨(), s', success, after⟩

/-- A companion card goes to the bottom of its column, too. -/
theorem RuleRun.triple_addCompanion_lowering {column : Column} (text : String)
    (there : (s₀.column? column.id).isSome)
    (lowest : column.lastCard?.map (·.id) = (s₀.cardsIn column.id).getLast?) :
    Triple Store.service (fun actions => Lowering s₀ (companionsOf actions) actions)
      (addCompanion column text) (fun _ actions => Lowering s₀ (companionsOf actions) actions)
      fun _ _ _ => False := by
  have made (actions : List Action) (s : Store)
      (before : Lowering s₀ (companionsOf actions) actions s) := before.companion there text
  simp only [← companionsOf_append] at made
  unfold addCompanion
  rw [lowest]
  cases final : (s₀.cardsIn column.id).getLast? with
  | none =>
    refine triple_bind (Q := fun card actions t =>
      Lowering s₀ (companionsOf (actions ++ [.companionCardAdded column.id card]))
        (actions ++ [.companionCardAdded column.id card]) t) (triple_attempt ?_) ?_
    · intro actions s before
      obtain ⟨card, t, success, after⟩ := made actions s before
      have asked : (Dialogue.call (.createCard column.id (.note text))).run Store.service s =
        (.ok card, t) := success
      rw [final] at after
      rw [asked]
      exact after
    · intro card
      exact triple_bind (triple_note fun _ _ after => after) fun _ =>
        triple_pure fun _ _ after => after
  | some last =>
    refine triple_bind (Q := fun card actions t => ∃ s',
      t.moveCard card column.id (some last) = (.ok (), s') ∧
        Lowering s₀ (companionsOf (actions ++ [.companionCardAdded column.id card]))
          (actions ++ [.companionCardAdded column.id card] ++
            [.ruleCardRepositioned card column.id last]) s') (triple_attempt ?_) ?_
    · intro actions s before
      obtain ⟨card, t, success, after⟩ := made actions s before
      have asked : (Dialogue.call (.createCard column.id (.note text))).run Store.service s =
        (.ok card, t) := success
      rw [final] at after
      rw [asked]
      exact after
    · intro card
      refine triple_bind (Q := fun _ actions t => ∃ s',
        t.moveCard card column.id (some last) = (.ok (), s') ∧ Lowering s₀ (companionsOf actions)
          (actions ++ [.ruleCardRepositioned card column.id last]) s')
        (triple_note fun _ _ after => after) ?_
      intro _
      refine triple_bind (Q := fun _ actions s => Lowering s₀ (companionsOf actions)
        (actions ++ [.ruleCardRepositioned card column.id last]) s) (triple_change ?_) ?_
      · intro actions t before
        obtain ⟨s', moved, after⟩ := before
        have asked : (Dialogue.call (.moveCard card column.id (some last))).run Store.service t =
          (.ok (), s') := moved
        rw [asked]
        exact after
      · intro _
        apply triple_note
        intro actions s after
        rw [companionsOf_append_repositioned]
        exact after

/-- The column for a companion card is one that shows no card with the note. -/
theorem Store.view_of_columnForNote? {url : EntityUrl} {found : EntityMemberships}
    (answer : cardMemberships url s₀ = .ok found) {name note : String} {column : Column}
    (chosen : columnForNote? (found.cards.getD []) name note = some column) :
    ∃ source ∈ s₀.columns, column = s₀.columnView source ∧
      ∀ card ∈ column.window, card.note ≠ some note := by
  obtain ⟨_, _, each⟩ := cardMemberships_ok answer
  obtain ⟨membership, listed, decided⟩ := List.exists_of_findSome?_eq_some chosen
  obtain ⟨board, stored, _, _, _, _, shown⟩ := each membership listed
  split at decided
  · cases decided
  · rename_i named
    split at decided
    · cases decided
    · rename_i unseen
      cases decided
      have viewed := List.mem_of_find?_eq_some named
      rw [shown] at viewed
      obtain ⟨source, inside, rfl⟩ := List.mem_map.mp viewed
      refine ⟨source, List.mem_flatMap.mpr ⟨board, stored, List.mem_of_mem_take inside⟩, rfl, ?_⟩
      simpa using unseen

/-- The column for a companion card is seen with its last card. -/
theorem Store.columnForNote?_some (wellFormed : s₀.WellFormed) {url : EntityUrl}
    {found : EntityMemberships} (answer : cardMemberships url s₀ = .ok found) {name note : String}
    {column : Column} (chosen : columnForNote? (found.cards.getD []) name note = some column) :
    (s₀.column? column.id).isSome ∧
      column.lastCard?.map (·.id) = (s₀.cardsIn column.id).getLast? := by
  obtain ⟨source, here, rfl, _⟩ := view_of_columnForNote? answer chosen
  refine ⟨Option.isSome_iff_exists.mpr ⟨source, wellFormed.column?_eq here⟩, ?_⟩
  rw [s₀.lastCard?_columnView, ← wellFormed.cardsIn_eq here]
  rfl

variable (policy : RetryPolicy) (event : Event)

/-- Whether all cards of entities stay where they are: a moved card is not moved again, and neither a
new card nor a side effect goes together with a move. -/
def Automation.KeepsPut : Target → Prop
  | .movedCard _ => True
  | .entity _ => automation.createsCard = true ∨ automation.sideEffect.isSome

/-- What goes to the bottom: companion cards, if a side effect takes the place of moves, and the
cards of the rules that fire otherwise. -/
def Automation.lowered (target : Target) (fired : List PlacedRule) (actions : List Action) :
    ColumnId → CardId → Prop :=
  match target, automation.createsCard with
  | .entity _, false => companionsOf actions
  | _, _ => loweredBy fired

theorem Automation.not_lowered (target : Target) (id : ColumnId) (card : CardId) :
    ¬ automation.lowered target [] [] id card := by
  cases target with
  | movedCard _ => simp [lowered, loweredBy]
  | entity _ =>
    cases creates : automation.createsCard <;> simp [lowered, creates, loweredBy, companionsOf]

/-- The work of any number of duties puts the cards of all their rules to the bottom. -/
theorem Duty.triple_forM_lowers {duties : List Duty} (each : ∀ duty ∈ duties, duty.Lowers s₀) :
    RuleRun.Triple Store.service (Lowering s₀ (loweredBy [])) (duties.forM Duty.work)
      (fun _ => Lowering s₀ (loweredBy (duties.map Duty.rule))) fun _ _ _ => False := by
  refine RuleRun.triple_forM_done (I := fun done => Lowering s₀ (loweredBy (done.map Duty.rule))) ?_
  intro done duty rest split
  rw [List.map_append, List.map_singleton, loweredBy_append]
  exact each duty (by simp [split]) _

/-- Whatever has been read, the work of some of the duties lowers the cards that it should. -/
def Agenda.Lowers (s : Store) (lowered : List PlacedRule → List Action → ColumnId → CardId → Prop)
    (agenda : Agenda) : Prop :=
  ∀ answer, Store.service agenda.reads s = (.ok answer, s) →
    ∀ duties : List Duty, (∀ duty ∈ duties, duty ∈ agenda.duties answer) →
      RuleRun.Triple Store.service (fun actions t => actions = [] ∧ t = s)
        (duties.forM Duty.work)
        (fun _ actions => Lowering s (lowered (duties.map Duty.rule) actions) actions)
        fun _ _ _ => False

theorem Automation.lowers_agenda {s : Store} (wellFormed : s.WellFormed) {target : Target}
    (keeps : automation.KeepsPut target) :
    (automation.agenda target).Lowers s (automation.lowered target) := by
  have planned {duties : List Duty} (each : ∀ duty ∈ duties, duty.Lowers s) :
      RuleRun.Triple Store.service (fun actions t => actions = [] ∧ t = s) (duties.forM Duty.work)
        (fun _ actions => Lowering s (loweredBy (duties.map Duty.rule)) actions)
        fun _ _ _ => False := by
    rintro actions t ⟨rfl, rfl⟩
    exact Duty.triple_forM_lowers each _ _ (.start wellFormed (by simp [loweredBy]))
  cases target with
  | movedCard card =>
    intro context answer duties some
    refine planned fun duty member => ?_
    obtain ⟨round, listed, rfl⟩ := List.mem_map.mp (some duty member)
    exact automation.lowers_correction wellFormed (Store.ok_of_read_eq answer) round listed
  | entity url =>
    by_cases creates : automation.createsCard = true
    · rw [automation.agenda_of_creates creates]
      intro found answer duties some
      have created : automation.lowered (.entity url) = fun rules _ => loweredBy rules := by
        unfold lowered
        rw [creates]
      rw [created]
      refine planned fun duty member => ?_
      obtain ⟨round, listed, rfl⟩ := List.mem_map.mp (some duty member)
      exact automation.lowers_creation wellFormed (Store.ok_of_read_eq answer) round listed
    · obtain ⟨effect, named⟩ := Option.isSome_iff_exists.mp (keeps.resolve_left creates)
      rw [automation.agenda_of_effect creates named]
      intro found answer duties some
      have added : automation.lowered (.entity url) = fun _ => companionsOf := by
        unfold lowered
        rw [show automation.createsCard = false by simpa using creates]
      rw [added]
      rintro actions t ⟨rfl, rfl⟩
      refine RuleRun.triple_forM (P := fun actions => Lowering t (companionsOf actions) actions) ?_ _ _
        (.start wellFormed (by simp [companionsOf]))
      intro duty member
      obtain ⟨⟨membership, rule⟩, paired, rfl⟩ := List.mem_map.mp (some duty member)
      dsimp only
      rw [RuleRun.carryOut_memberships]
      split
      · exact RuleRun.triple_pure fun _ _ before => before
      · rename_i column text companion
        obtain ⟨name, chosen⟩ := SideEffect.column_of_companion? companion
        obtain ⟨there, lowest⟩ :=
          Store.columnForNote?_some wellFormed (Store.ok_of_read_eq answer) chosen
        exact RuleRun.triple_addCompanion_lowering text there lowest

/-- The run of an automation that moves no card of an entity fails only if it cannot read, and lowers
the cards that it should. -/
theorem Automation.lowering_work {s : Store} (wellFormed : s.WellFormed) (reads : s.failingReads = 0)
    {target : Target} (keeps : automation.KeepsPut target)
    {answer : (automation.agenda target).reads.Answer}
    (read : Store.service (automation.agenda target).reads s = (.ok answer, s)) :
    ∃ actions s', RuleRun.perform Store.service (automation.work policy event target) [] s =
        ((.ok (), actions), s') ∧
      Lowering s (automation.lowered target (automation.fired policy event Store.service target s)
        actions) actions s' := by
  have answered : (Dialogue.read policy (automation.agenda target).reads).run Store.service s =
      (.ok answer, s) := Dialogue.run_read_ok read
  have calm : Store.Calm s s := ⟨reads, rfl⟩
  have lowering := automation.lowers_agenda wellFormed keeps answer read
    (automation.due event s ((automation.agenda target).duties answer))
    (fun duty member => List.mem_of_mem_filter member) [] s ⟨rfl, rfl⟩
  rw [← automation.perform_discharge policy event _ [] s calm] at lowering
  unfold fired
  rw [automation.perform_work policy event answered, answered]
  rcases performed : RuleRun.perform Store.service (automation.discharge policy event
    ((automation.agenda target).duties answer)) [] s with ⟨⟨error | _, actions⟩, s'⟩
  · rw [performed] at lowering
    exact lowering.elim
  · rw [performed] at lowering
    refine ⟨actions, s', rfl, ?_⟩
    dsimp only
    rw [automation.firedAmong_eq policy event _ [] actions s s' calm performed]
    exact lowering

end Duties

/-- When no card of an entity moves, every column ends with the cards that are lowered, whatever they
are: the cards of rules that fire, or companion cards. Cards made for entities are at the top, the
newest one first, and all others in between are in the order that they had. -/
theorem Automation.lowers_to_bottom (automation : Automation) (policy : RetryPolicy) (event : Event)
    (target : Target) (s : Store) (reachable : s.Reachable) (reads : s.failingReads = 0)
    (keeps : automation.KeepsPut target) :
    let reached := (automation.outcome policy event target).run Store.service s
    let fired := automation.fired policy event Store.service target s
    (reached.1.error = none ∨ reached.1.actions = [] ∧ reached.2 = s) ∧
      (∀ action ∈ reached.1.actions, action.Made s reached.2) ∧
      ∀ id, ∃ lowered : List CardId, lowered.Nodup ∧
        (∀ card, card ∈ lowered ↔ automation.lowered target fired reached.1.actions id card) ∧
        reached.2.cardsIn id = createdIn id reached.1.actions ++
          (s.cardsIn id).filter (· ∉ lowered) ++ lowered := by
  have wellFormed := reachable.wellFormed
  have bottom {fired : List PlacedRule} {actions : List Action} {s' : Store}
      (lowering : Lowering s (automation.lowered target fired actions) actions s') (id : ColumnId) :
      ∃ lowered : List CardId, lowered.Nodup ∧
        (∀ card, card ∈ lowered ↔ automation.lowered target fired actions id card) ∧
        s'.cardsIn id = createdIn id actions ++ (s.cardsIn id).filter (· ∉ lowered) ++ lowered := by
    obtain ⟨sunk, distinct, exactly, stack⟩ := lowering.contents id
    rw [stack]
    exact Store.stacked_eq_append (wellFormed.nodup_cardsIn id) distinct exactly
  have isRead := automation.isRead_agenda target
  have same := Store.service_calm isRead reads
  intro reached fired
  cases answer : (Store.service (automation.agenda target).reads s).1 with
  | error error =>
    have failed : (Dialogue.read policy (automation.agenda target).reads).run Store.service s =
        (.error error, s) :=
      (Store.run_read_calm policy isRead reads).trans (Prod.ext answer same)
    obtain ⟨ran, unfired⟩ := automation.run_outcome_unread policy event failed
    subst reached fired
    rw [ran, unfired]
    exact ⟨.inr ⟨rfl, rfl⟩, by simp,
      bottom (.start wellFormed (automation.not_lowered target))⟩
  | ok answer' =>
    have read : Store.service (automation.agenda target).reads s = (.ok answer', s) :=
      Prod.ext answer same
    obtain ⟨actions, s', performed, lowering⟩ :=
      automation.lowering_work policy event wellFormed reads keeps read
    have ran : reached = (⟨automation.name, actions, none⟩, s') := automation.run_outcome performed
    rw [ran]
    exact ⟨.inl rfl, lowering.made, bottom lowering⟩

/-- Two rules, one of them declared twice, with a note between them. -/
def doubled : Store :=
  [.addBoard (.owner "octo") "Plan", .addColumn ⟨"board-1"⟩ "Inbox",
    .addEntity ⟨.https, "github.com", "octo", "demo", .issue, 7⟩,
    .appendCard ⟨"column-2"⟩ (.note "- `open`\n- `open`"),
    .appendCard ⟨"column-2"⟩ (.note "nothing"),
    .appendCard ⟨"column-2"⟩ (.note "- `open`")].foldl Store.perform .empty

/-- Every declaration makes a card for the issue. The last card is that of a rule itself, so the other
rule ends below it. -/
theorem Automation.lowers_to_bottom_doubled :
    let automation : Automation := ⟨"open", .issueLabeled, .payload .always, true, none⟩
    let target : Target := .entity ⟨.https, "github.com", "octo", "demo", .issue, 7⟩
    let reached := (automation.outcome .default (.ofLabel "bug") target).run Store.service doubled
    let fired := automation.fired .default (.ofLabel "bug") Store.service target doubled
    reached.1.error = none ∧ fired.map (·.card) = [⟨"card-4"⟩, ⟨"card-4"⟩, ⟨"card-6"⟩] ∧
      reached.2.cardsIn ⟨"column-2"⟩ =
        [⟨"card-9"⟩, ⟨"card-8"⟩, ⟨"card-7"⟩, ⟨"card-5"⟩, ⟨"card-6"⟩, ⟨"card-4"⟩] ∧
      ∃ lowered : List CardId, lowered.Nodup ∧
        (∀ card, card ∈ lowered ↔ automation.lowered target fired reached.1.actions ⟨"column-2"⟩ card) ∧
        reached.2.cardsIn ⟨"column-2"⟩ = createdIn ⟨"column-2"⟩ reached.1.actions ++
          (doubled.cardsIn ⟨"column-2"⟩).filter (· ∉ lowered) ++ lowered := by
  intro automation target reached fired
  obtain ⟨_, _, bottom⟩ := automation.lowers_to_bottom .default (.ofLabel "bug") target doubled
    (Store.Reachable.foldl _ _ .empty) (by decide +kernel) (.inl rfl)
  exact ⟨by decide +kernel, by decide +kernel, by decide +kernel, bottom ⟨"column-2"⟩⟩

end BoardRules
