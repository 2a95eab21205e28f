import BoardRules.Proofs.Dispatch.Absorption
import BoardRules.Proofs.Store.Frame

/-!
# Bystanders

Whatever a dispatch does and wherever it fails, it moves no cards but those of the event's entity and
those of rules that have fired, these within their columns and those within their boards.
-/
namespace BoardRules

open Store (Frame)

variable {s t : Store} {target : Target} {rules : List CardId}

/-! ## Rounds -/

section Rounds

variable (automation : Automation)

/-- A moved card leads to the rules of its column. -/
theorem Automation.mem_correction (wellFormed : s.WellFormed) {card : CardId} {context : CardContext}
    (answer : Store.cardContext card s = .ok context) {round : Round}
    (member : round ∈ automation.correction context) :
    s.Shows round.rule ∧
      round.steps = automation.closeLinked (s.linkedEntity? card) ++ round.rule.lowering := by
  obtain ⟨column, stored, _, rfl⟩ := Store.cardContext_ok answer
  obtain ⟨rule, named, rfl⟩ := List.mem_map.mp member
  have extracted : rule ∈ PlacedRule.ofColumns [] ([column].map s.columnView) :=
    (PlacedRule.mem_named.mp named).1
  exact ⟨wellFormed.shows (by simpa using stored) extracted, rfl⟩

theorem Automation.mem_creation (wellFormed : s.WellFormed) {url : EntityUrl} {found : EntityBoards}
    (answer : Store.boardsForEntity url s = .ok found) {round : Round}
    (member : round ∈ automation.creation found) :
    s.Shows round.rule ∧
      round.steps = .create round.rule.column.id found.entity :: round.rule.lowering := by
  obtain ⟨boards, stored, views⟩ := Store.boardsForEntity_ok answer
  obtain ⟨rule, named, rfl⟩ := List.mem_map.mp member
  rw [views] at named
  exact ⟨wellFormed.shows_ofBoards stored (PlacedRule.mem_named.mp named).1, rfl⟩

/-- A card of the entity, the board that it has been found on, and a rule of that board. -/
structure Automation.Candidate (s : Store) (url : EntityUrl) (membership : Membership)
    (rule : PlacedRule) : Prop where
  shown : s.Shows rule
  own : s.owns (.entity url) membership.card = true
  together : ∃ board id, (board, id, membership.card) ∈ s.places ∧ (board, rule.column.id) ∈ s.hosts

theorem Automation.Candidate.nearby (wellFormed : s.WellFormed) {url : EntityUrl}
    {membership : Membership} {rule : PlacedRule} (candidate : Candidate s url membership rule)
    (board : BoardId) (id : ColumnId) (place : (board, id, membership.card) ∈ s.places) :
    (board, rule.column.id) ∈ s.hosts := by
  obtain ⟨other, there, found, host⟩ := candidate.together
  rw [(wellFormed.place_unique place found).1]
  exact host

/-- A membership is a card of the entity on the board that it shows. -/
theorem Store.place_of_membership {url : EntityUrl} {found : EntityMemberships}
    (answer : cardMemberships url s = .ok found) {membership : Membership}
    (listed : membership ∈ found.cards.getD []) :
    s.owns (.entity url) membership.card = true ∧ ∃ board ∈ s.boards,
      membership.board = s.boardView board ∧ ∃ id, (board.id, id, membership.card) ∈ s.places := by
  obtain ⟨entity, known, each⟩ := cardMemberships_ok answer
  obtain ⟨board, stored, column, inside, placed, belongs, shown⟩ := each membership listed
  refine ⟨owns_entity.mpr ⟨entity, entity?_of_ok known, belongs⟩, board, stored, shown, column.id, ?_⟩
  exact List.mem_flatMap.mpr ⟨board, stored, List.mem_flatMap.mpr
    ⟨column, inside, List.mem_map_of_mem placed⟩⟩

theorem Automation.mem_candidates (wellFormed : s.WellFormed) {url : EntityUrl}
    {found : EntityMemberships} (answer : Store.cardMemberships url s = .ok found)
    {membership : Membership} {rule : PlacedRule}
    (member : (membership, rule) ∈ automation.candidates (found.cards.getD [])) :
    Candidate s url membership rule := by
  obtain ⟨source, listed, paired⟩ := List.mem_flatMap.mp member
  obtain ⟨_, named, same⟩ := List.mem_map.mp paired
  cases same
  obtain ⟨own, board, stored, shown, id, place⟩ := Store.place_of_membership answer listed
  have extracted := (PlacedRule.mem_named.mp named).1
  rw [shown] at extracted
  have views : [s.boardView board] = [board].map s.boardView := rfl
  have rules : s.Shows rule := wellFormed.shows_ofBoards (by simpa using stored) (views ▸ extracted)
  exact ⟨rules, own, board.id, id, place, Store.host_of_extracted stored extracted⟩

theorem Automation.mem_transition (wellFormed : s.WellFormed) {url : EntityUrl}
    {found : EntityMemberships} (answer : Store.cardMemberships url s = .ok found) {round : Round}
    (member : round ∈ automation.transition found) :
    ∃ membership, Candidate s url membership round.rule ∧
      round.steps = .raise membership.card round.rule.column.id :: round.rule.lowering := by
  rw [transition_eq] at member
  obtain ⟨⟨membership, rule⟩, paired, rfl⟩ := List.mem_map.mp member
  exact ⟨membership, automation.mem_candidates wellFormed answer paired, rfl⟩

end Rounds

/-! ## Steps and duties -/

/-- What a step may do for the target of an event when the rules on the given cards have fired. -/
def Step.Allowed (s : Store) (target : Target) (rules : List CardId) : Step → Prop
  | close issue => s.linkedIssue? target = some issue
  | create _ _ => ∃ url, target = .entity url
  | raise card column => s.owns target card = true ∧
      ∀ board id, (board, id, card) ∈ s.places → (board, column) ∈ s.hosts
  | lower card column _ => card ∈ rules ∧ card ∈ s.cardsIn column

theorem Step.framed_call (wellFormed : s.WellFormed) {step : Step}
    (allowed : step.Allowed s target rules) (frame : Frame s target rules t) :
    Frame s target rules (Store.service step.call t).2 := by
  cases step with
  | close issue => exact frame.closeIssue allowed
  | create column entity =>
    obtain ⟨url, rfl⟩ := allowed
    exact frame.createCard column _
  | raise card column =>
    obtain ⟨own, nearby⟩ := allowed
    refine frame.moveCard ?_ ?_ nearby none
    · simp [Store.spares, own]
    · intro id _ foreign
      rw [own] at foreign
      cases foreign
  | lower card column anchor =>
    obtain ⟨fired, placed⟩ := allowed
    refine frame.moveCard ?_ ?_ ?_ (some anchor)
    · simp [Store.spares, fired]
    · intro id inside _
      exact wellFormed.column_unique inside placed
    · intro board id place
      obtain ⟨host, inside⟩ := wellFormed.mem_places.mp place
      rw [wellFormed.column_unique placed inside]
      exact host

theorem Step.triple_take_framed (wellFormed : s.WellFormed) {step : Step}
    (allowed : step.Allowed s target rules) :
    RuleRun.Triple Store.service (fun _ => Frame s target rules) step.take
      (fun _ _ => Frame s target rules) fun _ _ => Frame s target rules :=
  Step.triple_take_kept fun _ => Step.framed_call wellFormed allowed

/-- A new card can be moved to any place. -/
theorem RuleRun.triple_moveBehind_framed (wellFormed : s.WellFormed) {card : CardId}
    (unknown : s.card? card = none) (column : ColumnId) (anchor : Option CardId) :
    Triple Store.service (fun _ => Frame s target rules) (moveBehind card column anchor)
      (fun _ _ => Frame s target rules) fun _ _ => Frame s target rules := by
  have absent (id : ColumnId) : card ∉ s.cardsIn id := by
    intro inside
    have known := (wellFormed.known_iff card).mpr ⟨id, inside⟩
    rw [unknown] at known
    cases known
  cases anchor with
  | none => exact triple_pure fun _ _ frame => frame
  | some anchor =>
    refine triple_bind (Q := fun _ _ => Frame s target rules) ?_ fun _ =>
      triple_note fun _ _ frame => frame
    apply triple_change
    intro actions t frame
    refine Dialogue.either_of_both (frame.moveCard ?_ ?_ ?_ (some anchor))
    · simp [Store.spares, unknown]
    · intro id inside _
      exact absurd inside (absent id)
    · intro board id place
      exact absurd (wellFormed.mem_places.mp place).2 (absent id)

theorem RuleRun.triple_addCompanion_framed (wellFormed : s.WellFormed) {url : EntityUrl}
    (column : Column) (text : String) :
    Triple Store.service (fun _ => Frame s (.entity url) rules) (addCompanion column text)
      (fun _ _ => Frame s (.entity url) rules) fun _ _ => Frame s (.entity url) rules := by
  refine triple_bind (Q := fun card _ t => Frame s (.entity url) rules t ∧ s.card? card = none) ?_ ?_
  · apply triple_attempt
    intro actions t frame
    have kept := frame.createCard column.id (.note text)
    change Dialogue.Either _ _ (t.createCard column.id (.note text)).1
      (t.createCard column.id (.note text)).2
    rcases result : t.createCard column.id (.note text) with ⟨_ | card, t'⟩ <;> rw [result] at kept
    · exact kept
    · rw [(Store.createCard_ok result).1]
      refine ⟨kept, ?_⟩
      by_contra known
      have older := frame.known (Option.isSome_iff_ne_none.mpr known)
      rw [frame.wellFormed.card?_next] at older
      cases older
  · intro card
    apply triple_given
    intro unknown
    exact triple_bind (triple_note fun _ _ frame => frame) fun _ =>
      triple_moveBehind_framed wellFormed unknown column.id _

/-- What is needed of a duty: its rule is not on a card of the entity, and its work stays within the
frame once the rule has fired. -/
def Duty.Framed (s : Store) (target : Target) (duty : Duty) : Prop :=
  s.owns target duty.rule.card = false ∧ ∀ rules, duty.rule.card ∈ rules →
    RuleRun.Triple Store.service (fun _ => Frame s target rules) duty.work
      (fun _ _ => Frame s target rules) fun _ _ => Frame s target rules

/-- The card of a rule stands for no entity. -/
theorem Store.Shows.foreign {rule : PlacedRule} (shown : s.Shows rule) (wellFormed : s.WellFormed)
    (target : Target) : s.owns target rule.card = false := by
  have declared := shown.declared
  unfold Store.declarations at declared
  cases note : s.cardNote? rule.card with
  | none =>
    rw [note] at declared
    cases declared
  | some text => exact wellFormed.foreign_of_note note target

theorem PlacedRule.allowed_lowering {rule : PlacedRule} (shown : s.Shows rule)
    (fired : rule.card ∈ rules) : ∀ step ∈ rule.lowering, step.Allowed s target rules := by
  intro step member
  obtain ⟨anchor, _, rfl⟩ := List.mem_map.mp member
  exact ⟨fired, shown.placed⟩

/-- The work of a round whose rule has been read, when all its steps are allowed. -/
theorem Round.framed (wellFormed : s.WellFormed) {round : Round} (shown : s.Shows round.rule)
    (allowed : ∀ rules, round.rule.card ∈ rules → ∀ step ∈ round.steps, step.Allowed s target rules) :
    round.duty.Framed s target := by
  refine ⟨shown.foreign wellFormed target, ?_⟩
  intro rules fired
  exact RuleRun.triple_forM fun step member =>
    Step.triple_take_framed wellFormed (allowed rules fired step member)

variable (automation : Automation)

theorem Automation.mem_closeLinked {linked : Option LinkedEntity} {step : Step}
    (closing : step ∈ automation.closeLinked linked) :
    ∃ issue, linked = some issue ∧ step = .close issue.id := by
  unfold closeLinked at closing
  split at closing
  · split at closing
    · cases closing
    · exact ⟨_, rfl, List.mem_singleton.mp closing⟩
  · cases closing

theorem Automation.framed_correction (wellFormed : s.WellFormed) {card : CardId}
    {context : CardContext} (answer : Store.cardContext card s = .ok context) :
    ∀ round ∈ automation.correction context, round.duty.Framed s (.movedCard card) := by
  intro round member
  obtain ⟨shown, steps⟩ := automation.mem_correction wellFormed answer member
  refine Round.framed wellFormed shown ?_
  intro rules fired step taken
  rw [steps] at taken
  rcases List.mem_append.mp taken with closing | lowering
  · obtain ⟨issue, linked, rfl⟩ := automation.mem_closeLinked closing
    exact congrArg (Option.map LinkedEntity.id) linked
  · exact PlacedRule.allowed_lowering shown fired step lowering

theorem Automation.framed_creation (wellFormed : s.WellFormed) {url : EntityUrl}
    {found : EntityBoards} (answer : Store.boardsForEntity url s = .ok found) :
    ∀ round ∈ automation.creation found, round.duty.Framed s (.entity url) := by
  intro round member
  obtain ⟨shown, steps⟩ := automation.mem_creation wellFormed answer member
  refine Round.framed wellFormed shown ?_
  intro rules fired step taken
  rw [steps] at taken
  rcases List.mem_cons.mp taken with rfl | lowering
  · exact ⟨url, rfl⟩
  · exact PlacedRule.allowed_lowering shown fired step lowering

theorem Automation.framed_transition (wellFormed : s.WellFormed) {url : EntityUrl}
    {found : EntityMemberships} (answer : Store.cardMemberships url s = .ok found) :
    ∀ round ∈ automation.transition found, round.duty.Framed s (.entity url) := by
  intro round member
  obtain ⟨membership, candidate, steps⟩ := automation.mem_transition wellFormed answer member
  refine Round.framed wellFormed candidate.shown ?_
  intro rules fired step taken
  rw [steps] at taken
  rcases List.mem_cons.mp taken with rfl | lowering
  · exact ⟨candidate.own, candidate.nearby wellFormed⟩
  · exact PlacedRule.allowed_lowering candidate.shown fired step lowering

theorem Automation.framed_agenda (wellFormed : s.WellFormed) (target : Target) :
    (automation.agenda target).Each s (Duty.Framed s target) := by
  cases target with
  | movedCard card =>
    intro context answer duty member
    obtain ⟨round, listed, rfl⟩ := List.mem_map.mp member
    exact automation.framed_correction wellFormed (Store.ok_of_read_eq answer) round listed
  | entity url =>
    by_cases creates : automation.createsCard = true
    · rw [automation.agenda_of_creates creates]
      intro found answer duty member
      obtain ⟨round, listed, rfl⟩ := List.mem_map.mp member
      exact automation.framed_creation wellFormed (Store.ok_of_read_eq answer) round listed
    · cases named : automation.sideEffect with
      | none =>
        rw [automation.agenda_of_moves creates named]
        intro found answer duty member
        obtain ⟨round, listed, rfl⟩ := List.mem_map.mp member
        exact automation.framed_transition wellFormed (Store.ok_of_read_eq answer) round listed
      | some effect =>
        rw [automation.agenda_of_effect creates named]
        intro found answer duty member
        obtain ⟨⟨membership, rule⟩, paired, rfl⟩ := List.mem_map.mp member
        have candidate := automation.mem_candidates wellFormed (Store.ok_of_read_eq answer) paired
        refine ⟨candidate.shown.foreign wellFormed _, ?_⟩
        intro rules _
        dsimp only
        rw [RuleRun.carryOut_memberships]
        split
        · exact RuleRun.triple_pure fun _ _ frame => frame
        · exact RuleRun.triple_addCompanion_framed wellFormed _ _

/-! ## Automations and dispatches -/

theorem Store.framed_read (frame : Frame s target rules t) {α : Type}
    (look : Store → Except TrackingError α) : Frame s target rules (t.read look).2 := by
  rcases t.read_cases look with ⟨_, answered⟩ | ⟨n, _, failed⟩
  · rw [answered]
    exact frame
  · rw [failed]
    exact frame.failNextReads n

namespace Automation

variable (policy : RetryPolicy) (event : Event)

theorem triple_fires_framed (rule : PlacedRule) :
    RuleRun.Triple Store.service (fun _ => Frame s target rules) (automation.fires policy event rule)
      (fun _ _ => Frame s target rules) fun _ _ => Frame s target rules :=
  triple_fires fun pullRequest _ _ frame =>
    Store.framed_read frame fun s => .ok (s.reviewsOf pullRequest)

/-- What holds however many failures are due, and is kept as rules fire and as their work is done, holds
after the run of an automation, whether or not it fails. -/
theorem outcome_kept {I : List PlacedRule → Store → Prop} (target : Target)
    (start : ∀ n, I [] (s.failNextReads n))
    (decided : ∀ rule done, RuleRun.Triple Store.service (fun _ => I done)
      (automation.fires policy event rule) (fun _ _ => I done) fun _ _ => I done)
    (duties : (automation.agenda target).Each (s.failNextReads 0) fun duty =>
      (∀ done t, I done t → I (done ++ [duty.rule]) t) ∧ ∀ done, duty.rule ∈ done →
        RuleRun.Triple Store.service (fun _ => I done) duty.work (fun _ _ => I done) fun _ _ => I done) :
    I (automation.fired policy event Store.service target s)
      ((automation.outcome policy event target).run Store.service s).2 := by
  rcases Store.run_read_cases policy (automation.isRead_agenda target) s with
    ⟨error, left, failed⟩ | ⟨answer, read, answered⟩
  · obtain ⟨ran, unfired⟩ := automation.run_outcome_unread policy event failed
    rw [ran, unfired]
    exact start left
  · have each := duties answer read
    have state : ((automation.outcome policy event target).run Store.service s).2 =
        (RuleRun.perform Store.service (automation.work policy event target) [] s).2 := by
      rw [automation.run_outcome rfl]
      rfl
    unfold fired
    rw [state, automation.perform_work policy event answered, answered]
    exact automation.discharge_kept policy event _ (fun duty _ => decided duty.rule)
      (fun duty member => (each duty member).1) (fun duty member => (each duty member).2)
      [] [] (s.failNextReads 0) (start 0)

/-- The frame of a single automation, whether or not it fails. -/
theorem framed_outcome (wellFormed : s.WellFormed) (target : Target) :
    Frame s target ((automation.fired policy event Store.service target s).map (·.card))
      ((automation.outcome policy event target).run Store.service s).2 := by
  have calm : (s.failNextReads 0).WellFormed :=
    ((Frame.refl wellFormed target).failNextReads 0).wellFormed
  have kept := automation.outcome_kept policy event (s := s)
    (I := fun done => Frame (s.failNextReads 0) target (done.map (·.card))) target
    (fun n => (Frame.refl calm target).failNextReads n)
    (fun rule _ => automation.triple_fires_framed policy event rule) ?_
  · exact kept.of_failNextReads
  · intro answer read duty member
    obtain ⟨foreign, works⟩ := automation.framed_agenda calm target answer read duty member
    refine ⟨?_, fun done fired => works (done.map (·.card)) (List.mem_map_of_mem fired)⟩
    intro done t frame
    rw [List.map_append]
    exact frame.fire foreign

end Automation

namespace Dispatcher

variable (policy : RetryPolicy) (event : Event)

/-- The rules that fire while automations run one after the other. -/
def firedIn {σ : Type} (service : Service σ) (target : Target) : List Automation → σ → List PlacedRule
  | [], _ => []
  | automation :: rest, s =>
    automation.fired policy event service target s ++
      firedIn service target rest ((automation.outcome policy event target).run service s).2

/-- The rules that fire in a dispatch. -/
def fired {σ : Type} (dispatcher : Dispatcher) (service : Service σ) (s : σ) : List PlacedRule :=
  if event.trigger ≠ dispatcher.trigger then []
  else
    match (dispatcher.resolve event).run service s with
    | (.error _, _) => []
    | (.ok target, s) => firedIn dispatcher.policy event service target dispatcher.automations s

theorem framed_outcomes (target : Target) (automations : List Automation) (wellFormed : s.WellFormed) :
    Frame s target ((firedIn policy event Store.service target automations s).map (·.card))
      ((outcomes policy event target automations).run Store.service s).2 := by
  induction automations generalizing s with
  | nil => exact Frame.refl wellFormed target
  | cons automation rest others =>
    have first := automation.framed_outcome policy event wellFormed target
    have following := others first.wellFormed
    unfold firedIn outcomes
    rw [List.map_append, Dialogue.run_bind, Dialogue.run_bind]
    exact first.trans wellFormed following

/-- No dispatch moves bystanders, whatever errors it meets: an event that cannot be resolved changes
nothing at all, and otherwise all is as the frame of its target says. -/
theorem spares_bystanders (dispatcher : Dispatcher) (event : Event) (s : Store)
    (reachable : s.Reachable) :
    let reached := ((dispatcher.dispatch event).run Store.service s).2
    match ((dispatcher.resolve event).run Store.service s).1 with
    | .error _ => reached = s.failNextReads reached.failingReads
    | .ok target =>
      Frame s target ((dispatcher.fired event Store.service s).map (·.card)) reached := by
  intro reached
  have wellFormed := reachable.wellFormed
  obtain ⟨left, resolved⟩ := dispatcher.run_resolve event s
  subst reached
  unfold dispatch fired
  by_cases mismatch : event.trigger ≠ dispatcher.trigger
  · rw [if_pos mismatch, if_pos mismatch]
    split
    · rfl
    · exact Frame.refl wellFormed _
  · rw [if_neg mismatch, if_neg mismatch, Dialogue.run_bind]
    rcases result : (dispatcher.resolve event).run Store.service s with ⟨error | target, s'⟩ <;>
      rw [result] at resolved <;> subst resolved
    · rfl
    · have framed := framed_outcomes dispatcher.policy event target dispatcher.automations
        ((Frame.refl wellFormed target).failNextReads left).wellFormed
      dsimp only
      rw [Dialogue.run_bind]
      exact framed.of_failNextReads

/-- A labeled issue goes to the column of the rule on `card-5`. The note below that stays. -/
theorem spares_bystanders_label :
    let dispatcher : Dispatcher :=
      ⟨.issueLabeled, [.moving "added_label" .issueLabeled .labelIs], .default⟩
    let target : Target := .entity ⟨.https, "github.com", "octo", "demo", .issue, 7⟩
    let rules := (dispatcher.fired (.ofLabel "bug") Store.service untriaged).map (·.card)
    let reached := ((dispatcher.dispatch (.ofLabel "bug")).run Store.service untriaged).2
    rules = [⟨"card-5"⟩] ∧
      (reached.cardsIn ⟨"column-2"⟩).filter (untriaged.spares target rules) = [⟨"card-6"⟩] := by
  intro dispatcher target rules reached
  have resolved : ((dispatcher.resolve (.ofLabel "bug")).run Store.service untriaged).1 =
      .ok target := by decide +kernel
  have framed := dispatcher.spares_bystanders (.ofLabel "bug") untriaged
    (Store.Reachable.foldl _ _ .empty)
  dsimp only at framed
  rw [resolved] at framed
  exact ⟨by decide +kernel, (framed.order _).trans (by decide +kernel)⟩

end Dispatcher

end BoardRules
