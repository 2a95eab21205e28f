import BoardRules.Proofs.Dispatch.Lowering
import BoardRules.Proofs.Store.EntityCards

/-!
# Anchors

A rule's card goes behind a card that was the last one of its column when the boards were read. As
long as the entity has one card on every board that card is still in the column: the only card of an
entity that the rule can have for an anchor is the one that has just been moved there.
-/
namespace BoardRules

open Store (Frame)

variable {s t : Store} {rules : List CardId} {url : EntityUrl}

/-! ## Moves -/

namespace Automation.Candidate

variable {membership : Membership} {rule : PlacedRule}

/-- The card of the entity can be moved into the column of the rule. -/
theorem raise (wellFormed : s.WellFormed) (candidate : Candidate s url membership rule)
    (frame : Frame s (.entity url) rules t) :
    ∃ t', t.moveCard membership.card rule.column.id none = (.ok (), t') ∧
      Frame s (.entity url) rules t' ∧ membership.card ∈ t'.cardsIn rule.column.id := by
  obtain ⟨board, id, place, _⟩ := candidate.together
  obtain ⟨column, found, _⟩ := Store.column?_of_mem candidate.shown.placed
  have there : (t.column? rule.column.id).isSome := by
    rw [Store.column?_isSome_of_layout frame.layout, found]
    rfl
  obtain ⟨target, here⟩ := Option.isSome_iff_exists.mp there
  obtain ⟨t', success, contents, _⟩ := Store.moveCard_of_insertAt
    (frame.known (wellFormed.known_place place)) here
    (show Store.insertAt membership.card none _ = some (membership.card :: _) from rfl)
  have allowed : (Step.raise membership.card rule.column.id).Allowed s (.entity url) rules :=
    ⟨candidate.own, candidate.nearby wellFormed⟩
  have kept : Frame s (.entity url) rules (t.moveCard membership.card rule.column.id none).2 :=
    Step.framed_call wellFormed allowed frame
  rw [success] at kept
  refine ⟨t', success, kept, ?_⟩
  rw [contents]
  exact List.mem_cons_self

/-- The anchor is still in the column once the card of the entity has been moved there. -/
theorem anchor_inside (wellFormed : s.WellFormed) (single : s.SingleCards (.entity url))
    (candidate : Candidate s url membership rule) (frame : Frame s (.entity url) rules t)
    (raised : membership.card ∈ t.cardsIn rule.column.id) {anchor : CardId}
    (last : anchor ∈ s.cardsIn rule.column.id) : anchor ∈ t.cardsIn rule.column.id := by
  cases own : s.owns (.entity url) anchor with
  | false => exact frame.column _ anchor last own
  | true =>
    -- The anchor is a card of the entity on the same board, so it is the very card that came.
    obtain ⟨board, id, place, host⟩ := candidate.together
    have beside : (board, rule.column.id, anchor) ∈ s.places := wellFormed.mem_places.mpr ⟨host, last⟩
    have same : anchor = membership.card := single _ beside _ place rfl own candidate.own
    rw [same]
    exact raised

/-- The card of the rule can be put back to the bottom. -/
theorem lower (wellFormed : s.WellFormed) (single : s.SingleCards (.entity url))
    (candidate : Candidate s url membership rule) (frame : Frame s (.entity url) rules t)
    (fired : rule.card ∈ rules) (raised : membership.card ∈ t.cardsIn rule.column.id)
    {anchor : CardId} (anchored : rule.anchor = some anchor) :
    ∃ t', t.moveCard rule.card rule.column.id (some anchor) = (.ok (), t') ∧
      Frame s (.entity url) rules t' := by
  have shown := candidate.shown
  obtain ⟨final, different⟩ : (s.cardsIn rule.column.id).getLast? = some anchor ∧
      anchor ≠ rule.card := by
    have filtered := shown.anchored.symm.trans anchored
    simpa [Option.filter_eq_some_iff] using filtered
  have placed := frame.column _ rule.card shown.placed (shown.foreign wellFormed _)
  obtain ⟨t', success, _⟩ := frame.wellFormed.moveCard_sink
    (candidate.anchor_inside wellFormed single frame raised (List.mem_of_getLast? final)) placed
    different.symm
  have allowed : (Step.lower rule.card rule.column.id anchor).Allowed s (.entity url) rules :=
    ⟨fired, shown.placed⟩
  have kept : Frame s (.entity url) rules (t.moveCard rule.card rule.column.id (some anchor)).2 :=
    Step.framed_call wellFormed allowed frame
  rw [success] at kept
  exact ⟨t', success, kept⟩

/-- Neither of both moves fails. -/
theorem triple_transit (wellFormed : s.WellFormed) (single : s.SingleCards (.entity url))
    (candidate : Candidate s url membership rule) (fired : rule.card ∈ rules) :
    RuleRun.Triple Store.service (fun _ => Frame s (.entity url) rules)
      ((.raise membership.card rule.column.id :: rule.lowering).forM Step.take)
      (fun _ _ => Frame s (.entity url) rules) fun _ _ _ => False := by
  refine Step.triple_cons (Q := fun _ t => Frame s (.entity url) rules t ∧
    membership.card ∈ t.cardsIn rule.column.id) (Step.triple_take ?_) ?_
  · intro actions t frame
    obtain ⟨t', success, raised⟩ := candidate.raise wellFormed frame
    exact ⟨(), t', success, raised⟩
  · unfold PlacedRule.lowering
    cases anchored : rule.anchor with
    | none => exact RuleRun.triple_pure fun _ _ raised => raised.1
    | some anchor =>
      refine Step.triple_cons (Q := fun _ => Frame s (.entity url) rules) (Step.triple_take ?_)
        (RuleRun.triple_pure fun _ _ frame => frame)
      rintro actions t ⟨frame, raised⟩
      obtain ⟨t', success, lowered⟩ :=
        candidate.lower wellFormed single frame fired raised anchored
      exact ⟨(), t', success, lowered⟩

end Automation.Candidate

/-! ## Automations -/

section Automations

variable (automation : Automation) (policy : RetryPolicy) (event : Event) {target : Target}

/-- What an automation reads is there. -/
theorem Automation.reads_registered (reads : s.failingReads = 0) (registered : s.Registered target) :
    ∃ answer, Store.service (automation.agenda target).reads s = (.ok answer, s) := by
  cases target with
  | movedCard card =>
    obtain ⟨column, found⟩ := Option.isSome_iff_exists.mp registered
    refine ⟨⟨s.linkedEntity? card, s.columnView column⟩, ?_⟩
    change s.read (Store.cardContext card) = _
    rw [Store.read_calm reads]
    unfold Store.cardContext
    rw [found]
    rfl
  | entity url =>
    obtain ⟨entity, found⟩ := Option.isSome_iff_exists.mp registered
    have known : s.entity url = .ok entity := by
      unfold Store.entity
      rw [found]
    by_cases creates : automation.createsCard = true
    · obtain ⟨answer, looked⟩ : ∃ answer, Store.boardsForEntity url s = .ok answer := by
        unfold Store.boardsForEntity
        rw [known]
        exact ⟨_, rfl⟩
      rw [automation.agenda_of_creates creates]
      exact ⟨answer, (Store.read_calm reads _).trans (congrArg (·, s) looked)⟩
    · obtain ⟨answer, looked⟩ : ∃ answer, Store.cardMemberships url s = .ok answer := by
        unfold Store.cardMemberships
        rw [known]
        exact ⟨_, rfl⟩
      obtain ⟨duties, same⟩ : ∃ duties,
          automation.agenda (.entity url) = ⟨.cardMemberships url, duties⟩ := ⟨_, if_neg creates⟩
      rw [same]
      exact ⟨answer, (Store.read_calm reads _).trans (congrArg (·, s) looked)⟩

/-- The work of a duty stays within the frame and does not fail. -/
def Duty.Succeeds (s : Store) (target : Target) (duty : Duty) : Prop :=
  s.owns target duty.rule.card = false ∧ ∀ rules, duty.rule.card ∈ rules →
    RuleRun.Triple Store.service (fun _ => Frame s target rules) duty.work
      (fun _ _ => Frame s target rules) fun _ _ _ => False

theorem Duty.triple_forM_succeeds (wellFormed : s.WellFormed) {duties : List Duty}
    (each : ∀ duty ∈ duties, duty.Succeeds s target) :
    RuleRun.Triple Store.service (fun _ t => t = s) (duties.forM Duty.work)
      (fun _ _ => Frame s target (duties.map (·.rule.card))) fun _ _ _ => False := by
  have loop : RuleRun.Triple Store.service (fun _ => Frame s target []) (duties.forM Duty.work)
      (fun _ _ => Frame s target (duties.map (·.rule.card))) fun _ _ _ => False := by
    refine RuleRun.triple_forM_done
      (I := fun done _ => Frame s target (done.map fun duty : Duty => duty.rule.card)) ?_
    intro done duty rest split actions t frame
    obtain ⟨foreign, works⟩ := each duty (by simp [split])
    rw [List.map_append]
    exact works _ (by simp) actions t (frame.fire foreign)
  rintro actions t rfl
  exact loop actions t (Frame.refl wellFormed target)

theorem Automation.transition_succeeds (wellFormed : s.WellFormed)
    (moves : ¬ automation.KeepsPut target) (single : s.SingleCards target) :
    (automation.agenda target).Each s (Duty.Succeeds s target) := by
  cases target with
  | movedCard card => exact absurd trivial moves
  | entity url =>
    obtain ⟨creates, plain⟩ := not_or.mp moves
    rw [automation.agenda_of_moves creates (by simpa using plain)]
    intro found answer duty member
    obtain ⟨round, listed, rfl⟩ := List.mem_map.mp member
    obtain ⟨membership, candidate, steps⟩ :=
      automation.mem_transition wellFormed (Store.ok_of_read_eq answer) listed
    refine ⟨candidate.shown.foreign wellFormed _, fun rules fired => ?_⟩
    rw [Round.duty_work, steps]
    exact candidate.triple_transit wellFormed single fired

theorem Automation.succeeds (wellFormed : s.WellFormed) (reads : s.failingReads = 0)
    (registered : s.Registered target)
    (single : ¬ automation.KeepsPut target → s.SingleCards target) :
    ((automation.outcome policy event target).run Store.service s).1.error = none := by
  obtain ⟨answer, read⟩ := automation.reads_registered reads registered
  by_cases keeps : automation.KeepsPut target
  · obtain ⟨actions, s', performed, _⟩ :=
      automation.lowering_work policy event wellFormed reads keeps read
    rw [automation.run_outcome performed]
  · have answered : (Dialogue.read policy (automation.agenda target).reads).run Store.service s =
        (.ok answer, s) := Dialogue.run_read_ok read
    have duties := automation.transition_succeeds wellFormed keeps (single keeps) answer read
    have worked := Duty.triple_forM_succeeds wellFormed
      (fun duty (member : duty ∈ automation.due event s ((automation.agenda target).duties answer)) =>
        duties duty (List.mem_of_mem_filter member)) [] s rfl
    rw [← automation.perform_discharge policy event _ [] s ⟨reads, rfl⟩] at worked
    rcases performed : RuleRun.perform Store.service (automation.discharge policy event
      ((automation.agenda target).duties answer)) [] s with ⟨⟨error | _, actions⟩, s'⟩ <;>
      rw [performed] at worked
    · exact worked.elim
    · have work := (automation.perform_work policy event answered).trans performed
      rw [automation.run_outcome work]

end Automations

/-! ## Automations that make no cards for the entity -/

namespace Automation

variable (automation : Automation) (policy : RetryPolicy) (event : Event)

theorem triple_fires_unadded (rule : PlacedRule) :
    RuleRun.Triple Store.service (fun _ => Store.Unadded s) (automation.fires policy event rule)
      (fun _ _ => Store.Unadded s) fun _ _ => Store.Unadded s :=
  triple_fires fun pullRequest _ _ before => before.service (by simp)

/-- Steps that make no card. -/
theorem triple_take_unadded {step : Step} (plain : ∀ column entity, step ≠ .create column entity) :
    RuleRun.Triple Store.service (fun _ => Store.Unadded s) step.take (fun _ _ => Store.Unadded s)
      fun _ _ => Store.Unadded s := by
  refine Step.triple_take_kept fun t before => before.service ?_
  intro column entity
  cases step with
  | create other another => exact absurd rfl (plain other another)
  | _ => simp [Step.call]

theorem triple_addCompanion_unadded (column : Column) (text : String) :
    RuleRun.Triple Store.service (fun _ => Store.Unadded s) (RuleRun.addCompanion column text)
      (fun _ _ => Store.Unadded s) fun _ _ => Store.Unadded s := by
  refine RuleRun.triple_bind (Q := fun _ _ => Store.Unadded s) (RuleRun.triple_attempt ?_) ?_
  · intro actions t before
    have kept : Store.Unadded s (Store.service (.createCard column.id (.note text)) t).2 :=
      before.service (by simp)
    exact Dialogue.either_of_both kept
  · intro card
    refine RuleRun.triple_bind (Q := fun _ _ => Store.Unadded s)
      (RuleRun.triple_note fun _ _ before => before) ?_
    intro _
    rw [RuleRun.moveBehind_eq]
    refine RuleRun.triple_forM fun step member => triple_take_unadded ?_
    obtain ⟨anchor, _, rfl⟩ := List.mem_map.mp member
    simp

theorem unadded_agenda (moves : ¬ automation.createsCard = true) (url : EntityUrl) (t : Store) :
    (automation.agenda (.entity url)).Each t fun duty =>
      RuleRun.Triple Store.service (fun _ => Store.Unadded s) duty.work (fun _ _ => Store.Unadded s)
        fun _ _ => Store.Unadded s := by
  cases named : automation.sideEffect with
  | none =>
    rw [automation.agenda_of_moves moves named]
    intro found _ duty member
    obtain ⟨round, listed, rfl⟩ := List.mem_map.mp member
    rw [transition_eq] at listed
    obtain ⟨⟨membership, rule⟩, _, rfl⟩ := List.mem_map.mp listed
    refine RuleRun.triple_forM fun step taken => triple_take_unadded ?_
    rcases List.mem_cons.mp taken with rfl | lowering
    · simp
    · obtain ⟨anchor, _, rfl⟩ := List.mem_map.mp lowering
      simp
  | some effect =>
    rw [automation.agenda_of_effect moves named]
    intro found _ duty member
    obtain ⟨⟨membership, rule⟩, _, rfl⟩ := List.mem_map.mp member
    dsimp only
    rw [RuleRun.carryOut_memberships]
    split
    · exact RuleRun.triple_pure fun _ _ before => before
    · exact triple_addCompanion_unadded _ _

/-- An automation that makes no cards for the entity adds none. -/
theorem unadded_outcome (moves : ¬ automation.createsCard = true) (url : EntityUrl) (s : Store) :
    Store.Unadded s ((automation.outcome policy event (.entity url)).run Store.service s).2 := by
  refine automation.outcome_kept policy event (I := fun _ => Store.Unadded s) (.entity url)
    (fun _ _ _ belongs => belongs)
    (fun rule _ => automation.triple_fires_unadded policy event rule) ?_
  intro answer read duty member
  exact ⟨fun _ _ before => before,
    fun _ _ => automation.unadded_agenda moves url _ answer read duty member⟩

end Automation

/-! ## Dispatches -/

namespace Dispatcher

variable (policy : RetryPolicy) (event : Event)

theorem outcomes_single {target : Target} {automations : List Automation}
    (moves : ∀ automation ∈ automations, ¬ automation.createsCard = true)
    (wellFormed : s.WellFormed) (single : s.SingleCards target) :
    ((outcomes policy event target automations).run Store.service s).2.SingleCards target := by
  induction automations generalizing s with
  | nil => exact single
  | cons automation rest others =>
    have frame := automation.framed_outcome policy event wellFormed target
    have first : ((automation.outcome policy event target).run Store.service s).2.SingleCards
        target := by
      cases target with
      | movedCard card => exact fun _ _ _ _ _ own => nomatch own
      | entity url =>
        exact single.kept wellFormed frame
          (automation.unadded_outcome policy event (moves automation List.mem_cons_self) url s)
    unfold outcomes
    rw [Dialogue.run_bind, Dialogue.run_bind]
    exact others (fun other member => moves other (List.mem_cons_of_mem _ member))
      frame.wellFormed first

/-- All automations succeed if those that move cards of the entity find one on every board. -/
theorem outcomes_succeed {target : Target} {automations : List Automation}
    (wellFormed : s.WellFormed) (reads : s.failingReads = 0) (registered : s.Registered target)
    (single : ∀ before automation rest, automations = before ++ automation :: rest →
      ¬ automation.KeepsPut target →
      ((outcomes policy event target before).run Store.service s).2.SingleCards target) :
    ∀ outcome ∈ ((outcomes policy event target automations).run Store.service s).1,
      outcome.error = none := by
  induction automations generalizing s with
  | nil => exact fun _ member => absurd member List.not_mem_nil
  | cons automation rest others =>
    have first := automation.succeeds policy event wellFormed reads registered
      (single [] automation rest rfl)
    have frame := automation.framed_outcome policy event wellFormed target
    have calm : Store.Calm s _ :=
      Store.Calm.run ⟨reads, rfl⟩ (automation.outcome policy event target)
    have following := others frame.wellFormed calm.reads (registered.kept wellFormed frame) ?_
    · unfold outcomes
      rw [Dialogue.run_bind, Dialogue.run_bind]
      intro outcome member
      rcases List.mem_cons.mp member with rfl | later
      · exact first
      · exact following outcome later
    · intro before other others split moves
      have later := single (automation :: before) other others (by rw [split]; rfl) moves
      unfold outcomes at later
      rw [Dialogue.run_bind, Dialogue.run_bind] at later
      exact later

/-- The same dispatcher with other automations. -/
def withAutomations (dispatcher : Dispatcher) (automations : List Automation) : Dispatcher :=
  { dispatcher with automations }

/-- Automations that move cards after others have made some find a single card of the entity on
every board again. -/
def MovesSingle (dispatcher : Dispatcher) (event : Event) (target : Target) (s : Store) : Prop :=
  ∀ before automation rest, dispatcher.automations = before ++ automation :: rest →
    ¬ automation.KeepsPut target → (∃ creating ∈ before, creating.createsCard = true) →
    (((dispatcher.withAutomations before).dispatch event).run Store.service s).2.SingleCards target

/-- Anchors do not make a dispatch fail, though they have been seen before anything has been moved:
all changes succeed that are made after the reads, as long as every automation that moves cards of
the entity finds at most one of them on every board. -/
theorem anchors_hold (dispatcher : Dispatcher) (event : Event) (target : Target) (s : Store)
    (reachable : s.Reachable) (few : s.failingReads ≤ dispatcher.policy.maxRetries)
    (listens : event.trigger = dispatcher.trigger)
    (resolved : ((dispatcher.resolve event).run Store.service s).1 = .ok target)
    (registered : s.Registered target) (single : s.SingleCards target)
    (later : dispatcher.MovesSingle event target s) :
    ∃ report, ((dispatcher.dispatch event).run Store.service s).1 = .ok report ∧
      report.isClean = true ∧
      ∀ exchange ∈ (dispatcher.dispatch event).record Store.service s,
        exchange.call.isRead = false → exchange.answer.isOk = true := by
  have wellFormed : (s.failNextReads 0).WellFormed :=
    ((Frame.refl reachable.wellFormed target).failNextReads 0).wellFormed
  obtain ⟨ran, _⟩ := dispatcher.run_absorbed few listens resolved
  have clean : ∀ outcome ∈ ((outcomes dispatcher.policy event target dispatcher.automations).run
      Store.service (s.failNextReads 0)).1, outcome.error = none := by
    refine outcomes_succeed dispatcher.policy event wellFormed rfl registered ?_
    intro before automation rest split moves
    by_cases creating : ∃ creating ∈ before, creating.createsCard = true
    · have found := later before automation rest split moves creating
      obtain ⟨_, contents⟩ :=
        (dispatcher.withAutomations before).run_absorbed few listens resolved
      change Store.SingleCards (Store.failNextReads _ 0) target at found
      rw [contents] at found
      exact found
    · simp only [not_exists, not_and] at creating
      exact outcomes_single dispatcher.policy event creating wellFormed single
  refine ⟨_, ran, ?_, changes_succeed listens resolved ran clean⟩
  exact List.all_eq_true.mpr fun outcome member => by rw [clean outcome member]; rfl

/-- Makes cards for labeled issues and then moves their cards. -/
def openAndPlace : Dispatcher :=
  ⟨.issueLabeled, [⟨"open", .issueLabeled, .payload .always, true, none⟩,
    ⟨"place", .issueLabeled, .payload .always, false, none⟩], .default⟩

/-- A rule for new cards in one column and two rules for moves in the next. -/
def queued : Store :=
  [.addBoard (.owner "octo") "Plan", .addColumn ⟨"board-1"⟩ "Inbox",
    .addColumn ⟨"board-1"⟩ "Queue",
    .addEntity ⟨.https, "github.com", "octo", "demo", .issue, 7⟩,
    .appendCard ⟨"column-2"⟩ (.note "- `open`"),
    .appendCard ⟨"column-3"⟩ (.note "- `place`"),
    .appendCard ⟨"column-3"⟩ (.note "- `place`")].foldl Store.perform .empty

/-- The new card is the only one of the issue, and is moved twice. The rule on `card-7` has been seen
at the bottom and is not put back there, though the other rule is below it by then. -/
theorem anchors_hold_queued :
    let target : Target := .entity ⟨.https, "github.com", "octo", "demo", .issue, 7⟩
    let reached := (openAndPlace.dispatch (.ofLabel "bug")).run Store.service queued
    queued.SingleCards target ∧ openAndPlace.MovesSingle (.ofLabel "bug") target queued ∧
      reached.2.cardsIn ⟨"column-3"⟩ = [⟨"card-8"⟩, ⟨"card-7"⟩, ⟨"card-6"⟩] ∧
      ∃ report, reached.1 = .ok report ∧ report.isClean = true ∧
        ∀ exchange ∈ (openAndPlace.dispatch (.ofLabel "bug")).record Store.service queued,
          exchange.call.isRead = false → exchange.answer.isOk = true := by
  intro target reached
  have single : queued.SingleCards target := by decide +kernel
  have later : openAndPlace.MovesSingle (.ofLabel "bug") target queued := by
    intro before automation rest split _ creating
    obtain ⟨_, listed, _⟩ := creating
    obtain _ | ⟨first, _ | ⟨second, others⟩⟩ := before
    · cases listed
    · cases split
      decide +kernel
    · simp [openAndPlace] at split
  refine ⟨single, later, by decide +kernel, ?_⟩
  exact anchors_hold openAndPlace (.ofLabel "bug") target queued (Store.Reachable.foldl _ _ .empty)
    (by decide +kernel) rfl (by decide +kernel) (by decide +kernel) single later

/-- The card of the issue is the last one of its column, below the card of a rule. -/
def crowded : Store :=
  [.addBoard (.owner "octo") "Plan", .addColumn ⟨"board-1"⟩ "Inbox",
    .addColumn ⟨"board-1"⟩ "Queue", .addColumn ⟨"board-1"⟩ "New",
    .addEntity ⟨.https, "github.com", "octo", "demo", .issue, 7⟩,
    .appendCard ⟨"column-2"⟩ (.note "- `place`"),
    .appendCard ⟨"column-2"⟩ (.entity ⟨"entity-5"⟩),
    .appendCard ⟨"column-3"⟩ (.note "- `place`"),
    .appendCard ⟨"column-4"⟩ (.note "- `open`")].foldl Store.perform .empty

/-- That there is one card at the start is not enough. A second card of the issue is made here, and
when it is moved the first one, which is an anchor, has already been taken to another column. -/
theorem anchors_lost :
    ¬ ∀ (dispatcher : Dispatcher) (event : Event) (target : Target) (s : Store),
      s.Reachable → s.failingReads ≤ dispatcher.policy.maxRetries →
      event.trigger = dispatcher.trigger →
      ((dispatcher.resolve event).run Store.service s).1 = .ok target →
      s.Registered target → s.SingleCards target →
      ∃ report, ((dispatcher.dispatch event).run Store.service s).1 = .ok report ∧
        report.isClean = true ∧
        ∀ exchange ∈ (dispatcher.dispatch event).record Store.service s,
          exchange.call.isRead = false → exchange.answer.isOk = true := by
  intro always
  obtain ⟨report, ran, clean, _⟩ := always openAndPlace (.ofLabel "bug")
    (.entity ⟨.https, "github.com", "octo", "demo", .issue, 7⟩) crowded
    (Store.Reachable.foldl _ _ .empty) (by decide +kernel) rfl (by decide +kernel)
    (by decide +kernel) (by decide +kernel)
  have failed : (((openAndPlace.dispatch (.ofLabel "bug")).run Store.service crowded).1.toOption.map
      Report.isClean) = some false := by decide +kernel
  rw [ran] at failed
  exact absurd (clean.symm.trans (Option.some.inj failed)) (by simp)

end Dispatcher

end BoardRules
