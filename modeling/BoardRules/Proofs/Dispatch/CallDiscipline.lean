import BoardRules.Proofs.Dispatch.ActionLog
import BoardRules.Proofs.Dispatch.Grouping

/-!
# Discipline of calls

Reads are tried again a limited number of times, changes never, and the first call that has failed
for good ends the automation that has made it. All this holds for every service, so it is said of the
record of calls: the record of an automation falls into blocks of equal reads and single changes.
-/
namespace BoardRules

open Dialogue (Either)

/-- How an automation passes on the error of a call: matchers and side effects have an error of
their own. -/
def Call.failure : Call → TrackingError → DispatchError
  | .reviews _ => .rule
  | .closeIssue _ => .rule
  | .createCard _ (.note _) => .rule
  | _ => .tracking

/-- The attempts of one read: equal calls, at most one more than there are retries. All of them fail
but for the last, and the last fails only if no other attempt is left. -/
structure ReadBlock (retries : Nat) (call : Call) (block : List Exchange) (result : call.Result) :
    Prop where
  isRead : call.isRead = true
  attempts : ∃ errors : List TrackingError,
    block = errors.map (fun error => ⟨call, .error error⟩) ++ [⟨call, result⟩] ∧
      errors.length ≤ retries ∧ (result.isOk = false → errors.length = retries)

theorem ReadBlock.all_reads {retries : Nat} {call : Call} {block : List Exchange}
    {result : call.Result} (attempted : ReadBlock retries call block result) :
    ∀ exchange ∈ block, exchange.call.isRead = true := by
  obtain ⟨isRead, errors, split, _⟩ := attempted
  intro exchange member
  rw [split] at member
  rcases List.mem_append.mp member with failed | last
  · obtain ⟨_, _, rfl⟩ := List.mem_map.mp failed
    exact isRead
  · rw [List.mem_singleton.mp last]
    exact isRead

/-- The record of an automation, and the error by which it has ended. Nothing follows a read that
has failed for good or a change that has failed. -/
inductive Orderly (retries : Nat) : List Exchange → Option DispatchError → Prop where
  | start : Orderly retries [] none
  | read {record block : List Exchange} {call : Call} {answer : call.Answer} :
      Orderly retries record none → ReadBlock retries call block (.ok answer) →
      Orderly retries (record ++ block) none
  | exhausted {record block : List Exchange} {call : Call} {error : TrackingError} :
      Orderly retries record none → ReadBlock retries call block (.error error) →
      Orderly retries (record ++ block) (some (call.failure error))
  | change {record : List Exchange} {call : Call} {answer : call.Answer} :
      Orderly retries record none → call.isRead = false →
      Orderly retries (record ++ [⟨call, .ok answer⟩]) none
  | refused {record : List Exchange} {call : Call} {error : TrackingError} :
      Orderly retries record none → call.isRead = false →
      Orderly retries (record ++ [⟨call, .error error⟩]) (some (call.failure error))

/-- Nothing but reads fails where a record has come to a good end. -/
theorem Orderly.changes_succeed {retries : Nat} {record : List Exchange}
    {failure : Option DispatchError} (orderly : Orderly retries record failure)
    (ended : failure = none) :
    ∀ exchange ∈ record, exchange.call.isRead = false → exchange.answer.isOk = true := by
  induction orderly with
  | start => exact fun _ member => absurd member List.not_mem_nil
  | read _ block earlier =>
    intro exchange member changes
    rcases List.mem_append.mp member with before | last
    · exact earlier rfl exchange before changes
    · rw [block.all_reads exchange last] at changes
      cases changes
  | change _ _ earlier =>
    intro exchange member changes
    rcases List.mem_append.mp member with before | last
    · exact earlier rfl exchange before changes
    · rw [List.mem_singleton.mp last]
      rfl
  | exhausted => cases ended
  | refused => cases ended

theorem Orderly.parts_succeed {retries : Nat} {parts : List (List Exchange)} {outcomes : List Outcome}
    (orderly : List.Forall₂ (fun part outcome => Orderly retries part outcome.error) parts outcomes)
    (clean : ∀ outcome ∈ outcomes, outcome.error = none) :
    ∀ exchange ∈ parts.flatten, exchange.call.isRead = false → exchange.answer.isOk = true := by
  induction orderly with
  | nil => exact fun _ member => absurd member List.not_mem_nil
  | cons ended _ others =>
    intro exchange member
    rcases List.mem_append.mp member with here | later
    · exact ended.changes_succeed (clean _ List.mem_cons_self) exchange here
    · exact others (fun outcome listed => clean outcome (List.mem_cons_of_mem _ listed)) exchange later

variable {σ α β : Type}

/-- Since it was `base`, the record has grown by orderly calls that have ended like this. -/
def Recorded (retries : Nat) (base : List Exchange) (failure : Option DispatchError)
    (state : σ × List Exchange) : Prop :=
  ∃ grown, state.2 = base ++ grown ∧ Orderly retries grown failure

/-! ## Reads -/

/-- To attempt a read again and again makes a block of the record. -/
theorem Dialogue.attempt_recorded (service : Service σ) (call : Call) (isRead : call.isRead = true)
    (retries : Nat) (s : σ) (record : List Exchange) :
    let reached := (RetryPolicy.attempt (Dialogue.call call) retries).run service.recorded (s, record)
    ∃ block, reached.2.2 = record ++ block ∧ ReadBlock retries call block reached.1 := by
  induction retries generalizing s record with
  | zero => exact ⟨_, rfl, isRead, [], rfl, Nat.le_refl 0, fun _ => rfl⟩
  | succ retries others =>
    have once : (Dialogue.call call).run service.recorded (s, record) =
        ((service call s).1, (service call s).2, record ++ [⟨call, (service call s).1⟩]) := rfl
    unfold RetryPolicy.attempt
    rw [run_bind, once]
    cases answer : (service call s).1 with
    | ok value =>
      exact ⟨_, rfl, isRead, [], rfl, Nat.zero_le _, by simp [Except.isOk, Except.toBool]⟩
    | error error =>
      -- The failed attempt joins the block of those that follow.
      obtain ⟨block, grown, _, errors, attempts, bound, failed⟩ :=
        others (service call s).2 (record ++ [⟨call, .error error⟩])
      refine ⟨⟨call, .error error⟩ :: block, ?_, isRead, error :: errors, ?_, ?_, ?_⟩
      · simpa [answer] using grown
      · simp [attempts]
      · simpa using bound
      · simpa using failed

/-- The dialogue makes orderly calls and passes on the error that has ended it. -/
def Dialogue.Disciplined (policy : RetryPolicy) (wrap : TrackingError → DispatchError)
    (d : Dialogue (Except TrackingError α)) : Prop :=
  ∀ (σ : Type) (service : Service σ) (base : List Exchange),
    Dialogue.Triple service.recorded (Recorded policy.maxRetries base none) d
      (Either (fun _ => Recorded policy.maxRetries base none)
        fun error => Recorded policy.maxRetries base (some (wrap error)))

namespace Dialogue.Disciplined

variable {policy : RetryPolicy} {wrap : TrackingError → DispatchError}

theorem pure (value : α) :
    Disciplined policy wrap (Pure.pure (.ok value) : Dialogue (Except TrackingError α)) :=
  fun _ _ _ => triple_pure fun _ before => before

theorem map {d : Dialogue (Except TrackingError α)} (disciplined : Disciplined policy wrap d)
    (f : α → β) : Disciplined policy wrap (d >>= fun answer => Pure.pure (answer.map f)) := by
  intro σ service base
  refine triple_bind (disciplined σ service base) ?_
  intro answer
  cases answer with
  | ok value => exact triple_pure fun _ after => after
  | error error => exact triple_pure fun _ after => after

theorem read (call : Call) (isRead : call.isRead = true) :
    Disciplined policy call.failure (Dialogue.read policy call) := by
  intro σ service base state before
  obtain ⟨s, record⟩ := state
  obtain ⟨grown, split, orderly⟩ := before
  obtain ⟨block, longer, attempts⟩ :=
    attempt_recorded service call isRead policy.maxRetries s record
  have split' : record ++ block = base ++ (grown ++ block) := by
    rw [← List.append_assoc]
    exact congrArg (· ++ block) split
  unfold Dialogue.read RetryPolicy.run
  cases result : ((RetryPolicy.attempt (Dialogue.call call) policy.maxRetries).run
      service.recorded (s, record)).1 with
  | ok answer =>
    rw [result] at attempts
    exact ⟨grown ++ block, longer.trans split', orderly.read attempts⟩
  | error error =>
    rw [result] at attempts
    exact ⟨grown ++ block, longer.trans split', orderly.exhausted attempts⟩

theorem change (call : Call) (changes : call.isRead = false) :
    Disciplined policy call.failure (Dialogue.call call) := by
  intro σ service base state before
  obtain ⟨s, record⟩ := state
  obtain ⟨grown, split, orderly⟩ := before
  have longer (answer : call.Result) : record ++ [⟨call, answer⟩] =
      base ++ (grown ++ [⟨call, answer⟩]) := by
    rw [← List.append_assoc]
    exact congrArg (· ++ [_]) split
  change Either _ _ (service call s).1 ((service call s).2, record ++ [⟨call, (service call s).1⟩])
  cases (service call s).1 with
  | ok answer => exact ⟨_, longer _, orderly.change changes⟩
  | error error => exact ⟨_, longer _, orderly.refused changes⟩

end Dialogue.Disciplined

/-! ## What runs are composed of -/

/-- A property `Runs` of runs that they have if the dialogues in them have the property `Asks`, which
for its part is one of single reads and changes. The error of a call becomes the failure of the run. -/
structure RuleRun.Compositional (policy : RetryPolicy)
    (Asks : (α : Type) → (TrackingError → DispatchError) → Dialogue (Except TrackingError α) → Prop)
    (Runs : (α : Type) → RuleRun α → Prop) : Prop where
  settled : ∀ {α : Type} (wrap : TrackingError → DispatchError) (value : α),
    Asks α wrap (Pure.pure (.ok value))
  map : ∀ {α β : Type} {wrap : TrackingError → DispatchError}
    {d : Dialogue (Except TrackingError α)} (f : α → β), Asks α wrap d →
      Asks β wrap (d >>= fun answer => Pure.pure (answer.map f))
  read : ∀ call : Call, call.isRead = true →
    Asks call.Answer call.failure (Dialogue.read policy call)
  change : ∀ call : Call, call.isRead = false →
    Asks call.Answer call.failure (Dialogue.call call)
  attempt : ∀ {α : Type} {wrap : TrackingError → DispatchError}
    {d : Dialogue (Except TrackingError α)}, Asks α wrap d → Runs α (RuleRun.attempt wrap d)
  pure : ∀ {α : Type} (value : α), Runs α (Pure.pure value)
  bind : ∀ {α β : Type} {work : RuleRun α} {next : α → RuleRun β}, Runs α work →
    (∀ value, Runs β (next value)) → Runs β (work >>= next)
  note : ∀ action : Action, Runs Unit (RuleRun.note action)

namespace RuleRun.Compositional

variable {policy : RetryPolicy}
  {Asks : (α : Type) → (TrackingError → DispatchError) → Dialogue (Except TrackingError α) → Prop}
  {Runs : (α : Type) → RuleRun α → Prop}

theorem forM (composes : Compositional policy Asks Runs) {items : List β}
    {round : β → RuleRun Unit} (each : ∀ item, Runs Unit (round item)) :
    Runs Unit (items.forM round) := by
  induction items with
  | nil => exact composes.pure ()
  | cons item items others =>
    rw [List.forM_eq_forM, List.forM_cons]
    exact composes.bind (each item) fun _ => others

theorem moveBehind (composes : Compositional policy Asks Runs) (card : CardId) (column : ColumnId)
    (anchor : Option CardId) : Runs Unit (RuleRun.moveBehind card column anchor) := by
  cases anchor with
  | none => exact composes.pure ()
  | some anchor =>
    exact composes.bind (composes.attempt (composes.change (.moveCard card column (some anchor)) rfl))
      fun _ => composes.note _

theorem carryOut (composes : Compositional policy Asks Runs) (effect : SideEffect)
    (subject : EffectSubject) (rule : PlacedRule) :
    Runs Unit (RuleRun.carryOut effect subject rule) := by
  have applied : Asks _ .rule (effect.apply subject rule.declaration.arguments) := by
    unfold SideEffect.apply
    split
    · unfold closeLinkedIssue
      split
      · exact composes.settled _ none
      · split
        · exact composes.settled _ none
        · exact composes.map _ (composes.change (.closeIssue _) rfl)
    · unfold addCompanionCard
      split
      · exact composes.settled _ none
      · dsimp only
        split
        · exact composes.settled _ none
        · exact composes.map _ (composes.change (.createCard _ (.note _)) rfl)
    · exact composes.settled _ none
    · exact composes.settled _ none
  refine composes.bind (composes.attempt applied) ?_
  intro settled
  rcases settled with _ | _ | placement
  · exact composes.pure ()
  · exact composes.note _
  · exact composes.bind (composes.note _) fun _ => composes.moveBehind _ _ _

theorem fires (composes : Compositional policy Asks Runs) (automation : Automation) (event : Event)
    (rule : PlacedRule) : Runs Bool (automation.fires policy event rule) := by
  apply composes.attempt
  unfold Matcher.fires reviewsAccept
  split
  · exact composes.settled _ _
  · split
    · exact composes.settled _ false
    · exact composes.map _ (composes.read (.reviews _) rfl)

/-- Whatever its target, the work of an automation is composed of reads that are retried and of
single changes. -/
theorem work (composes : Compositional policy Asks Runs) (automation : Automation) (event : Event)
    (target : Target) : Runs Unit (automation.work policy event target) := by
  have when (rule : PlacedRule) {work : RuleRun Unit} (done : Runs Unit work) :
      Runs Unit (automation.fires policy event rule >>= fun fired =>
        if fired then work else Pure.pure ()) := by
    refine composes.bind (composes.fires automation event rule) ?_
    intro fired
    split
    · exact done
    · exact composes.pure ()
  cases target with
  | movedCard card =>
    refine composes.bind (composes.attempt (composes.read (.cardContext card) rfl)) fun context =>
      composes.forM fun rule => ?_
    apply when rule
    split
    · exact composes.bind (composes.carryOut _ _ _) fun _ => composes.moveBehind _ _ _
    · exact composes.moveBehind _ _ _
  | entity url =>
    unfold Automation.work
    dsimp only
    split
    · refine composes.bind (composes.attempt (composes.read (.boardsForEntity url) rfl)) fun found =>
        composes.forM fun rule => ?_
      apply when rule
      exact composes.bind (composes.attempt (composes.change (.createCard _ (.entity _)) rfl)) fun _ =>
        composes.bind (composes.note _) fun _ => composes.moveBehind _ _ _
    · refine composes.bind (composes.attempt (composes.read (.cardMemberships url) rfl)) fun found =>
        composes.forM fun pair => ?_
      apply when pair.2
      split
      · exact composes.carryOut _ _ _
      · exact composes.bind (composes.attempt (composes.change (.moveCard _ _ none) rfl)) fun _ =>
          composes.bind (composes.note _) fun _ => composes.moveBehind _ _ _

end RuleRun.Compositional

/-! ## Runs -/

def RuleRun.Disciplined (policy : RetryPolicy) (work : RuleRun α) : Prop :=
  ∀ (σ : Type) (service : Service σ) (base : List Exchange),
    Triple service.recorded (fun _ => Recorded policy.maxRetries base none) work
      (fun _ _ => Recorded policy.maxRetries base none)
      fun error _ => Recorded policy.maxRetries base (some error)

theorem RuleRun.disciplined (policy : RetryPolicy) :
    Compositional policy (fun _ => Dialogue.Disciplined policy) fun _ => Disciplined policy where
  settled _ value := .pure value
  map f disciplined := disciplined.map f
  read call isRead := .read call isRead
  change call changes := .change call changes
  attempt disciplined := fun σ service base => triple_attempt fun _ => disciplined σ service base
  pure _ := fun _ _ _ => triple_pure fun _ _ before => before
  bind first rest := fun σ service base =>
    triple_bind (first σ service base) fun value => rest value σ service base
  note _ := fun _ _ _ => triple_note fun _ _ before => before

namespace Automation

variable (automation : Automation) (policy : RetryPolicy) (event : Event)

/-- The part of the record that an automation adds ends as its outcome says. -/
theorem outcome_recorded (service : Service σ) (target : Target) (s : σ) (record : List Exchange) :
    let reached := (automation.outcome policy event target).run service.recorded (s, record)
    ∃ part, reached.2.2 = record ++ part ∧ Orderly policy.maxRetries part reached.1.error := by
  have held := (RuleRun.disciplined policy).work automation event target σ service record [] (s, record)
    ⟨[], (List.append_nil record).symm, .start⟩
  rcases performed : RuleRun.perform service.recorded (automation.work policy event target) []
    (s, record) with ⟨⟨result, actions⟩, after⟩
  rw [performed] at held
  rw [run_outcome performed]
  cases result with
  | ok _ => exact held
  | error error => exact held

end Automation

/-! ## Dispatches -/

namespace Dispatcher

/-- To resolve an event takes no change, and at most one read. -/
theorem resolve_recorded (dispatcher : Dispatcher) (event : Event) (service : Service σ) (s : σ)
    (record : List Exchange) :
    let reached := (dispatcher.resolve event).run service.recorded (s, record)
    ∃ part, reached.2.2 = record ++ part ∧ (∀ exchange ∈ part, exchange.call.isRead = true) ∧
      match reached.1 with
      | .ok _ => Orderly dispatcher.policy.maxRetries part none
      | .error error => part = [] ∨ Orderly dispatcher.policy.maxRetries part (some error) := by
  have silent : record = record ++ [] := (List.append_nil record).symm
  unfold resolve
  split
  · refine ⟨[], silent, List.forall_mem_nil _, ?_⟩
    cases EntityUrl.parse _ with
    | ok url => exact .start
    | error error => exact .inl rfl
  · exact ⟨[], silent, List.forall_mem_nil _, .start⟩
  · split
    · exact ⟨[], silent, List.forall_mem_nil _, .inl rfl⟩
    · next url _ =>
      obtain ⟨block, grown, attempts⟩ := Dialogue.attempt_recorded service
        (.pullRequestBody url) rfl dispatcher.policy.maxRetries s record
      rw [Dialogue.run_bind]
      unfold Dialogue.read RetryPolicy.run
      refine ⟨block, ?_, attempts.all_reads, ?_⟩
      · exact grown
      · cases result : ((RetryPolicy.attempt (Dialogue.call (.pullRequestBody url))
            dispatcher.policy.maxRetries).run service.recorded (s, record)).1 with
        | ok description =>
          rw [result] at attempts
          exact Orderly.read .start attempts
        | error error =>
          rw [result] at attempts
          exact .inr (Orderly.exhausted .start attempts)
  · exact ⟨[], silent, List.forall_mem_nil _, .inl rfl⟩

theorem outcomes_recorded (policy : RetryPolicy) (event : Event) (target : Target)
    (automations : List Automation) (service : Service σ) (s : σ) (record : List Exchange) :
    let reached := (outcomes policy event target automations).run service.recorded (s, record)
    ∃ parts : List (List Exchange), reached.2.2 = record ++ parts.flatten ∧
      List.Forall₂ (fun part outcome => Orderly policy.maxRetries part outcome.error)
        parts reached.1 := by
  induction automations generalizing s record with
  | nil => exact ⟨[], (List.append_nil record).symm, .nil⟩
  | cons automation rest others =>
    obtain ⟨part, grown, orderly⟩ :=
      automation.outcome_recorded policy event service target s record
    unfold outcomes
    rw [Dialogue.run_bind, Dialogue.run_bind]
    rcases result : (automation.outcome policy event target).run service.recorded (s, record) with
      ⟨outcome, s', longer⟩
    rw [result] at grown orderly
    obtain rfl : longer = record ++ part := grown
    obtain ⟨parts, rest, following⟩ := others s' (record ++ part)
    exact ⟨part :: parts, by simpa using rest, .cons orderly following⟩

/-- Automations without errors have made no changes that have failed. -/
theorem outcomes_changes (policy : RetryPolicy) (event : Event) (target : Target)
    (automations : List Automation) (service : Service σ) (s : σ)
    (clean : ∀ outcome ∈ ((outcomes policy event target automations).run service s).1,
      outcome.error = none) :
    ∀ exchange ∈ (outcomes policy event target automations).record service s,
      exchange.call.isRead = false → exchange.answer.isOk = true := by
  obtain ⟨parts, split, orderly⟩ := outcomes_recorded policy event target automations service s []
  rw [(Dialogue.run_recorded service _ s []).1] at orderly
  have recorded : (outcomes policy event target automations).record service s = parts.flatten := split
  rw [recorded]
  exact Orderly.parts_succeed orderly clean

/-- There is one outcome for each automation, in their order. -/
theorem rules_outcomes (policy : RetryPolicy) (event : Event) (target : Target)
    (automations : List Automation) (service : Service σ) (s : σ) :
    ((outcomes policy event target automations).run service s).1.map (·.rule) =
      automations.map (·.name) := by
  induction automations generalizing s with
  | nil => rfl
  | cons automation rest others =>
    unfold outcomes
    rw [Dialogue.run_bind, Dialogue.run_bind, Dialogue.run_pure, List.map_cons, others]
    rcases performed : RuleRun.perform service (automation.work policy event target) [] s with
      ⟨⟨result, actions⟩, after⟩
    rw [Automation.run_outcome performed]
    rfl

/-- Every automation of the trigger gets one outcome, in catalog order, and makes its calls in good
order: the record falls into blocks of equal reads, which are as long as the retries allow unless
the last read succeeds, and single changes. The outcome tells the error of the call that nothing
follows. If the dispatch itself fails then nothing has been changed. -/
theorem calls_orderly (service : Service σ) (dispatcher : Dispatcher) (event : Event) (s : σ) :
    let retries := dispatcher.policy.maxRetries
    let record := (dispatcher.dispatch event).record service s
    (match ((dispatcher.dispatch event).run service s).1 with
    | .error error =>
      (∀ exchange ∈ record, exchange.call.isRead = true) ∧
        (record = [] ∨ Orderly retries record (some error))
    | .ok report =>
      report.outcomes.map (·.rule) = dispatcher.automations.map (·.name) ∧
        ∃ (resolving : List Exchange) (parts : List (List Exchange)),
          record = resolving ++ parts.flatten ∧
          (∀ exchange ∈ resolving, exchange.call.isRead = true) ∧
          Orderly retries resolving none ∧
          List.Forall₂ (fun part outcome => Orderly retries part outcome.error)
            parts report.outcomes) ∧
      ∀ catalog : Catalog,
        (Router.ofCatalog dispatcher.policy catalog).dispatcher? dispatcher.trigger =
            some dispatcher ↔
          dispatcher.automations = catalog.listeners dispatcher.trigger ∧
            dispatcher.automations ≠ [] := by
  intro retries record
  refine ⟨?_, fun catalog => Router.dispatcher?_eq_some_iff catalog dispatcher⟩
  have same := (Dialogue.run_recorded service (dispatcher.dispatch event) s []).1
  rw [← same]
  subst record
  unfold Dialogue.record dispatch
  by_cases foreign : event.trigger ≠ dispatcher.trigger
  · rw [if_pos foreign]
    exact ⟨List.forall_mem_nil _, .inl rfl⟩
  · rw [if_neg foreign, Dialogue.run_bind]
    obtain ⟨resolving, grown, reads, ended⟩ := dispatcher.resolve_recorded event service s []
    rcases result : (dispatcher.resolve event).run service.recorded (s, []) with
      ⟨resolved, s', longer⟩
    rw [result] at grown ended
    obtain rfl : longer = resolving := grown
    cases resolved with
    | error error => exact ⟨reads, ended⟩
    | ok target =>
      -- From here on every automation adds a part of its own.
      obtain ⟨parts, split, orderly⟩ := outcomes_recorded dispatcher.policy event target
        dispatcher.automations service s' longer
      dsimp only
      rw [Dialogue.run_bind, Dialogue.run_pure]
      exact ⟨rules_outcomes dispatcher.policy event target dispatcher.automations _ _, longer, parts,
        split, reads, ended, orderly⟩

end Dispatcher

end BoardRules
