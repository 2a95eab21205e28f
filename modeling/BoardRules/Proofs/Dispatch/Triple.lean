import BoardRules.Dispatch.Router
import Mathlib.Control.Monad.Basic

/-!
# Triples for dialogues and runs

What is known of the state before, and of answer and state after, for dialogues, for runs of
automations and for whole dispatches. All rules hold for every service. A run that fails keeps its
noted actions, so its triple has a second postcondition for that.
-/
namespace BoardRules

variable {σ α β : Type} {service : Service σ}

namespace Dialogue

/-- Held from a state in `P`, the dialogue ends in `Q`. -/
def Triple (service : Service σ) (P : σ → Prop) (d : Dialogue α) (Q : α → σ → Prop) : Prop :=
  ∀ s, P s → Q (d.run service s).1 (d.run service s).2

/-- The postcondition `Q` after a success and `E` after a failure. -/
def Either {ε : Type} (Q : α → σ → Prop) (E : ε → σ → Prop) : Except ε α → σ → Prop
  | .ok value, s => Q value s
  | .error error, s => E error s

theorem either_of_both {ε : Type} {R : σ → Prop} {result : Except ε α} {s : σ} (after : R s) :
    Either (fun _ => R) (fun _ => R) result s := by
  cases result <;> exact after

theorem both_of_either {ε : Type} {R : σ → Prop} {result : Except ε α} {s : σ}
    (after : Either (fun _ => R) (fun _ => R) result s) : R s := by
  cases result <;> exact after

theorem triple_pure {P : σ → Prop} {Q : α → σ → Prop} {value : α}
    (here : ∀ s, P s → Q value s) : Triple service P (pure value) Q := here

theorem triple_bind {P : σ → Prop} {Q : α → σ → Prop} {R : β → σ → Prop} {d : Dialogue α}
    {next : α → Dialogue β} (first : Triple service P d Q)
    (rest : ∀ value, Triple service (Q value) (next value) R) :
    Triple service P (d >>= next) R := by
  intro s before
  rw [run_bind]
  exact rest _ _ (first s before)

theorem triple_weaken {P P' : σ → Prop} {Q Q' : α → σ → Prop} {d : Dialogue α}
    (holds : Triple service P d Q) (before : ∀ s, P' s → P s)
    (after : ∀ value s, Q value s → Q' value s) : Triple service P' d Q' := by
  intro s start
  exact after _ _ (holds s (before s start))

/-- What a single call establishes is established by a read that is repeated, as long as failed
attempts leave the precondition as it is. -/
theorem triple_read {P : σ → Prop} {call : Call} {Q : call.Answer → σ → Prop}
    (policy : RetryPolicy)
    (once : Triple service P (Dialogue.call call) (Either Q fun _ => P)) :
    Triple service P (Dialogue.read policy call) (Either Q fun _ => P) := by
  unfold Dialogue.read RetryPolicy.run
  induction policy.maxRetries with
  | zero => exact once
  | succ retries others =>
    unfold RetryPolicy.attempt
    refine triple_bind once ?_
    intro answer
    cases answer with
    | ok value => exact triple_pure fun _ after => after
    | error error => exact others

/-- A read keeps what its call keeps, however often it is repeated. -/
theorem triple_read_kept {P : σ → Prop} {call : Call} (policy : RetryPolicy)
    (once : Triple service P (Dialogue.call call) fun _ => P) :
    Triple service P (Dialogue.read policy call) fun _ => P := by
  have repeated := triple_read (Q := fun _ => P) policy
    (triple_weaken once (fun _ before => before) fun _ _ => either_of_both)
  exact triple_weaken repeated (fun _ before => before) fun _ _ => both_of_either

/-- A read that succeeds at once is not repeated. -/
theorem run_read_ok {policy : RetryPolicy} {call : Call} {s s' : σ} {value : call.Answer}
    (success : service call s = (.ok value, s')) :
    (Dialogue.read policy call).run service s = (.ok value, s') := by
  have once : (Dialogue.call call).run service s = (.ok value, s') := success
  unfold Dialogue.read RetryPolicy.run
  cases policy.maxRetries with
  | zero => exact once
  | succ retries =>
    unfold RetryPolicy.attempt
    rw [run_bind, once]
    rfl

end Dialogue

namespace RuleRun

open Dialogue (Either)

theorem run_bind (work : RuleRun α) (next : α → RuleRun β) (actions : List Action) :
    ((work >>= next).run.run actions : Dialogue (Except DispatchError β × List Action)) =
      (work.run.run actions >>= fun found =>
        (ExceptT.bindCont next found.1 : StateT (List Action) Dialogue _) found.2) := rfl

theorem run_lift (d : Dialogue α) (actions : List Action) :
    (liftM (d : StateT (List Action) Dialogue α) : RuleRun α).run.run actions =
      ((d >>= fun value => pure (value, actions)) >>= fun found =>
        pure (Except.ok found.1, found.2) : Dialogue (Except DispatchError α × List Action)) := rfl

/-- Holds the dialogue of a run that starts with the given actions. -/
def perform (service : Service σ) (work : RuleRun α) (actions : List Action) (s : σ) :
    (Except DispatchError α × List Action) × σ :=
  (work.run.run actions).run service s

theorem perform_bind (work : RuleRun α) (next : α → RuleRun β) (actions : List Action) (s : σ) :
    perform service (work >>= next) actions s =
      match perform service work actions s with
      | ((.ok value, actions), s) => perform service (next value) actions s
      | ((.error error, actions), s) => ((.error error, actions), s) := by
  unfold perform
  rw [run_bind, Dialogue.run_bind]
  rcases (work.run.run actions).run service s with ⟨⟨result, noted⟩, reached⟩
  cases result <;> rfl

theorem perform_lift (d : Dialogue α) (actions : List Action) (s : σ) :
    perform service (liftM (d : StateT (List Action) Dialogue α)) actions s =
      ((.ok (d.run service s).1, actions), (d.run service s).2) := by
  unfold perform
  rw [run_lift, Dialogue.run_bind, Dialogue.run_bind]
  rfl

theorem perform_attempt (wrap : TrackingError → DispatchError)
    (d : Dialogue (Except TrackingError α)) (actions : List Action) (s : σ) :
    perform service (attempt wrap d) actions s =
      (((d.run service s).1.mapError wrap, actions), (d.run service s).2) := by
  unfold attempt
  rw [perform_bind, perform_lift]
  cases (d.run service s).1 <;> rfl

/-- From actions and a state in `P`, a run that succeeds ends in `Q` and one that fails in `E`. -/
def Triple (service : Service σ) (P : List Action → σ → Prop) (work : RuleRun α)
    (Q : α → List Action → σ → Prop) (E : DispatchError → List Action → σ → Prop) : Prop :=
  ∀ actions s, P actions s →
    match perform service work actions s with
    | ((.ok value, actions), s) => Q value actions s
    | ((.error error, actions), s) => E error actions s

section Rules

variable {P : List Action → σ → Prop} {Q : α → List Action → σ → Prop}
  {E : DispatchError → List Action → σ → Prop}

theorem triple_pure {value : α} (here : ∀ actions s, P actions s → Q value actions s) :
    Triple service P (pure value) Q E := here

theorem triple_bind {R : β → List Action → σ → Prop} {work : RuleRun α} {next : α → RuleRun β}
    (first : Triple service P work Q E)
    (rest : ∀ value, Triple service (Q value) (next value) R E) :
    Triple service P (work >>= next) R E := by
  intro actions s before
  have reached := first actions s before
  rw [perform_bind]
  rcases result : perform service work actions s with ⟨⟨answer, noted⟩, after⟩
  rw [result] at reached
  cases answer with
  | ok value => exact rest value noted after reached
  | error error => exact reached

/-- What does not depend on the state stays so. -/
theorem triple_fact {fact : Prop} {work : RuleRun α} :
    Triple service (fun _ _ => fact) work (fun _ _ _ => fact) fun _ _ _ => fact := by
  intro actions s holds
  rcases perform service work actions s with ⟨⟨_ | _, _⟩, _⟩ <;> exact holds

/-- What is known besides the state can be taken out of a precondition. -/
theorem triple_given {fact : Prop} {work : RuleRun α}
    (holds : fact → Triple service P work Q E) :
    Triple service (fun actions s => P actions s ∧ fact) work Q E := by
  intro actions s before
  exact holds before.2 actions s before.1

/-- A run that succeeds may be said to end in less. -/
theorem triple_weaken {R : α → List Action → σ → Prop} {work : RuleRun α}
    (holds : Triple service P work Q E)
    (after : ∀ value actions s, Q value actions s → R value actions s) :
    Triple service P work R E := by
  intro actions s before
  have reached := holds actions s before
  rcases result : perform service work actions s with ⟨⟨answer, noted⟩, s'⟩
  rw [result] at reached
  cases answer with
  | ok value => exact after value noted s' reached
  | error error => exact reached

theorem triple_note {R : Unit → List Action → σ → Prop} {action : Action}
    (noted : ∀ actions s, P actions s → R () (actions ++ [action]) s) :
    Triple service P (note action) R E := noted

theorem triple_attempt {wrap : TrackingError → DispatchError}
    {d : Dialogue (Except TrackingError α)}
    (held : ∀ actions, Dialogue.Triple service (P actions) d
      (Either (fun value => Q value actions) fun error => E (wrap error) actions)) :
    Triple service P (attempt wrap d) Q E := by
  intro actions s before
  have reached := held actions s before
  rw [perform_attempt]
  cases result : (d.run service s).1 with
  | ok value =>
    rw [result] at reached
    exact reached
  | error error =>
    rw [result] at reached
    exact reached

theorem triple_change {call : Call} {R : call.Answer → List Action → σ → Prop}
    (once : ∀ actions, Dialogue.Triple service (P actions) (Dialogue.call call)
      (Either (fun value => R value actions) fun error => E (.tracking error) actions)) :
    Triple service P (change call) R E :=
  triple_attempt once

theorem triple_read {call : Call} {R : call.Answer → List Action → σ → Prop}
    (policy : RetryPolicy)
    (once : ∀ actions, Dialogue.Triple service (P actions) (Dialogue.call call)
      (Either (fun value => R value actions) fun _ => P actions)) :
    Triple service P (read policy call) R fun _ => P :=
  triple_attempt fun actions => Dialogue.triple_read policy (once actions)

/-- A loop keeps what every one of its rounds keeps. -/
theorem triple_forM {items : List β} {round : β → RuleRun Unit}
    (each : ∀ item ∈ items, Triple service P (round item) (fun _ => P) E) :
    Triple service P (items.forM round) (fun _ => P) E := by
  induction items with
  | nil => exact triple_pure fun _ _ before => before
  | cons item items others =>
    rw [List.forM_eq_forM, List.forM_cons]
    apply triple_bind (each item List.mem_cons_self)
    intro _
    exact others fun other member => each other (List.mem_cons_of_mem _ member)

/-- A loop with an invariant that knows which items are done. -/
theorem triple_forM_done {items : List β} {round : β → RuleRun Unit}
    {I : List β → List Action → σ → Prop}
    (each : ∀ done item rest, items = done ++ item :: rest →
      Triple service (I done) (round item) (fun _ => I (done ++ [item])) E) :
    Triple service (I []) (items.forM round) (fun _ => I items) E := by
  have remaining : ∀ done rest, items = done ++ rest →
      Triple service (I done) (rest.forM round) (fun _ => I items) E := by
    intro done rest split
    induction rest generalizing done with
    | nil =>
      rw [List.append_nil] at split
      subst split
      exact triple_pure fun _ _ before => before
    | cons item rest others =>
      rw [List.forM_eq_forM, List.forM_cons]
      apply triple_bind (each done item rest split)
      intro _
      apply others (done ++ [item])
      rw [List.append_assoc]
      exact split
  exact remaining [] items rfl

end Rules

end RuleRun

section Dispatch

variable {P : σ → Prop} {J : List Outcome → σ → Prop}

/-- To find out whether a rule fires takes at most the reviews of a pull request. -/
theorem Automation.triple_fires {I : List Action → σ → Prop} {automation : Automation}
    {policy : RetryPolicy} {event : Event} {rule : PlacedRule}
    (reviewed : ∀ pullRequest actions, Dialogue.Triple service (I actions)
      (Dialogue.call (.reviews pullRequest)) fun _ => I actions) :
    RuleRun.Triple service I (automation.fires policy event rule) (fun _ => I) fun _ => I := by
  apply RuleRun.triple_attempt
  intro actions
  have kept : Dialogue.Triple service (I actions)
      (automation.matcher.fires policy event rule.declaration.arguments) fun _ => I actions := by
    unfold Matcher.fires reviewsAccept
    split
    · exact Dialogue.triple_pure fun _ before => before
    · split
      · exact Dialogue.triple_pure fun _ before => before
      · exact Dialogue.triple_bind (Dialogue.triple_read_kept policy (reviewed _ actions))
          fun _ => Dialogue.triple_pure fun _ before => before
  exact Dialogue.triple_weaken kept (fun _ before => before) fun _ _ => Dialogue.either_of_both

theorem Automation.run_outcome {automation : Automation} {policy : RetryPolicy} {event : Event}
    {target : Target} {s s' : σ} {result : Except DispatchError Unit} {actions : List Action}
    (performed : RuleRun.perform service (automation.work policy event target) [] s =
      ((result, actions), s')) :
    (automation.outcome policy event target).run service s =
      (⟨automation.name, actions, match result with
        | .ok _ => none
        | .error error => some error⟩, s') := by
  unfold RuleRun.perform at performed
  unfold Automation.outcome
  rw [Dialogue.run_bind, performed]
  cases result with
  | ok _ => rfl
  | error _ => rfl

/-- What the work of an automation establishes, seen from its outcome. -/
theorem Automation.triple_outcome {automation : Automation} {policy : RetryPolicy} {event : Event}
    {target : Target} {I : List Action → σ → Prop}
    (work : RuleRun.Triple service I (automation.work policy event target) (fun _ => I) fun _ => I) :
    Dialogue.Triple service (I []) (automation.outcome policy event target)
      fun outcome => I outcome.actions := by
  intro s before
  have reached := work [] s before
  rcases performed : RuleRun.perform service (automation.work policy event target) [] s with
    ⟨⟨answer, noted⟩, after⟩
  rw [performed] at reached
  rw [Automation.run_outcome performed]
  cases answer with
  | ok value => exact reached
  | error error => exact reached

namespace Dispatcher

theorem triple_outcomes {policy : RetryPolicy} {event : Event} {target : Target}
    {automations : List Automation}
    (each : ∀ automation ∈ automations, ∀ done, Dialogue.Triple service (J done)
      (automation.outcome policy event target) fun outcome => J (done ++ [outcome]))
    (done : List Outcome) :
    Dialogue.Triple service (J done) (outcomes policy event target automations)
      fun found => J (done ++ found) := by
  induction automations generalizing done with
  | nil =>
    apply Dialogue.triple_pure
    intro s before
    rw [List.append_nil]
    exact before
  | cons automation rest others =>
    refine Dialogue.triple_bind (each automation List.mem_cons_self done) ?_
    intro outcome
    have following := others (fun other member => each other (List.mem_cons_of_mem _ member))
      (done ++ [outcome])
    refine Dialogue.triple_bind following ?_
    intro found
    apply Dialogue.triple_pure
    intro s after
    rw [List.append_assoc] at after
    exact after

/-- To resolve an event takes at most the description of a pull request. -/
theorem triple_resolve {dispatcher : Dispatcher} {event : Event}
    (described : ∀ url, Dialogue.Triple service P (Dialogue.call (.pullRequestBody url)) fun _ => P) :
    Dialogue.Triple service P (dispatcher.resolve event) fun _ => P := by
  unfold resolve
  split
  · exact Dialogue.triple_pure fun _ before => before
  · exact Dialogue.triple_pure fun _ before => before
  · split
    · exact Dialogue.triple_pure fun _ before => before
    · rename_i url _
      exact Dialogue.triple_bind (Dialogue.triple_read_kept _ (described url))
        fun _ => Dialogue.triple_pure fun _ before => before
  · exact Dialogue.triple_pure fun _ before => before

/-- A dispatch that ends in a report has run every automation of the dispatcher. -/
theorem triple_dispatch {dispatcher : Dispatcher} {event : Event}
    (described : ∀ url, Dialogue.Triple service P (Dialogue.call (.pullRequestBody url)) fun _ => P)
    (start : ∀ s, P s → J [] s)
    (each : ∀ automation ∈ dispatcher.automations, ∀ target done, Dialogue.Triple service (J done)
      (automation.outcome dispatcher.policy event target) fun outcome => J (done ++ [outcome])) :
    Dialogue.Triple service P (dispatcher.dispatch event)
      (Dialogue.Either (fun report => J report.outcomes) fun _ => P) := by
  unfold dispatch
  split
  · exact Dialogue.triple_pure fun _ before => before
  · refine Dialogue.triple_bind (triple_resolve described) ?_
    intro resolved
    cases resolved with
    | error error => exact Dialogue.triple_pure fun _ before => before
    | ok target =>
      have run := triple_outcomes (fun automation member => each automation member target) []
      refine Dialogue.triple_bind
        (Dialogue.triple_weaken run start fun _ _ after => after) ?_
      intro found
      exact Dialogue.triple_pure fun _ after => after

end Dispatcher

end Dispatch

end BoardRules
