import BoardRules.Proofs.Dispatch.Absorption

/-!
# Calls

What a dialogue asks for, without the answers. A run asks for what its parts ask for until one of
them fails, so steps are asked for up to the first that is refused, that one included.
-/
namespace BoardRules

variable {σ α β : Type}

namespace Dialogue

/-- The calls of a dialogue, in order. -/
def calls (service : Service σ) (d : Dialogue α) (s : σ) : List Call :=
  (d.record service s).map (·.call)

theorem calls_bind (service : Service σ) (d : Dialogue α) (next : α → Dialogue β) (s : σ) :
    (d >>= next).calls service s = d.calls service s ++
      (next (d.run service s).1).calls service (d.run service s).2 := by
  unfold calls
  rw [record_bind, List.map_append]

theorem calls_call (service : Service σ) (call : Call) (s : σ) :
    (Dialogue.call call).calls service s = [call] := rfl

/-- All attempts of a read are the same call. -/
theorem eq_of_mem_calls_read {service : Service σ} {policy : RetryPolicy} {call asked : Call}
    (isRead : call.isRead = true) {s : σ}
    (member : asked ∈ (Dialogue.read policy call).calls service s) : asked = call := by
  obtain ⟨block, grown, _, errors, attempts, _⟩ :=
    attempt_recorded service call isRead policy.maxRetries s []
  have recorded : (Dialogue.read policy call).record service s = block := grown
  unfold calls at member
  rw [recorded, attempts] at member
  simp only [List.map_append, List.map_map, List.mem_append, List.mem_map, List.map_cons,
    List.map_nil, List.mem_singleton, Function.comp_apply] at member
  rcases member with ⟨_, _, same⟩ | same
  · exact same.symm
  · exact same

end Dialogue

namespace RuleRun

/-- The calls of a run. -/
def calls (service : Service σ) (work : RuleRun α) (actions : List Action) (s : σ) : List Call :=
  (work.run.run actions).calls service s

variable (service : Service σ) (actions : List Action) (s : σ)

theorem calls_bind (work : RuleRun α) (next : α → RuleRun β) :
    calls service (work >>= next) actions s = calls service work actions s ++
      match perform service work actions s with
      | ((.ok value, actions), s) => calls service (next value) actions s
      | ((.error _, _), _) => [] := by
  unfold calls perform
  rw [run_bind, Dialogue.calls_bind]
  rcases (work.run.run actions).run service s with ⟨⟨_ | _, noted⟩, reached⟩ <;> rfl

theorem calls_attempt (wrap : TrackingError → DispatchError)
    (d : Dialogue (Except TrackingError α)) :
    calls service (attempt wrap d) actions s = d.calls service s := by
  unfold calls
  rw [run_attempt, Dialogue.calls_bind]
  exact List.append_nil _

theorem calls_read (policy : RetryPolicy) (call : Call) :
    calls service (read policy call) actions s = (Dialogue.read policy call).calls service s :=
  calls_attempt service actions s .tracking _

theorem calls_take (step : Step) : calls service step.take actions s = [step.call] := by
  unfold Step.take
  rw [calls_bind, calls_attempt, Dialogue.calls_call]
  -- To note what has been done takes no call.
  rcases perform service _ actions s with ⟨⟨_ | _, noted⟩, reached⟩ <;> rfl

/-- Steps are asked for one after the other, and all of them if none is refused. -/
theorem calls_steps (steps : List Step) :
    calls service (steps.forM Step.take) actions s <+: steps.map Step.call ∧
      ((perform service (steps.forM Step.take) actions s).1.1.isOk = true →
        calls service (steps.forM Step.take) actions s = steps.map Step.call) := by
  induction steps generalizing actions s with
  | nil => exact ⟨List.prefix_refl [], fun _ => rfl⟩
  | cons step rest others =>
    rw [Step.perform_cons, List.map_cons, List.forM_eq_forM, List.forM_cons, ← List.forM_eq_forM,
      calls_bind, calls_take, Step.perform_take]
    rcases service step.call s with ⟨error | answer, s'⟩
    · refine ⟨List.prefix_append [step.call] _, fun success => ?_⟩
      cases success
    · obtain ⟨begun, complete⟩ := others (actions ++ [step.action answer]) s'
      exact ⟨(List.prefix_append_right_inj [step.call]).mpr begun,
        fun success => congrArg (step.call :: ·) (complete success)⟩

end RuleRun

/-- An automation asks for what its work asks for. -/
theorem Automation.calls_outcome (service : Service σ) (automation : Automation)
    (policy : RetryPolicy) (event : Event) (target : Target) (s : σ) :
    (automation.outcome policy event target).calls service s =
      RuleRun.calls service (automation.work policy event target) [] s := by
  unfold outcome
  rw [Dialogue.calls_bind]
  exact List.append_nil _

end BoardRules
