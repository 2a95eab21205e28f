import BoardRules.Dispatch.Router
import Mathlib.Data.List.Nodup

/-!
# Groups of a catalog

A router finds for each trigger the automations that listen to it, in catalog order. The groups have
different triggers, and together they hold every automation as often as the catalog does.
-/
namespace BoardRules

namespace Catalog

/-- An automation comes last in the group of its trigger, which may be new. -/
theorem find?_addToGroup (automation : Automation) (groups : List (Trigger × List Automation))
    (trigger : Trigger) :
    (addToGroup automation groups).find? (fun group => group.1 == trigger) =
      if automation.trigger = trigger then
        some (trigger, ((groups.find? fun group => group.1 == trigger).map (·.2)).getD [] ++
          [automation])
      else groups.find? fun group => group.1 == trigger := by
  induction groups with
  | nil => by_cases here : automation.trigger = trigger <;> simp [addToGroup, here]
  | cons group rest others =>
    obtain ⟨other, members⟩ := group
    unfold addToGroup
    by_cases same : other = automation.trigger
    · subst same
      by_cases here : automation.trigger = trigger <;> simp [here]
    · rw [if_neg same]
      by_cases first : other = trigger
      · subst first
        simp [Ne.symm same]
      · simp [first, others]

/-- Groups that there are already grow by the automations that listen to their triggers. -/
theorem find?_foldl_addToGroup (catalog : Catalog) (groups : List (Trigger × List Automation))
    (trigger : Trigger) :
    (catalog.foldl (fun groups automation => addToGroup automation groups) groups).find?
        (fun group => group.1 == trigger) =
      if catalog.listeners trigger = [] then groups.find? fun group => group.1 == trigger
      else some (trigger, ((groups.find? fun group => group.1 == trigger).map (·.2)).getD [] ++
        catalog.listeners trigger) := by
  induction catalog generalizing groups with
  | nil => rfl
  | cons automation rest others =>
    rw [List.foldl_cons, others, find?_addToGroup]
    unfold listeners
    by_cases here : automation.trigger = trigger
    · by_cases last : rest.filter (fun automation => automation.trigger == trigger) = []
      · simp [here, last]
      · simp [here, last]
    · simp [here]

theorem find?_groups (catalog : Catalog) (trigger : Trigger) :
    catalog.groups.find? (fun group => group.1 == trigger) =
      if catalog.listeners trigger = [] then none
      else some (trigger, catalog.listeners trigger) :=
  catalog.find?_foldl_addToGroup [] trigger

/-- A group can only be new if there was none with its trigger. -/
theorem triggers_addToGroup (automation : Automation) (groups : List (Trigger × List Automation)) :
    (addToGroup automation groups).map (·.1) =
      if automation.trigger ∈ groups.map (·.1) then groups.map (·.1)
      else groups.map (·.1) ++ [automation.trigger] := by
  induction groups with
  | nil => rfl
  | cons group rest ih =>
    obtain ⟨other, members⟩ := group
    unfold addToGroup
    by_cases same : other = automation.trigger
    · simp [same]
    · have different : automation.trigger ≠ other := Ne.symm same
      rw [if_neg same, List.map_cons, ih]
      split <;> simp_all

theorem nodup_triggers_addToGroup {automation : Automation} {groups : List (Trigger × List Automation)}
    (distinct : (groups.map (·.1)).Nodup) : ((addToGroup automation groups).map (·.1)).Nodup := by
  rw [triggers_addToGroup]
  split
  · exact distinct
  · next fresh => exact List.concat_eq_append ▸ List.Nodup.concat fresh distinct

theorem nodup_triggers_groups (catalog : Catalog) : (catalog.groups.map (·.1)).Nodup := by
  unfold groups
  generalize initial : ([] : List (Trigger × List Automation)) = groups
  have distinct : (groups.map (·.1)).Nodup := initial ▸ List.nodup_nil
  clear initial
  induction catalog generalizing groups with
  | nil => exact distinct
  | cons automation rest ih => exact ih _ (nodup_triggers_addToGroup distinct)

theorem perm_addToGroup (automation : Automation) (groups : List (Trigger × List Automation)) :
    ((addToGroup automation groups).flatMap (·.2)).Perm (groups.flatMap (·.2) ++ [automation]) := by
  induction groups with
  | nil => exact .refl _
  | cons group rest ih =>
    obtain ⟨other, members⟩ := group
    unfold addToGroup
    split
    · simp only [List.flatMap_cons, List.append_assoc]
      exact List.perm_append_comm.append_left members
    · simp only [List.flatMap_cons, List.append_assoc]
      exact ih.append_left members

theorem perm_foldl_addToGroup (catalog : Catalog) (groups : List (Trigger × List Automation)) :
    ((catalog.foldl (fun groups automation => addToGroup automation groups) groups).flatMap
      (·.2)).Perm (groups.flatMap (·.2) ++ catalog) := by
  induction catalog generalizing groups with
  | nil => simp
  | cons automation rest ih =>
    rw [List.foldl_cons, show automation :: rest = [automation] ++ rest from rfl, ← List.append_assoc]
    exact (ih _).trans ((perm_addToGroup automation groups).append_right rest)

theorem perm_groups (catalog : Catalog) : (catalog.groups.flatMap (·.2)).Perm catalog :=
  perm_foldl_addToGroup catalog []

theorem mem_groups_iff (catalog : Catalog) (trigger : Trigger) (group : List Automation) :
    (trigger, group) ∈ catalog.groups ↔
      catalog.listeners trigger ≠ [] ∧ group = catalog.listeners trigger := by
  have found := catalog.find?_groups trigger
  constructor
  · intro member
    have first : catalog.groups.find? (fun group => group.1 == trigger) = some (trigger, group) := by
      cases result : catalog.groups.find? fun group => group.1 == trigger with
      | none => exact absurd (beq_self_eq_true trigger) (List.find?_eq_none.mp result _ member)
      | some other =>
        have same := List.find?_some result
        rw [List.inj_on_of_nodup_map catalog.nodup_triggers_groups
          (List.mem_of_find?_eq_some result) member (eq_of_beq same)]
    rw [first] at found
    split at found
    · cases found
    · next listened => exact ⟨listened, (Prod.mk.inj (Option.some.inj found)).2⟩
  · rintro ⟨listened, rfl⟩
    rw [if_neg listened] at found
    exact List.mem_of_find?_eq_some found
end Catalog

namespace Router

theorem dispatcher?_ofCatalog (policy : RetryPolicy) (catalog : Catalog) (trigger : Trigger) :
    (ofCatalog policy catalog).dispatcher? trigger =
      if catalog.listeners trigger = [] then none
      else some ⟨trigger, catalog.listeners trigger, policy⟩ := by
  have found := congrArg (Option.map fun group : Trigger × List Automation =>
    (⟨group.1, group.2, policy⟩ : Dispatcher)) (catalog.find?_groups trigger)
  unfold dispatcher? ofCatalog
  rw [List.find?_map]
  refine found.trans ?_
  split <;> rfl

/-- The dispatchers of a catalog are those that hold all automations of their triggers. -/
theorem dispatcher?_eq_some_iff (catalog : Catalog) (dispatcher : Dispatcher) :
    (ofCatalog dispatcher.policy catalog).dispatcher? dispatcher.trigger = some dispatcher ↔
      dispatcher.automations = catalog.listeners dispatcher.trigger ∧ dispatcher.automations ≠ [] := by
  obtain ⟨trigger, automations, policy⟩ := dispatcher
  rw [dispatcher?_ofCatalog]
  dsimp only
  by_cases none : catalog.listeners trigger = []
  · simp [none]
  · rw [if_neg none]
    constructor
    · intro same
      cases same
      exact ⟨rfl, none⟩
    · intro all
      rw [all.1]

end Router

end BoardRules
