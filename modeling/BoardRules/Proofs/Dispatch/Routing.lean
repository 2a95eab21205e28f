import BoardRules.Proofs.Dispatch.CallDiscipline

/-!
# Routing

The groups of a catalog, the look-up by trigger and the router agree: each is a view of the same
automations. `route_answers_listeners` says so for every catalog, and that an event is routed to
exactly the automations that listen to it. They get one outcome each, whatever becomes of them.
-/
namespace BoardRules

variable {σ : Type}

namespace Dispatcher

/-- An event is resolved to a target or fails by what it holds, never by its trigger. -/
theorem resolve_ne_triggerMismatch (dispatcher : Dispatcher) (event : Event) (service : Service σ)
    (s : σ) (expected actual : Trigger) :
    ((dispatcher.resolve event).run service s).1 ≠ .error (.triggerMismatch expected actual) := by
  unfold resolve
  split
  · rename_i issue _
    cases EntityUrl.parse issue.htmlUrl <;> nofun
  · nofun
  · rename_i pullRequest _
    cases EntityUrl.parse pullRequest.htmlUrl with
    | error error => nofun
    | ok url =>
      dsimp only
      rw [Dialogue.run_bind]
      cases ((Dialogue.read dispatcher.policy (.pullRequestBody url)).run service s).1 <;> nofun
  · nofun

/-- What comes of an event of the dispatcher's own trigger: a report with an outcome for each
automation, or an error that does not blame the trigger. -/
def Answers (dispatcher : Dispatcher) : Except DispatchError Report → Prop
  | .ok report => report.trigger = dispatcher.trigger ∧
    report.outcomes.map (·.rule) = dispatcher.automations.map (·.name)
  | .error error => ∀ expected actual, error ≠ .triggerMismatch expected actual

theorem answers_dispatch {dispatcher : Dispatcher} {event : Event}
    (own : event.trigger = dispatcher.trigger) (service : Service σ) (s : σ) :
    dispatcher.Answers ((dispatcher.dispatch event).run service s).1 := by
  have resolved := dispatcher.resolve_ne_triggerMismatch event service s
  unfold dispatch
  rw [if_neg (not_not_intro own), Dialogue.run_bind]
  cases result : ((dispatcher.resolve event).run service s).1 with
  | error error =>
    rw [result] at resolved
    exact fun expected actual same => resolved expected actual (congrArg _ same)
  | ok target =>
    dsimp only
    rw [Dialogue.run_bind, Dialogue.run_pure]
    exact ⟨rfl, rules_outcomes _ _ _ _ service _⟩

end Dispatcher

namespace Router

variable {router : Router} {event : Event}

theorem trigger_of_dispatcher? {dispatcher : Dispatcher} {trigger : Trigger}
    (found : router.dispatcher? trigger = some dispatcher) : trigger = dispatcher.trigger := by
  unfold dispatcher? at found
  have same := List.find?_some found
  exact (eq_of_beq same).symm

theorem run_route_of_dispatcher? {dispatcher : Dispatcher}
    (found : router.dispatcher? event.trigger = some dispatcher) (service : Service σ) (s : σ) :
    ((router.route event).run service s).1 =
      ((dispatcher.dispatch event).run service s).1.map some := by
  unfold route
  rw [found]
  dsimp only
  rw [Dialogue.run_bind, Dialogue.run_pure]

/-- An event that the router handles finds the dispatcher of its own trigger. -/
theorem route_of_handles (handled : router.handles event.trigger = true) (service : Service σ)
    (s : σ) : ((router.route event).run service s).1 ≠ .ok none ∧ ∀ expected actual,
      ((router.route event).run service s).1 ≠ .error (.triggerMismatch expected actual) := by
  obtain ⟨dispatcher, found⟩ := Option.isSome_iff_exists.mp handled
  have answers := Dispatcher.answers_dispatch (trigger_of_dispatcher? found) service s
  rw [run_route_of_dispatcher? found]
  cases result : ((dispatcher.dispatch event).run service s).1 with
  | ok report => exact ⟨nofun, nofun⟩
  | error error =>
    rw [result] at answers
    exact ⟨nofun, fun expected actual same => answers expected actual (Except.error.inj same)⟩

/-! ## The triggers of a router -/

/-- The triggers that are listed are those that are handled. -/
theorem mem_triggers_iff (router : Router) (trigger : Trigger) :
    trigger ∈ router.triggers ↔ router.handles trigger = true := by
  unfold triggers handles dispatcher?
  rw [List.mem_mergeSort, List.mem_map, List.find?_isSome]
  simp only [beq_iff_eq]

/-- If no trigger has two dispatchers, the triggers stand in the order in which they are declared, none
of them twice: sorted, and with no two alike. -/
theorem pairwise_triggers (distinct : (router.dispatchers.map (·.trigger)).Nodup) :
    router.triggers.Pairwise fun first second => first.ctorIdx < second.ctorIdx := by
  have sorted : router.triggers.Pairwise fun first second =>
      decide (first.ctorIdx ≤ second.ctorIdx) = true := by
    refine List.pairwise_mergeSort ?_ ?_ _
    · intro first second third before after
      simp only [decide_eq_true_eq] at before after ⊢
      exact Nat.le_trans before after
    · intro first second
      simp only [Bool.or_eq_true, decide_eq_true_eq]
      exact Nat.le_total _ _
  have apart : router.triggers.Nodup := (List.mergeSort_perm _ _).nodup_iff.mpr distinct
  refine (sorted.and apart).imp ?_
  rintro first second ⟨before, different⟩
  refine Nat.lt_of_le_of_ne (of_decide_eq_true before) fun same => different ?_
  rw [← first.ofNat_ctorIdx, same, second.ofNat_ctorIdx]

/-! ## Routers of catalogs -/

variable (policy : RetryPolicy) (catalog : Catalog)

theorem handles_ofCatalog_iff (trigger : Trigger) :
    (ofCatalog policy catalog).handles trigger = true ↔ catalog.listeners trigger ≠ [] := by
  rw [handles, dispatcher?_ofCatalog]
  split <;> simp_all

theorem mem_triggers_ofCatalog_iff (trigger : Trigger) :
    trigger ∈ (ofCatalog policy catalog).triggers ↔ catalog.listeners trigger ≠ [] := by
  rw [mem_triggers_iff, handles_ofCatalog_iff]

/-- Each group of a catalog gets a dispatcher, and no two groups have one trigger. -/
theorem nodup_triggers_ofCatalog :
    ((ofCatalog policy catalog).dispatchers.map (·.trigger)).Nodup := by
  unfold ofCatalog
  rw [List.map_map]
  exact catalog.nodup_triggers_groups

end Router

/-- No other group than that of its trigger holds an automation. -/
theorem Catalog.existsUnique_group {catalog : Catalog} {automation : Automation}
    (member : automation ∈ catalog) :
    ∃! group, group ∈ catalog.groups ∧ automation ∈ group.2 := by
  have listens : automation ∈ catalog.listeners automation.trigger :=
    List.mem_filter.mpr ⟨member, beq_self_eq_true _⟩
  refine ⟨(automation.trigger, catalog.listeners automation.trigger), ⟨?_, listens⟩, ?_⟩
  · exact (catalog.mem_groups_iff _ _).mpr ⟨List.ne_nil_of_mem listens, rfl⟩
  · rintro ⟨trigger, group⟩ ⟨known, inside⟩
    obtain ⟨_, rfl⟩ := (catalog.mem_groups_iff _ _).mp known
    have same : automation.trigger = trigger := eq_of_beq (List.mem_filter.mp inside).2
    rw [same]

/-- The groups of a catalog hold for every trigger with listeners exactly these, in their order, and
every automation once. The router handles these triggers and lists them in their own order. It has
nothing to say on an event without listeners; otherwise it reports one outcome for each of them, in
their order, or it fails, but not by sending the event to the wrong dispatcher. -/
theorem Router.route_answers_listeners (policy : RetryPolicy) (catalog : Catalog) (event : Event) :
    let router := ofCatalog policy catalog
    ((catalog.groups.map (·.1)).Nodup ∧
      (∀ trigger group, (trigger, group) ∈ catalog.groups ↔
        catalog.listeners trigger ≠ [] ∧ group = catalog.listeners trigger) ∧
      (catalog.groups.flatMap (·.2)).Perm catalog ∧
      ∀ automation ∈ catalog, ∃! group, group ∈ catalog.groups ∧ automation ∈ group.2) ∧
    ((∀ trigger, router.handles trigger = true ↔ catalog.listeners trigger ≠ []) ∧
      (∀ trigger, trigger ∈ router.triggers ↔ catalog.listeners trigger ≠ []) ∧
      router.triggers.Pairwise fun first second => first.ctorIdx < second.ctorIdx) ∧
    ∀ (σ : Type) (service : Service σ) (s : σ),
      match ((router.route event).run service s).1 with
      | .ok none => catalog.listeners event.trigger = []
      | .ok (some report) => catalog.listeners event.trigger ≠ [] ∧
        report.trigger = event.trigger ∧
        report.outcomes.map (·.rule) = (catalog.listeners event.trigger).map (·.name)
      | .error error => catalog.listeners event.trigger ≠ [] ∧
        ∀ expected actual, error ≠ .triggerMismatch expected actual := by
  intro router
  refine ⟨⟨catalog.nodup_triggers_groups, catalog.mem_groups_iff, catalog.perm_groups,
    fun _ => Catalog.existsUnique_group⟩, ⟨handles_ofCatalog_iff policy catalog,
    mem_triggers_ofCatalog_iff policy catalog,
    pairwise_triggers (nodup_triggers_ofCatalog policy catalog)⟩, ?_⟩
  intro σ service s
  have found := dispatcher?_ofCatalog policy catalog event.trigger
  split at found
  · next unheard =>
    have nobody : (router.route event).run service s = (.ok none, s) := by
      unfold route
      rw [found]
      rfl
    rw [nobody]
    exact unheard
  · next heard =>
    have answers := Dispatcher.answers_dispatch (trigger_of_dispatcher? found) service s
    rw [run_route_of_dispatcher? found]
    cases result : (Dispatcher.dispatch ⟨event.trigger, catalog.listeners event.trigger, policy⟩
        event).run service s with
    | mk answer s' =>
      rw [result] at answers
      cases answer with
      | ok report => exact ⟨heard, answers⟩
      | error error => exact ⟨heard, answers⟩

end BoardRules
