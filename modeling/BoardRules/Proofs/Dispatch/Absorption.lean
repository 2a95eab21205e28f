import BoardRules.Proofs.Dispatch.Transition

/-!
# Absorbed failures

Injected failures hit the first reads, whichever these are. All reads of a dispatch are retried, so as
many failures as there are retries are used up by the first one, whose last attempt is a real one. From
there on the dispatch goes on as if there had been no failures, also if that attempt fails.
-/
namespace BoardRules

variable {α β : Type}

/-! ## Dialogues that retry their reads -/

/-- All reads of the dialogue are retried, and its changes are made once. -/
inductive Dialogue.Retried (policy : RetryPolicy) : Dialogue α → Prop where
  | done (value : α) : Retried policy (.done value)
  | read (call : Call) (next : call.Result → Dialogue α) :
      call.isRead = true → (∀ answer, Retried policy (next answer)) →
      Retried policy (Dialogue.read policy call >>= next)
  | change (call : Call) (next : call.Result → Dialogue α) :
      call.isRead = false → (∀ answer, Retried policy (next answer)) →
      Retried policy (.ask call next)

namespace Dialogue.Retried

variable {policy : RetryPolicy} {d : Dialogue α}

theorem bind {next : α → Dialogue β} (first : d.Retried policy)
    (rest : ∀ value, (next value).Retried policy) : (d >>= next).Retried policy := by
  induction first with
  | done value => exact rest value
  | read call following isRead _ others =>
    rw [bind_assoc]
    exact .read call _ isRead others
  | change call following changes _ others => exact .change call _ changes others

theorem read_call {call : Call} (isRead : call.isRead = true) :
    (Dialogue.read policy call).Retried policy := by
  rw [← bind_pure (Dialogue.read policy call)]
  exact .read call _ isRead .done

end Dialogue.Retried

theorem RuleRun.retried (policy : RetryPolicy) :
    Compositional policy (fun _ _ d => d.Retried policy)
      fun _ work => ∀ actions : List Action, Dialogue.Retried policy (work.run.run actions) where
  settled _ _ := .done _
  map _ retried := retried.bind fun _ => .done _
  read _ isRead := .read_call isRead
  change call changes := .change call _ changes .done
  attempt retried actions := by
    rw [run_attempt]
    exact retried.bind fun _ => .done _
  pure _ _ := .done _
  bind first rest actions := by
    rw [run_bind]
    refine (first actions).bind ?_
    intro found
    obtain ⟨value | error, noted⟩ := found
    · exact .done _
    · exact rest _ noted
  note _ _ := .done _

theorem Automation.outcome_retried (automation : Automation) (policy : RetryPolicy) (event : Event)
    (target : Target) : (automation.outcome policy event target).Retried policy :=
  ((RuleRun.retried policy).work automation event target []).bind fun _ => .done _

namespace Dispatcher

theorem resolve_retried (dispatcher : Dispatcher) (event : Event) :
    (dispatcher.resolve event).Retried dispatcher.policy := by
  unfold resolve
  split
  · exact .done _
  · exact .done _
  · split
    · exact .done _
    · exact .read _ _ rfl fun _ => .done _
  · exact .done _

theorem outcomes_retried (policy : RetryPolicy) (event : Event) (target : Target)
    (automations : List Automation) :
    (outcomes policy event target automations).Retried policy := by
  induction automations with
  | nil => exact .done _
  | cons automation rest others =>
    exact (automation.outcome_retried policy event target).bind fun _ => others.bind fun _ => .done _

theorem dispatch_retried (dispatcher : Dispatcher) (event : Event) :
    (dispatcher.dispatch event).Retried dispatcher.policy := by
  unfold dispatch
  split
  · exact .done _
  · refine (dispatcher.resolve_retried event).bind ?_
    intro resolved
    cases resolved with
    | error _ => exact .done _
    | ok target => exact (outcomes_retried _ _ _ _).bind fun _ => .done _

end Dispatcher

theorem Router.route_retried (policy : RetryPolicy) (catalog : Catalog) (event : Event) :
    ((ofCatalog policy catalog).route event).Retried policy := by
  unfold route
  rw [dispatcher?_ofCatalog]
  by_cases unheard : catalog.listeners event.trigger = []
  · rw [if_pos unheard]
    exact .done _
  · rw [if_neg unheard]
    exact (Dispatcher.dispatch_retried ⟨event.trigger, catalog.listeners event.trigger, policy⟩
      event).bind fun _ => .done _

/-! ## Failures that are due -/

namespace Store

/-- Changes do not care for failures that are due. -/
theorem service_failNextReads {call : Call} (changes : call.isRead = false) (s : Store) (n : Nat) :
    service call (s.failNextReads n) = ((service call s).1, (service call s).2.failNextReads n) := by
  have column (id : ColumnId) : (s.failNextReads n).column? id = s.column? id := rfl
  have card (id : CardId) : (s.failNextReads n).card? id = s.card? id := rfl
  have entity (id : EntityId) : (s.failNextReads n).entityById? id = s.entityById? id := rfl
  cases call with
  | boardsForEntity | cardContext | cardMemberships | pullRequestBody | reviews => cases changes
  | createCard id content =>
    simp only [service, createCard, makeCard, column]
    cases s.column? id <;> rfl
  | moveCard moved id after =>
    simp only [service, moveCard, column, card]
    cases s.card? moved with
    | none => rfl
    | some stored =>
      cases s.column? id with
      | none => rfl
      | some target =>
        dsimp only
        cases insertAt moved after (target.cards.filter (· ≠ moved)) <;> rfl
  | closeIssue id =>
    simp only [service, closeIssue, entity]
    cases s.entityById? id <;> rfl

/-- A failure that is due hits whatever is read next. -/
theorem service_due {call : Call} (isRead : call.isRead = true) (s : Store) (n : Nat) :
    service call (s.failNextReads (n + 1)) =
      (.error (.transport "injected read failure"), s.failNextReads n) := by
  cases call with
  | boardsForEntity | cardContext | cardMemberships | pullRequestBody | reviews => rfl
  | createCard | moveCard | closeIssue => cases isRead

theorem failNextReads_self {s : Store} (calm : s.failingReads = 0) : s.failNextReads 0 = s := by
  rw [← calm]
  rfl

/-- No more failures than there are retries leave a last attempt that is a real one. -/
theorem run_attempt_due {call : Call} (isRead : call.isRead = true) {retries n : Nat}
    (few : n ≤ retries) {s : Store} (calm : s.failingReads = 0) :
    (RetryPolicy.attempt (Dialogue.call call) retries).run service (s.failNextReads n) =
      service call s := by
  induction n generalizing retries with
  | zero =>
    rw [failNextReads_self calm]
    exact run_attempt_calm isRead retries calm
  | succ n others =>
    obtain ⟨rest, rfl⟩ := Nat.exists_eq_add_one.mpr (Nat.lt_of_lt_of_le n.succ_pos few)
    have once : (Dialogue.call call).run service (s.failNextReads (n + 1)) = _ :=
      service_due isRead s n
    unfold RetryPolicy.attempt
    rw [Dialogue.run_bind, once]
    exact others (Nat.le_of_succ_le_succ few)

/-- More failures than that make all attempts fail. -/
theorem run_attempt_overdue {call : Call} (isRead : call.isRead = true) {retries n : Nat}
    (many : retries < n) (s : Store) :
    ∃ error left, (RetryPolicy.attempt (Dialogue.call call) retries).run service
      (s.failNextReads n) = (.error error, s.failNextReads left) := by
  induction retries generalizing n with
  | zero =>
    obtain ⟨rest, rfl⟩ := Nat.exists_eq_add_one.mpr many
    exact ⟨_, rest, service_due isRead s rest⟩
  | succ retries others =>
    obtain ⟨rest, rfl⟩ := Nat.exists_eq_add_one.mpr (Nat.lt_of_le_of_lt (Nat.zero_le _) many)
    have once : (Dialogue.call call).run service (s.failNextReads (rest + 1)) = _ :=
      service_due isRead s rest
    unfold RetryPolicy.attempt
    rw [Dialogue.run_bind, once]
    exact others (Nat.lt_of_succ_lt_succ many)

/-- A read that is retried changes at most how many failures are due, and once it succeeds none are. -/
theorem run_read_cases (policy : RetryPolicy) {call : Call} (isRead : call.isRead = true) (s : Store) :
    (∃ error left, (Dialogue.read policy call).run service s = (.error error, s.failNextReads left)) ∨
      ∃ value, service call (s.failNextReads 0) = (.ok value, s.failNextReads 0) ∧
        (Dialogue.read policy call).run service s = (.ok value, s.failNextReads 0) := by
  by_cases few : s.failingReads ≤ policy.maxRetries
  · have due : (Dialogue.read policy call).run service s = service call (s.failNextReads 0) :=
      run_attempt_due (s := s.failNextReads 0) isRead few rfl
    have same : (service call (s.failNextReads 0)).2 = s.failNextReads 0 := service_calm isRead rfl
    cases answer : (service call (s.failNextReads 0)).1 with
    | error error => exact .inl ⟨error, 0, due.trans (Prod.ext answer same)⟩
    | ok value => exact .inr ⟨value, Prod.ext answer same, due.trans (Prod.ext answer same)⟩
  · exact .inl (run_attempt_overdue isRead (Nat.lt_of_not_le few) s)

end Store

/-! ## Records of reads -/

/-- A dialogue that is held while a record is kept adds its own record. -/
theorem Dialogue.run_recorded_from {σ : Type} (service : Service σ) (d : Dialogue α) (s : σ)
    (record : List Exchange) :
    (d.run service.recorded (s, record)).2.2 = record ++ d.record service s := by
  induction d generalizing s record with
  | done value => exact (List.append_nil record).symm
  | ask call next others =>
    have first := others (service call s).1 (service call s).2 (record ++ [⟨call, (service call s).1⟩])
    have fresh := others (service call s).1 (service call s).2 ([] ++ [⟨call, (service call s).1⟩])
    rw [List.append_assoc] at first
    exact first.trans (congrArg (record ++ ·) fresh.symm)

theorem Dialogue.record_bind {σ : Type} (service : Service σ) (d : Dialogue α) (next : α → Dialogue β)
    (s : σ) : (d >>= next).record service s =
      d.record service s ++ (next (d.run service s).1).record service (d.run service s).2 := by
  obtain ⟨value, reached⟩ := d.run_recorded service s []
  have first : (d.run service.recorded (s, [])).2 = ((d.run service s).2, d.record service s) :=
    Prod.ext reached rfl
  unfold record
  rw [run_bind, value, first]
  exact run_recorded_from service _ _ _

/-- Whether any of the calls is a read. -/
def reads (record : List Exchange) : Bool := record.any fun exchange => exchange.call.isRead

theorem Dialogue.reads_record_read {σ : Type} (service : Service σ) (policy : RetryPolicy) {call : Call}
    (isRead : call.isRead = true) (s : σ) :
    reads ((Dialogue.read policy call).record service s) = true := by
  obtain ⟨block, split, _, errors, attempts, _⟩ :=
    attempt_recorded service call isRead policy.maxRetries s []
  have recorded : (Dialogue.read policy call).record service s = block := split
  rw [recorded, attempts]
  simp [reads, isRead]

/-- Held while `n` failures are due, a dialogue does what it does without them. They are gone if it has
read anything, and are all left if it has not. -/
structure Dialogue.Absorbs (d : Dialogue α) (s : Store) (n : Nat) : Prop where
  result : (d.run Store.service (s.failNextReads n)).1 = (d.run Store.service (s.failNextReads 0)).1
  contents : (d.run Store.service (s.failNextReads n)).2.failNextReads 0 =
    (d.run Store.service (s.failNextReads 0)).2
  left : (d.run Store.service (s.failNextReads n)).2.failingReads =
    if reads (d.record Store.service (s.failNextReads n)) then 0 else n

/-- The first read uses up all failures, if there are no more of them than there are retries. -/
theorem Dialogue.Retried.run_due {policy : RetryPolicy} {d : Dialogue α} (retried : d.Retried policy)
    {s : Store} {n : Nat} (calm : s.failingReads = 0) (few : n ≤ policy.maxRetries) :
    d.run Store.service (s.failNextReads n) = ((d.run Store.service s).1,
      (d.run Store.service s).2.failNextReads
        (if reads (d.record Store.service (s.failNextReads n)) then 0 else n)) := by
  induction retried generalizing s with
  | done value => rfl
  | read call next isRead _ _ =>
    -- The first read uses up the failures, and both runs go on from the same store.
    have failing : (Dialogue.read policy call).run Store.service (s.failNextReads n) =
        Store.service call s := Store.run_attempt_due isRead few calm
    have once : (Dialogue.read policy call).run Store.service s = Store.service call s :=
      Store.run_attempt_calm isRead _ calm
    have seen : reads ((Dialogue.read policy call >>= next).record Store.service
        (s.failNextReads n)) = true := by
      rw [record_bind]
      unfold reads
      rw [List.any_append, Bool.or_eq_true]
      exact .inl (reads_record_read Store.service policy isRead _)
    have after := ((Store.Calm.service ⟨calm, rfl⟩ call).run
      (next (Store.service call s).1) : Store.Calm s _)
    rw [seen, if_pos rfl, run_bind, run_bind, failing, once, Store.failNextReads_self after.reads]
  | change call next changes _ others =>
    have after := (Store.Calm.service ⟨calm, rfl⟩ call : Store.Calm s _)
    have failing := Store.service_failNextReads changes s n
    have rest := others (Store.service call s).1 after.reads
    have recorded : (Dialogue.ask call next).record Store.service (s.failNextReads n) =
        ⟨call, (Store.service call s).1⟩ :: (next (Store.service call s).1).record Store.service
          ((Store.service call s).2.failNextReads n) := by
      refine (record_bind Store.service (Dialogue.call call) next _).trans ?_
      change ⟨call, (Store.service call (s.failNextReads n)).1⟩ ::
        (next (Store.service call (s.failNextReads n)).1).record Store.service
          (Store.service call (s.failNextReads n)).2 = _
      rw [failing]
    have unread : reads ((Dialogue.ask call next).record Store.service (s.failNextReads n)) =
        reads ((next (Store.service call s).1).record Store.service
          ((Store.service call s).2.failNextReads n)) := by
      rw [recorded]
      simp [reads, changes]
    change (next (Store.service call (s.failNextReads n)).1).run Store.service
      (Store.service call (s.failNextReads n)).2 = _
    rw [unread, failing]
    exact rest

theorem Dialogue.Retried.absorbs {policy : RetryPolicy} {d : Dialogue α} (retried : d.Retried policy)
    (s : Store) {n : Nat} (few : n ≤ policy.maxRetries) : d.Absorbs s n := by
  have calm : Store.Calm (s.failNextReads 0) (s.failNextReads 0) := ⟨rfl, rfl⟩
  have due := retried.run_due calm.reads few
  change d.run Store.service (s.failNextReads n) = _ at due
  refine ⟨by rw [due], ?_, by rw [due]; rfl⟩
  rw [due]
  exact Store.failNextReads_self (calm.run d).reads

/-! ## Resolved dispatches -/

namespace Dispatcher

variable {σ : Type} {dispatcher : Dispatcher} {event : Event} {target : Target}

/-- Only an event about a card is resolved to a moved card, and that is the card. -/
theorem target_of_resolve {service : Service σ} {s : σ}
    (resolved : ((dispatcher.resolve event).run service s).1 = .ok target) :
    (∃ card, event.subject = .projectCard card ∧ target = .movedCard ⟨card.nodeId⟩) ∨
      ∃ url, target = .entity url := by
  unfold resolve at resolved
  split at resolved
  · rename_i issue _
    rw [Dialogue.run_pure] at resolved
    cases parsed : EntityUrl.parse issue.htmlUrl <;> rw [parsed] at resolved <;> cases resolved
    exact .inr ⟨_, rfl⟩
  · rename_i card about
    cases resolved
    exact .inl ⟨card, about, rfl⟩
  · split at resolved
    · cases resolved
    · rename_i url _
      rw [Dialogue.run_bind, Dialogue.run_pure] at resolved
      cases read : ((Dialogue.read dispatcher.policy (.pullRequestBody url)).run service s).1 <;>
        rw [read] at resolved <;> cases resolved
      exact .inr ⟨_, rfl⟩
  · cases resolved

/-- A dispatch that is resolved is what its automations do one after the other. -/
theorem run_resolved {service : Service σ} {s s' : σ} (listens : event.trigger = dispatcher.trigger)
    (resolved : (dispatcher.resolve event).run service s = (.ok target, s')) :
    let work := outcomes dispatcher.policy event target dispatcher.automations
    (dispatcher.dispatch event).run service s =
        (.ok ⟨dispatcher.trigger, (work.run service s').1⟩, (work.run service s').2) ∧
      (dispatcher.dispatch event).record service s =
        (dispatcher.resolve event).record service s ++ work.record service s' := by
  intro work
  unfold dispatch
  rw [if_neg (not_not_intro listens), Dialogue.run_bind, Dialogue.record_bind, resolved]
  dsimp only
  rw [Dialogue.run_bind, Dialogue.record_bind]
  exact ⟨rfl, congrArg _ (List.append_nil _)⟩

/-- To resolve an event takes no changes, so those of a clean report have all succeeded. -/
theorem changes_succeed {service : Service σ} {s : σ} {report : Report}
    (listens : event.trigger = dispatcher.trigger)
    (resolved : ((dispatcher.resolve event).run service s).1 = .ok target)
    (ran : ((dispatcher.dispatch event).run service s).1 = .ok report)
    (clean : ∀ outcome ∈ report.outcomes, outcome.error = none) :
    ∀ exchange ∈ (dispatcher.dispatch event).record service s,
      exchange.call.isRead = false → exchange.answer.isOk = true := by
  obtain ⟨again, recorded⟩ := run_resolved listens (Prod.ext resolved rfl)
  obtain ⟨resolving, grown, reads, _⟩ := dispatcher.resolve_recorded event service s []
  have same : (dispatcher.resolve event).record service s = resolving := grown
  rw [again] at ran
  cases ran
  rw [recorded, same]
  intro exchange member changes
  rcases List.mem_append.mp member with before | after
  · rw [reads exchange before] at changes
    cases changes
  · exact outcomes_changes dispatcher.policy event target _ service _ clean exchange after changes

/-- To resolve an event takes nothing but the description of a pull request. -/
theorem run_resolve (dispatcher : Dispatcher) (event : Event) (s : Store) :
    ∃ left, ((dispatcher.resolve event).run Store.service s).2 = s.failNextReads left := by
  have nothing : s = s.failNextReads s.failingReads := rfl
  unfold resolve
  split
  · exact ⟨_, nothing⟩
  · exact ⟨_, nothing⟩
  · split
    · exact ⟨_, nothing⟩
    · rename_i url _
      rw [Dialogue.run_bind]
      have isRead : (Call.pullRequestBody url).isRead = true := rfl
      rcases Store.run_read_cases dispatcher.policy isRead s with
        ⟨error, left, failed⟩ | ⟨answer, _, answered⟩
      · rw [failed]
        exact ⟨left, rfl⟩
      · rw [answered]
        exact ⟨0, rfl⟩
  · exact ⟨_, nothing⟩

theorem resolve_calm (dispatcher : Dispatcher) (event : Event) {s : Store}
    (reads : s.failingReads = 0) : ((dispatcher.resolve event).run Store.service s).2 = s := by
  obtain ⟨left, resolved⟩ := dispatcher.run_resolve event s
  have calm : Store.Calm s _ := Store.Calm.run ⟨reads, rfl⟩ (dispatcher.resolve event)
  rw [resolved] at calm ⊢
  obtain rfl : left = s.failingReads := calm.reads.trans reads.symm
  rfl

/-- Without failing reads, a dispatch is what its automations do, if the event is about something. -/
theorem run_dispatch_calm {s : Store} (listens : event.trigger = dispatcher.trigger)
    (reads : s.failingReads = 0) :
    (dispatcher.dispatch event).run Store.service s =
      match ((dispatcher.resolve event).run Store.service s).1 with
      | .error error => (.error error, s)
      | .ok target =>
        let done := (outcomes dispatcher.policy event target dispatcher.automations).run
          Store.service s
        (.ok ⟨dispatcher.trigger, done.1⟩, done.2) := by
  have settled := dispatcher.resolve_calm event reads
  cases resolved : ((dispatcher.resolve event).run Store.service s).1 with
  | error error =>
    unfold dispatch
    rw [if_neg (not_not_intro listens), Dialogue.run_bind, resolved, settled]
    rfl
  | ok target => exact (run_resolved listens (Prod.ext resolved settled)).1

/-- Failures that are due do not matter to what the automations do. -/
theorem run_absorbed (dispatcher : Dispatcher) {s : Store}
    (few : s.failingReads ≤ dispatcher.policy.maxRetries)
    (listens : event.trigger = dispatcher.trigger)
    (resolved : ((dispatcher.resolve event).run Store.service s).1 = .ok target) :
    let done := (outcomes dispatcher.policy event target dispatcher.automations).run Store.service
      (s.failNextReads 0)
    let reached := (dispatcher.dispatch event).run Store.service s
    reached.1 = .ok ⟨dispatcher.trigger, done.1⟩ ∧ reached.2.failNextReads 0 = done.2 := by
  intro done reached
  have settled : (dispatcher.resolve event).run Store.service (s.failNextReads 0) =
      (.ok target, s.failNextReads 0) := by
    have absorbed := ((dispatcher.resolve_retried event).absorbs (s.failNextReads 0) few).result
    exact Prod.ext (absorbed.symm.trans resolved) (dispatcher.resolve_calm event rfl)
  obtain ⟨ran, _⟩ := run_resolved listens settled
  have absorbed := (dispatcher.dispatch_retried event).absorbs (s.failNextReads 0) few
  exact ⟨absorbed.result.trans (congrArg Prod.fst ran),
    absorbed.contents.trans (congrArg Prod.snd ran)⟩

end Dispatcher

/-- Dispatches absorb as many failures as there are retries, whatever the store holds and whatever
comes of the reads. -/
theorem Router.absorbs_failures (policy : RetryPolicy) (catalog : Catalog) (event : Event) (s : Store)
    (n : Nat) (few : n ≤ policy.maxRetries) :
    ((ofCatalog policy catalog).route event).Absorbs s n ∧
      ∀ (trigger : Trigger) (automations : List Automation),
        (Dispatcher.dispatch ⟨trigger, automations, policy⟩ event).Absorbs s n :=
  ⟨(Router.route_retried policy catalog event).absorbs s few,
    fun trigger automations =>
      (Dispatcher.dispatch_retried ⟨trigger, automations, policy⟩ event).absorbs s few⟩

/-- A label for an issue in a store whose next read fails. The transition is made all the same, and
for an issue that is not known the read that is tried again finds nothing. -/
theorem Router.absorbs_failures_label : 1 ≤ RetryPolicy.default.maxRetries ∧
    let label := (ofCatalog .default .builtin).route (.ofLabel "bug")
    let moved := label.run Store.service (untriaged.failNextReads 1)
    let unknown := label.run Store.service (Store.empty.failNextReads 1)
    moved.2.cardsIn ⟨"column-2"⟩ = [⟨"card-7"⟩, ⟨"card-6"⟩, ⟨"card-5"⟩] ∧
      moved.2.failingReads = 0 ∧ unknown.1 = (label.run Store.service .empty).1 ∧
      unknown.2.failingReads = 0 := by
  have once : 1 ≤ RetryPolicy.default.maxRetries := Nat.le_refl 1
  refine ⟨once, ?_⟩
  intro label moved unknown
  obtain ⟨known, _⟩ := Router.absorbs_failures .default .builtin (.ofLabel "bug") untriaged 1 once
  obtain ⟨missing, _⟩ := Router.absorbs_failures .default .builtin (.ofLabel "bug") .empty 1 once
  have cards : moved.2.cardsIn ⟨"column-2"⟩ = (moved.2.failNextReads 0).cardsIn ⟨"column-2"⟩ := rfl
  rw [cards, known.contents]
  refine ⟨by decide +kernel, known.left.trans ?_, missing.result, missing.left.trans ?_⟩
  · decide +kernel
  · decide +kernel

end BoardRules
