import BoardRules.Proofs.Dispatch.Plan
import BoardRules.Proofs.Store.Columns

/-!
# Agendas

Once an automation has read its part of the boards it is settled which rules there are and what each
of them leads to; only whether they fire is found out one after the other. In a store whose reads do
not fail that is settled as well, since matchers look at nothing but the event and the reviews.
-/
namespace BoardRules

variable {σ : Type}

/-- A rule, and the work that is done if it fires. -/
structure Duty where
  rule : PlacedRule
  work : RuleRun Unit

/-- What an automation reads, and the duties that this comes to. -/
structure Agenda where
  reads : Call
  duties : reads.Answer → List Duty

def Round.duty (round : Round) : Duty := ⟨round.rule, round.steps.forM Step.take⟩

theorem Round.duty_work (round : Round) : round.duty.work = round.steps.forM Step.take := rfl

theorem Step.forM_flatMap {ι : Type} (items : List ι) (steps : ι → List Step) :
    (items.flatMap steps).forM take = items.forM fun item => (steps item).forM take := by
  induction items with
  | nil => rfl
  | cons item rest others =>
    rw [List.flatMap_cons, List.forM_eq_forM, List.forM_append, List.forM_eq_forM, List.forM_cons,
      ← List.forM_eq_forM, ← List.forM_eq_forM, others, List.forM_eq_forM]

theorem Round.forM_duties (rounds : List Round) :
    (rounds.map Round.duty).forM Duty.work = (rounds.flatMap (·.steps)).forM Step.take := by
  rw [Step.forM_flatMap, List.forM_eq_forM, List.forM_map]
  rfl

/-- Whatever is read from the store, all duties have the property. -/
def Agenda.Each (agenda : Agenda) (s : Store) (P : Duty → Prop) : Prop :=
  ∀ answer, Store.service agenda.reads s = (.ok answer, s) →
    ∀ duty ∈ agenda.duties answer, P duty

/-! ## Companion cards -/

/-- The column that gets a companion card because of a rule with these arguments, and the note. -/
def SideEffect.companion? (effect : SideEffect) (memberships : List Membership) :
    List String → Option (Column × String)
  | [] => none
  | name :: repositories =>
    match effect with
    | .closeIssue => none
    | .addCloseIssueRule =>
      (columnForNote? memberships name (companionNote repositories)).map
        (·, companionNote repositories)

theorem SideEffect.column_of_companion? {effect : SideEffect} {memberships : List Membership}
    {arguments : List String} {column : Column} {text : String}
    (chosen : effect.companion? memberships arguments = some (column, text)) :
    ∃ name, columnForNote? memberships name text = some column := by
  unfold companion? at chosen
  split at chosen
  · cases chosen
  · rename_i name repositories
    cases effect with
    | closeIssue => cases chosen
    | addCloseIssueRule =>
      obtain ⟨found, there, same⟩ := Option.map_eq_some_iff.mp chosen
      cases same
      exact ⟨name, there⟩

namespace RuleRun

/-- Adds a card with a note behind the last card of a column. -/
def addCompanion (column : Column) (text : String) : RuleRun Unit := do
  let card ← attempt .rule (Dialogue.call (.createCard column.id (.note text)))
  note (.companionCardAdded column.id card)
  moveBehind card column.id (column.lastCard?.map (·.id))

theorem carryOut_memberships (effect : SideEffect) (memberships : List Membership)
    (rule : PlacedRule) :
    carryOut effect (.memberships memberships) rule =
      match effect.companion? memberships rule.declaration.arguments with
      | none => pure ()
      | some (column, text) => addCompanion column text := by
  unfold carryOut
  cases effect with
  | closeIssue => cases rule.declaration.arguments <;> rfl
  | addCloseIssueRule =>
    cases rule.declaration.arguments with
    | nil => rfl
    | cons name repositories =>
      unfold SideEffect.apply addCompanionCard SideEffect.companion?
      dsimp only
      cases columnForNote? memberships name (companionNote repositories) with
      | none => rfl
      | some column =>
        dsimp only
        rw [attempt_map]
        simp [settleEffect, addCompanion]

end RuleRun

namespace Automation

variable (automation : Automation) (policy : RetryPolicy) (event : Event)

/-! ## Work by agenda -/

def agenda : Target → Agenda
  | .movedCard card => ⟨.cardContext card, fun context => (automation.correction context).map Round.duty⟩
  | .entity url =>
    if automation.createsCard then
      ⟨.boardsForEntity url, fun found => (automation.creation found).map Round.duty⟩
    else
      ⟨.cardMemberships url, fun found =>
        match automation.sideEffect with
        | none => (automation.transition found).map Round.duty
        | some effect =>
          (automation.candidates (found.cards.getD [])).map fun (_, rule) =>
            ⟨rule, RuleRun.carryOut effect (.memberships (found.cards.getD [])) rule⟩⟩

theorem agenda_of_creates (creates : automation.createsCard = true) (url : EntityUrl) :
    automation.agenda (.entity url) =
      ⟨.boardsForEntity url, fun found => (automation.creation found).map Round.duty⟩ :=
  if_pos creates

theorem agenda_of_moves (moves : ¬ automation.createsCard = true)
    (plain : automation.sideEffect = none) (url : EntityUrl) :
    automation.agenda (.entity url) =
      ⟨.cardMemberships url, fun found => (automation.transition found).map Round.duty⟩ := by
  unfold agenda
  rw [plain]
  exact if_neg moves

theorem agenda_of_effect (moves : ¬ automation.createsCard = true) {effect : SideEffect}
    (named : automation.sideEffect = some effect) (url : EntityUrl) :
    automation.agenda (.entity url) = ⟨.cardMemberships url, fun found =>
      (automation.candidates (found.cards.getD [])).map fun (_, rule) =>
        ⟨rule, RuleRun.carryOut effect (.memberships (found.cards.getD [])) rule⟩⟩ := by
  unfold agenda
  rw [named]
  exact if_neg moves

theorem isRead_agenda (target : Target) : (automation.agenda target).reads.isRead = true := by
  cases target with
  | movedCard card => rfl
  | entity url =>
    unfold agenda
    dsimp only
    split <;> rfl

/-- Does the work of the rules that fire. -/
def discharge (duties : List Duty) : RuleRun Unit :=
  duties.forM fun duty => do
    if ← automation.fires policy event duty.rule then duty.work

theorem discharge_cons (duty : Duty) (rest : List Duty) :
    automation.discharge policy event (duty :: rest) =
      (do if ← automation.fires policy event duty.rule then duty.work) >>= fun _ =>
        automation.discharge policy event rest := rfl

theorem discharge_rounds (rounds : List Round) :
    automation.discharge policy event (rounds.map Round.duty) =
      automation.carryOutRounds policy event rounds := by
  unfold discharge carryOutRounds
  simp [List.forM_map, Round.duty]

theorem work_eq_discharge (target : Target) :
    automation.work policy event target =
      RuleRun.read policy (automation.agenda target).reads >>= fun answer =>
        automation.discharge policy event ((automation.agenda target).duties answer) := by
  cases target with
  | movedCard card =>
    refine (automation.correctMovedCard_eq policy event card).trans ?_
    simp only [agenda, discharge_rounds]
  | entity url =>
    unfold work
    dsimp only
    by_cases creates : automation.createsCard = true
    · rw [if_pos creates, automation.createCards_eq policy event url,
        automation.agenda_of_creates creates]
      simp only [discharge_rounds]
    · rw [if_neg creates]
      cases named : automation.sideEffect with
      | none =>
        rw [automation.moveCards_eq policy event named url, automation.agenda_of_moves creates named]
        simp only [discharge_rounds]
      | some effect =>
        rw [automation.agenda_of_effect creates named]
        unfold moveCards discharge
        rw [named]
        simp [List.forM_map]

/-- Once something has been read, the duties are done. -/
theorem perform_work {service : Service σ} {target : Target} {s s' : σ}
    {answer : (automation.agenda target).reads.Answer}
    (answered : (Dialogue.read policy (automation.agenda target).reads).run service s =
      (.ok answer, s')) :
    RuleRun.perform service (automation.work policy event target) [] s =
      RuleRun.perform service
        (automation.discharge policy event ((automation.agenda target).duties answer)) [] s' := by
  rw [automation.work_eq_discharge, RuleRun.perform_bind]
  unfold RuleRun.read
  rw [RuleRun.perform_attempt, answered]
  rfl

/-! ## Rules that fire -/

/-- The rules that fire while the duties are done, as far as these get. -/
def firedAmong (service : Service σ) : List Duty → List Action → σ → List PlacedRule
  | [], _, _ => []
  | duty :: rest, actions, s =>
    match RuleRun.perform service (automation.fires policy event duty.rule) actions s with
    | ((.error _, _), _) => []
    | ((.ok false, actions), s) => firedAmong service rest actions s
    | ((.ok true, actions), s) =>
      duty.rule ::
        match RuleRun.perform service duty.work actions s with
        | ((.error _, _), _) => []
        | ((.ok _, actions), s) => firedAmong service rest actions s

/-- The rules that fire when the automation runs. -/
def fired (service : Service σ) (target : Target) (s : σ) : List PlacedRule :=
  match (Dialogue.read policy (automation.agenda target).reads).run service s with
  | (.error _, _) => []
  | (.ok answer, s) =>
    automation.firedAmong policy event service ((automation.agenda target).duties answer) [] s

/-- If nothing can be read, nothing is done. -/
theorem run_outcome_unread {service : Service σ} {target : Target} {s s' : σ} {error : TrackingError}
    (failed : (Dialogue.read policy (automation.agenda target).reads).run service s =
      (.error error, s')) :
    (automation.outcome policy event target).run service s =
        (⟨automation.name, [], some (.tracking error)⟩, s') ∧
      automation.fired policy event service target s = [] := by
  have performed : RuleRun.perform service (automation.work policy event target) [] s =
      ((.error (.tracking error), []), s') := by
    rw [automation.work_eq_discharge, RuleRun.perform_bind]
    unfold RuleRun.read
    rw [RuleRun.perform_attempt, failed]
    rfl
  refine ⟨automation.run_outcome performed, ?_⟩
  unfold fired
  rw [failed]

/-- What is kept as rules fire and as their work is done holds in the end, whether or not all duties
have been done. -/
theorem discharge_kept {service : Service σ} {I : List PlacedRule → σ → Prop} (duties : List Duty)
    (decided : ∀ duty ∈ duties, ∀ done, RuleRun.Triple service (fun _ => I done)
      (automation.fires policy event duty.rule) (fun _ _ => I done) fun _ _ => I done)
    (begun : ∀ duty ∈ duties, ∀ done s, I done s → I (done ++ [duty.rule]) s)
    (kept : ∀ duty ∈ duties, ∀ done, duty.rule ∈ done →
      RuleRun.Triple service (fun _ => I done) duty.work (fun _ _ => I done) fun _ _ => I done)
    (done : List PlacedRule) (actions : List Action) (s : σ) (before : I done s) :
    I (done ++ automation.firedAmong policy event service duties actions s)
      (RuleRun.perform service (automation.discharge policy event duties) actions s).2 := by
  induction duties generalizing done actions s with
  | nil =>
    rw [firedAmong, List.append_nil]
    exact before
  | cons duty rest others =>
    have decides := decided duty List.mem_cons_self done actions s before
    have later := others (fun other member => decided other (List.mem_cons_of_mem _ member))
      (fun other member => begun other (List.mem_cons_of_mem _ member))
      (fun other member => kept other (List.mem_cons_of_mem _ member))
    rw [discharge_cons, RuleRun.perform_bind, RuleRun.perform_bind, firedAmong]
    rcases decision : RuleRun.perform service (automation.fires policy event duty.rule) actions s with
      ⟨⟨_ | fires, actions'⟩, s'⟩ <;> rw [decision] at decides
    · rw [List.append_nil]
      exact decides
    · cases fires with
      | false => exact later done actions' s' decides
      | true =>
        have works := kept duty List.mem_cons_self (done ++ [duty.rule]) (by simp) actions' s'
          (begun duty List.mem_cons_self done s' decides)
        dsimp only
        rw [if_pos rfl]
        rcases result : RuleRun.perform service duty.work actions' s' with
          ⟨⟨_ | _, actions''⟩, s''⟩ <;> rw [result] at works
        · exact works
        · have remaining := later (done ++ [duty.rule]) actions'' s'' works
          rw [List.append_assoc] at remaining
          exact remaining

end Automation

/-! ## Stores whose reads do not fail -/

namespace Store

/-- Whether a rule fires, by the reviews that the store holds. -/
def fires (s : Store) (matcher : Matcher) (event : Event) (arguments : List String) : Bool :=
  match matcher with
  | .payload test => test.holds event arguments
  | .reviewAccepted =>
    event.locator.any fun locator => (ReviewSummary.ofReviews (s.reviewsOf locator)).isAccepted

theorem read_calm {α : Type} {s : Store} (reads : s.failingReads = 0)
    (look : Store → Except TrackingError α) : s.read look = (look s, s) := by
  unfold read
  rw [reads]

/-- A read that is made while no failures are due leaves the store as it is. -/
theorem service_calm {call : Call} (isRead : call.isRead = true) {s : Store}
    (calm : s.failingReads = 0) : (service call s).2 = s := by
  cases call with
  | boardsForEntity | cardContext | cardMemberships | pullRequestBody | reviews =>
    exact congrArg Prod.snd (read_calm calm _)
  | createCard | moveCard | closeIssue => cases isRead

/-- However often a read is retried, the first attempt decides if no failures are due. -/
theorem run_attempt_calm {call : Call} (isRead : call.isRead = true) (retries : Nat) {s : Store}
    (calm : s.failingReads = 0) :
    (RetryPolicy.attempt (Dialogue.call call) retries).run service s = service call s := by
  have once : (Dialogue.call call).run service s = service call s := rfl
  induction retries with
  | zero => exact once
  | succ retries others =>
    have same := service_calm isRead calm
    unfold RetryPolicy.attempt
    rw [Dialogue.run_bind, once, same]
    cases answer : (service call s).1 with
    | ok value => exact Prod.ext answer.symm same.symm
    | error error => exact others

theorem run_read_calm (policy : RetryPolicy) {call : Call} (isRead : call.isRead = true) {s : Store}
    (calm : s.failingReads = 0) : (Dialogue.read policy call).run service s = service call s :=
  run_attempt_calm isRead policy.maxRetries calm

theorem run_fires {s : Store} (reads : s.failingReads = 0) (matcher : Matcher)
    (policy : RetryPolicy) (event : Event) (arguments : List String) :
    (matcher.fires policy event arguments).run service s =
      (.ok (s.fires matcher event arguments), s) := by
  cases matcher with
  | payload test => rfl
  | reviewAccepted =>
    unfold Matcher.fires reviewsAccept fires
    cases event.locator with
    | none => rfl
    | some locator =>
      have answer : service (.reviews locator) s = (.ok (s.reviewsOf locator), s) :=
        read_calm reads fun s => .ok (s.reviewsOf locator)
      dsimp only
      rw [Dialogue.run_bind, Dialogue.run_read_ok answer]
      rfl

/-- What is left of a store for matchers to see. -/
structure Calm (s₀ s : Store) : Prop where
  reads : s.failingReads = 0
  reviews : s.reviews = s₀.reviews

namespace Calm

variable {s₀ s : Store}

theorem fires_eq (calm : Calm s₀ s) : s.fires = s₀.fires := by
  unfold fires reviewsOf
  rw [calm.reviews]

theorem service (calm : Calm s₀ s) (call : Call) : Calm s₀ (Store.service call s).2 := by
  have read {α : Type} (look : Store → Except TrackingError α) : Calm s₀ (s.read look).2 := by
    rw [read_calm calm.reads]
    exact calm
  cases call with
  | boardsForEntity | cardContext | cardMemberships | pullRequestBody | reviews => exact read _
  | createCard column content =>
    change Calm s₀ (s.createCard column content).2
    rcases s.createCard_cases column content with ⟨_, failed⟩ | ⟨_, _, made⟩
    · rw [failed]
      exact ⟨calm.reads, calm.reviews⟩
    · rw [made]
      exact ⟨calm.reads, calm.reviews⟩
  | moveCard card column after =>
    change Calm s₀ (s.moveCard card column after).2
    rcases s.moveCard_cases card column after with ⟨_, failed⟩ | ⟨_, _, _, _, _, _, moved⟩
    · rw [failed]
      exact calm
    · rw [moved]
      exact ⟨calm.reads, calm.reviews⟩
  | closeIssue id =>
    change Calm s₀ (s.closeIssue id).2
    rcases s.closeIssue_cases id with ⟨_, failed⟩ | closed
    · rw [failed]
      exact calm
    · rw [closed]
      exact ⟨calm.reads, calm.reviews⟩

theorem run (calm : Calm s₀ s) {α : Type} (d : Dialogue α) : Calm s₀ (d.run Store.service s).2 := by
  induction d generalizing s with
  | done value => exact calm
  | ask call next others => exact others _ (calm.service call)

end Calm

end Store

namespace Automation

variable (automation : Automation) (policy : RetryPolicy) (event : Event)

/-- The duties whose rules fire by the reviews that the store holds. -/
def due (s : Store) (duties : List Duty) : List Duty :=
  duties.filter fun duty => s.fires automation.matcher event duty.rule.declaration.arguments

theorem perform_fires {s₀ s : Store} (calm : Store.Calm s₀ s) (rule : PlacedRule)
    (actions : List Action) :
    RuleRun.perform Store.service (automation.fires policy event rule) actions s =
      ((.ok (s₀.fires automation.matcher event rule.declaration.arguments), actions), s) := by
  unfold fires
  rw [RuleRun.perform_attempt, Store.run_fires calm.reads, calm.fires_eq]
  rfl

/-- Without failing reads, just the work of the duties that are due is done. -/
theorem perform_discharge {s₀ : Store} (duties : List Duty) (actions : List Action) (s : Store)
    (calm : Store.Calm s₀ s) :
    RuleRun.perform Store.service (automation.discharge policy event duties) actions s =
      RuleRun.perform Store.service ((automation.due event s₀ duties).forM Duty.work) actions s := by
  unfold due discharge
  induction duties generalizing actions s with
  | nil => rfl
  | cons duty rest others =>
    rw [List.forM_eq_forM, List.forM_cons, ← List.forM_eq_forM, RuleRun.perform_bind,
      RuleRun.perform_bind, automation.perform_fires policy event calm]
    cases fired : s₀.fires automation.matcher event duty.rule.declaration.arguments with
    | false =>
      rw [List.filter_cons_of_neg (by simp [fired])]
      exact others actions s calm
    | true =>
      rw [List.filter_cons_of_pos (by simpa using fired), List.forM_eq_forM, List.forM_cons,
        ← List.forM_eq_forM, RuleRun.perform_bind]
      simp only [if_true]
      -- Whatever this work does, the later rules are decided by the same reviews.
      have kept : Store.Calm s₀ (RuleRun.perform Store.service duty.work actions s).2 :=
        calm.run (duty.work.run.run actions)
      rcases performed : RuleRun.perform Store.service duty.work actions s with
        ⟨⟨_ | _, actions'⟩, s'⟩
      · rfl
      · rw [performed] at kept
        exact others actions' s' kept

theorem due_rounds (s : Store) (rounds : List Round) :
    automation.due event s (rounds.map Round.duty) = (rounds.filter fun round =>
      s.fires automation.matcher event round.rule.declaration.arguments).map Round.duty :=
  List.filter_map

/-- Without failing reads, an automation does the work of what is due for the answer that it gets. -/
theorem perform_work_calm {s : Store} (reads : s.failingReads = 0) {target : Target} {agenda : Agenda}
    (same : automation.agenda target = agenda) :
    RuleRun.perform Store.service (automation.work policy event target) [] s =
      match (Store.service agenda.reads s).1 with
      | .error error => ((.error (.tracking error), []), s)
      | .ok answer => RuleRun.perform Store.service
          ((automation.due event s (agenda.duties answer)).forM Duty.work) [] s := by
  subst same
  have isRead := automation.isRead_agenda target
  rw [automation.work_eq_discharge, RuleRun.perform_bind]
  unfold RuleRun.read
  rw [RuleRun.perform_attempt, Store.run_read_calm policy isRead reads,
    Store.service_calm isRead reads]
  cases (Store.service (automation.agenda target).reads s).1 with
  | error error => rfl
  | ok answer => exact automation.perform_discharge policy event _ [] s ⟨reads, rfl⟩

/-- Without failing reads, the rules of all duties that are due fire, unless work fails. -/
theorem firedAmong_eq {s₀ : Store} (duties : List Duty) (actions actions' : List Action)
    (s s' : Store) (calm : Store.Calm s₀ s)
    (success : RuleRun.perform Store.service (automation.discharge policy event duties) actions s =
      ((.ok (), actions'), s')) :
    automation.firedAmong policy event Store.service duties actions s =
      (automation.due event s₀ duties).map Duty.rule := by
  unfold due
  induction duties generalizing actions s with
  | nil => rfl
  | cons duty rest others =>
    rw [discharge_cons, RuleRun.perform_bind, RuleRun.perform_bind,
      automation.perform_fires policy event calm] at success
    rw [firedAmong, automation.perform_fires policy event calm]
    cases fired : s₀.fires automation.matcher event duty.rule.declaration.arguments with
    | false =>
      rw [fired] at success
      rw [List.filter_cons_of_neg (by simp [fired])]
      exact others actions s calm success
    | true =>
      rw [fired] at success
      rw [List.filter_cons_of_pos (by simpa using fired), List.map_cons]
      have kept : Store.Calm s₀ (RuleRun.perform Store.service duty.work actions s).2 :=
        calm.run (duty.work.run.run actions)
      simp only [if_true] at success
      rcases performed : RuleRun.perform Store.service duty.work actions s with
        ⟨⟨_ | _, noted⟩, reached⟩
      · rw [performed] at success
        cases success
      · rw [performed] at kept success
        dsimp only
        rw [performed]
        exact congrArg (duty.rule :: ·) (others noted reached kept success)

end Automation

end BoardRules
