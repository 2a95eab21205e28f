import BoardRules.Proofs.Dispatch.CallDiscipline

/-!
# Plans

Without a side effect that depends on its own answers, the work of an automation is a plan: one read,
and then the steps of those rules that fire, in the order in which the rules are found. Steps are
carried out until one of them fails.
-/
namespace BoardRules

instance : LawfulMonad Dialogue := by
  refine LawfulMonad.mk' Dialogue ?map ?pure ?bind
  case map =>
    intro α d
    induction d with
    | done value => rfl
    | ask call next others => exact congrArg (Dialogue.ask call) (funext others)
  case pure => exact fun _ _ => rfl
  case bind =>
    intro α β γ d f g
    induction d with
    | done value => rfl
    | ask call next others => exact congrArg (Dialogue.ask call) (funext others)

/-- A change that an automation means to make. -/
inductive Step where
  | close (issue : EntityId)
  | create (column : ColumnId) (entity : EntityId)
  /-- The card of an entity goes to the top of a column. -/
  | raise (card : CardId) (column : ColumnId)
  /-- The card of a rule goes behind its anchor. -/
  | lower (card : CardId) (column : ColumnId) (anchor : CardId)
  deriving DecidableEq, Repr

namespace Step

def call : Step → Call
  | close issue => .closeIssue issue
  | create column entity => .createCard column (.entity entity)
  | raise card column => .moveCard card column none
  | lower card column anchor => .moveCard card column (some anchor)

/-- How the step is noted once its call has been answered. -/
def action : (step : Step) → step.call.Answer → Action
  | close issue, _ => .issueClosed issue
  | create column _, card => .cardCreated column card
  | raise card column, _ => .cardMoved card column
  | lower card column anchor, _ => .ruleCardRepositioned card column anchor

/-- The action tells of the step, up to the id of a new card. -/
def Noted (step : Step) (action : Action) : Prop := ∃ answer, step.action answer = action

/-- Makes the call of a step and notes it. -/
def take (step : Step) : RuleRun Unit := do
  let answer ← RuleRun.attempt step.call.failure (Dialogue.call step.call)
  RuleRun.note (step.action answer)

end Step

/-- The card of the rule goes back to the bottom, if it has an anchor. -/
def PlacedRule.lowering (rule : PlacedRule) : List Step :=
  rule.anchor.toList.map (.lower rule.card rule.column.id)

/-- A rule, and what is to be done if it fires. -/
structure Round where
  rule : PlacedRule
  steps : List Step
  deriving DecidableEq, Repr

/-- What an automation reads, and the rounds that this comes to. -/
structure Intent where
  reads : Call
  rounds : reads.Answer → List Round

namespace Automation

variable (automation : Automation)

/-- The issue of a moved card is closed if it is open. -/
def closeLinked (linked : Option LinkedEntity) : List Step :=
  match automation.sideEffect, linked with
  | some .closeIssue, some issue => if issue.closed then [] else [.close issue.id]
  | _, _ => []

/-- The rules of the moved card's column close its issue. -/
def correction (context : CardContext) : List Round :=
  (PlacedRule.named automation.name (PlacedRule.ofColumn context.column)).map fun rule =>
    ⟨rule, automation.closeLinked context.content ++ rule.lowering⟩

/-- The rules of the owner's boards and then of the repository's get a card of the entity. -/
def creation (found : EntityBoards) : List Round :=
  (PlacedRule.named automation.name (PlacedRule.ofBoards found.boards)).map fun rule =>
    ⟨rule, .create rule.column.id found.entity :: rule.lowering⟩

/-- Every card of the entity goes to the rules of its own board. -/
def transition (found : EntityMemberships) : List Round :=
  (found.cards.getD []).flatMap fun membership =>
    (PlacedRule.named automation.name (PlacedRule.ofBoards [membership.board])).map fun rule =>
      ⟨rule, .raise membership.card rule.column.id :: rule.lowering⟩

def intent : Target → Intent
  | .movedCard card => ⟨.cardContext card, automation.correction⟩
  | .entity url =>
    if automation.createsCard then ⟨.boardsForEntity url, automation.creation⟩
    else ⟨.cardMemberships url, automation.transition⟩

/-- Side effects have no place in the plan of a transition. -/
def Planned : Target → Prop
  | .movedCard _ => True
  | .entity _ => automation.createsCard = true ∨ automation.sideEffect = none

end Automation

/-- The steps of the rounds whose rules fire. -/
def Intent.plan (intent : Intent) (fires : List String → Bool) (answer : intent.reads.Answer) :
    List Step :=
  ((intent.rounds answer).filter fun round => fires round.rule.declaration.arguments).flatMap (·.steps)

/-! ## Work by plan -/

namespace RuleRun

variable {α β : Type}

theorem attempt_ok (wrap : TrackingError → DispatchError) (value : α) :
    attempt wrap (pure (.ok value)) = pure value := rfl

theorem run_attempt (wrap : TrackingError → DispatchError) (d : Dialogue (Except TrackingError α))
    (actions : List Action) :
    (attempt wrap d).run.run actions =
      d >>= fun result => pure (result.mapError wrap, actions) := by
  -- An attempt lifts the dialogue past the actions and then looks at the answer.
  unfold attempt
  rw [run_bind, run_lift, bind_assoc, bind_assoc]
  congr 1
  funext result
  cases result <;> rfl

/-- What is made of the answer can be left until the attempt has succeeded. -/
theorem attempt_map (wrap : TrackingError → DispatchError)
    (d : Dialogue (Except TrackingError α)) (f : α → β) :
    attempt wrap (d >>= fun answer => pure (answer.map f)) =
      attempt wrap d >>= fun value => pure (f value) := by
  apply ExceptT.ext
  apply StateT.ext
  intro actions
  rw [run_bind, run_attempt, run_attempt, bind_assoc, bind_assoc]
  congr 1
  funext result
  cases result <;> rfl

theorem moveBehind_eq (card : CardId) (column : ColumnId) (anchor : Option CardId) :
    moveBehind card column anchor = (anchor.toList.map (.lower card column)).forM Step.take := by
  cases anchor with
  | none => rfl
  | some anchor =>
    simp [moveBehind, change, Step.take, Step.call, Step.action, Call.failure]

theorem carryOut_linked {automation : Automation} {effect : SideEffect}
    (named : automation.sideEffect = some effect) (linked : Option LinkedEntity) (rule : PlacedRule) :
    carryOut effect (.linked linked) rule = (automation.closeLinked linked).forM Step.take := by
  unfold Automation.closeLinked
  rw [named]
  cases effect with
  | addCloseIssueRule => rfl
  | closeIssue =>
    cases linked with
    | none => rfl
    | some issue =>
      unfold carryOut SideEffect.apply closeLinkedIssue
      dsimp only
      split
      · rfl
      · -- The outcome of the effect is only made of the answer to be noted right away.
        rw [attempt_map]
        simp [settleEffect, Step.take, Step.call, Step.action, Call.failure]

end RuleRun

namespace Automation

variable (automation : Automation) (policy : RetryPolicy) (event : Event)

/-- Carries out the rounds whose rules fire. -/
def carryOutRounds (rounds : List Round) : RuleRun Unit :=
  rounds.forM fun round => do
    if ← automation.fires policy event round.rule then round.steps.forM Step.take

theorem correctMovedCard_eq (card : CardId) :
    automation.correctMovedCard policy event card =
      RuleRun.read policy (.cardContext card) >>= fun context =>
        automation.carryOutRounds policy event (automation.correction context) := by
  unfold correctMovedCard carryOutRounds correction
  congr 1
  funext context
  simp only [List.forM_eq_forM, List.forM_map]
  congr 1
  funext rule
  congr 1
  funext fired
  cases fired with
  | false => rfl
  | true =>
    simp only [if_true, List.forM_append, RuleRun.reposition, RuleRun.moveBehind_eq,
      PlacedRule.lowering, List.forM_eq_forM]
    cases named : automation.sideEffect with
    | none => simp [closeLinked, named]
    | some effect =>
      simp only [RuleRun.carryOut_linked named, List.forM_eq_forM]

theorem createCards_eq (url : EntityUrl) :
    automation.createCards policy event url =
      RuleRun.read policy (.boardsForEntity url) >>= fun found =>
        automation.carryOutRounds policy event (automation.creation found) := by
  unfold createCards carryOutRounds creation
  congr 1
  funext found
  simp [Step.take, Step.call, Step.action, Call.failure, RuleRun.reposition,
    RuleRun.moveBehind_eq, RuleRun.change, PlacedRule.lowering]

theorem transition_eq (found : EntityMemberships) :
    automation.transition found =
      (automation.candidates (found.cards.getD [])).map fun (membership, rule) =>
        ⟨rule, .raise membership.card rule.column.id :: rule.lowering⟩ := by
  simp [transition, candidates, List.map_flatMap, Function.comp_def]

theorem moveCards_eq (plain : automation.sideEffect = none) (url : EntityUrl) :
    automation.moveCards policy event url =
      RuleRun.read policy (.cardMemberships url) >>= fun found =>
        automation.carryOutRounds policy event (automation.transition found) := by
  unfold moveCards carryOutRounds
  congr 1
  funext found
  rw [plain, transition_eq]
  simp [Step.take, Step.call, Step.action, Call.failure, RuleRun.reposition,
    RuleRun.moveBehind_eq, RuleRun.change, PlacedRule.lowering]

theorem intent_of_creates (creates : automation.createsCard = true) (url : EntityUrl) :
    automation.intent (.entity url) = ⟨.boardsForEntity url, automation.creation⟩ :=
  if_pos creates

theorem intent_of_moves (moves : ¬ automation.createsCard = true) (url : EntityUrl) :
    automation.intent (.entity url) = ⟨.cardMemberships url, automation.transition⟩ :=
  if_neg moves

theorem work_eq {target : Target} (planned : automation.Planned target) :
    automation.work policy event target =
      RuleRun.read policy (automation.intent target).reads >>= fun answer =>
        automation.carryOutRounds policy event ((automation.intent target).rounds answer) := by
  cases target with
  | movedCard card => exact automation.correctMovedCard_eq policy event card
  | entity url =>
    unfold work
    dsimp only
    by_cases creates : automation.createsCard = true
    · rw [if_pos creates, automation.intent_of_creates creates]
      exact automation.createCards_eq policy event url
    · have plain : automation.sideEffect = none := planned.resolve_left creates
      rw [if_neg creates, automation.intent_of_moves creates]
      exact automation.moveCards_eq policy event plain url

/-- A matcher that reads the event alone does not interrupt the plan. -/
theorem carryOutRounds_payload {test : PayloadTest} (payload : automation.matcher = .payload test)
    (rounds : List Round) :
    automation.carryOutRounds policy event rounds =
      ((rounds.filter fun round => test.holds event round.rule.declaration.arguments).flatMap
        (·.steps)).forM Step.take := by
  have decided (rule : PlacedRule) : automation.fires policy event rule =
      pure (test.holds event rule.declaration.arguments) := by
    unfold fires Matcher.fires
    rw [payload]
    exact RuleRun.attempt_ok _ _
  unfold carryOutRounds
  induction rounds with
  | nil => rfl
  | cons round rest others =>
    rw [List.forM_eq_forM, List.forM_cons, ← List.forM_eq_forM, others, decided, pure_bind]
    cases fired : test.holds event round.rule.declaration.arguments with
    | false => simp [fired]
    | true => simp [fired]

end Automation

/-! ## Prefixes of plans -/

namespace Step

variable {σ : Type}

theorem perform_take (service : Service σ) (step : Step) (actions : List Action) (s : σ) :
    RuleRun.perform service step.take actions s =
      match service step.call s with
      | (.ok answer, s') => ((.ok (), actions ++ [step.action answer]), s')
      | (.error error, s') => ((.error (step.call.failure error), actions), s') := by
  have once : (Dialogue.call step.call).run service s = service step.call s := rfl
  unfold take
  rw [RuleRun.perform_bind, RuleRun.perform_attempt, once]
  rcases service step.call s with ⟨_ | answer, s'⟩ <;> rfl

/-- The first step that fails is the last one to be tried. -/
theorem perform_cons (service : Service σ) (step : Step) (rest : List Step) (actions : List Action)
    (s : σ) :
    RuleRun.perform service ((step :: rest).forM take) actions s =
      match service step.call s with
      | (.ok answer, s') =>
        RuleRun.perform service (rest.forM take) (actions ++ [step.action answer]) s'
      | (.error error, s') => ((.error (step.call.failure error), actions), s') := by
  rw [List.forM_eq_forM, List.forM_cons, ← List.forM_eq_forM, RuleRun.perform_bind, perform_take]
  rcases service step.call s with ⟨_ | _, s'⟩ <;> rfl

section Succeeding

variable {service : Service σ} {P Q : List Action → σ → Prop}
  {E : DispatchError → List Action → σ → Prop} {step : Step}

theorem triple_take (succeeds : ∀ actions s, P actions s → ∃ answer s',
      service step.call s = (.ok answer, s') ∧ Q (actions ++ [step.action answer]) s') :
    RuleRun.Triple service P step.take (fun _ => Q) E := by
  intro actions s before
  obtain ⟨answer, s', success, after⟩ := succeeds actions s before
  rw [perform_take, success]
  exact after

/-- What the call of a step keeps, whether or not it succeeds. -/
theorem triple_take_kept {I : σ → Prop} (kept : ∀ s, I s → I (service step.call s).2) :
    RuleRun.Triple service (fun _ => I) step.take (fun _ _ => I) fun _ _ => I := by
  intro actions s before
  have after := kept s before
  rw [perform_take]
  rcases result : service step.call s with ⟨_ | _, s'⟩ <;> rw [result] at after <;> exact after

/-- A step that succeeds leads to the steps behind it. -/
theorem triple_cons {R : Unit → List Action → σ → Prop} {rest : List Step}
    (first : RuleRun.Triple service P step.take (fun _ => Q) E)
    (following : RuleRun.Triple service Q (rest.forM take) R E) :
    RuleRun.Triple service P ((step :: rest).forM take) R E := by
  rw [List.forM_eq_forM, List.forM_cons, ← List.forM_eq_forM]
  exact RuleRun.triple_bind first fun _ => following

end Succeeding

/-- Steps are carried out up to the first one that fails, and noted as far as they are. -/
theorem perform_forM (service : Service σ) (steps : List Step) (actions : List Action) (s : σ) :
    let reached := RuleRun.perform service (steps.forM take) actions s
    ∃ carried left noted, steps = carried ++ left ∧ reached.1.2 = actions ++ noted ∧
      List.Forall₂ Noted carried noted ∧ (left = [] ↔ reached.1.1.isOk = true) := by
  induction steps generalizing actions s with
  | nil => exact ⟨[], [], [], rfl, (List.append_nil actions).symm, .nil, fun _ => rfl, fun _ => rfl⟩
  | cons step rest others =>
    rw [perform_cons]
    rcases service step.call s with ⟨error | answer, s'⟩
    · exact ⟨[], step :: rest, [], rfl, (List.append_nil actions).symm, .nil, by simp,
        by simp [Except.isOk, Except.toBool]⟩
    · obtain ⟨carried, left, noted, split, longer, each, ended⟩ :=
        others (actions ++ [step.action answer]) s'
      refine ⟨step :: carried, left, step.action answer :: noted, by rw [split, List.cons_append],
        ?_, .cons ⟨answer, rfl⟩ each, ended⟩
      simpa using longer

end Step

/-- Unless it asks for reviews, an automation reads once and carries out its plan for what it has read
up to the first step that fails. So its actions tell of a prefix of the plan, and of all of it
exactly when there is no error. -/
theorem Automation.carries_out_plan {σ : Type} (service : Service σ) (automation : Automation)
    (policy : RetryPolicy) (event : Event) (target : Target) (s : σ) (test : PayloadTest)
    (payload : automation.matcher = .payload test) (planned : automation.Planned target) :
    let intent := automation.intent target
    let outcome := ((automation.outcome policy event target).run service s).1
    match ((Dialogue.read policy intent.reads).run service s).1 with
    | .error error => outcome.actions = [] ∧ outcome.error = some (.tracking error)
    | .ok answer =>
      ∃ carried left, intent.plan (test.holds event) answer = carried ++ left ∧
        List.Forall₂ Step.Noted carried outcome.actions ∧ (left = [] ↔ outcome.error = none) := by
  intro intent outcome
  have work := automation.work_eq policy event planned
  subst outcome
  rcases performed : RuleRun.perform service (automation.work policy event target) [] s with
    ⟨⟨result, actions⟩, s'⟩
  rw [automation.run_outcome performed]
  rw [work, RuleRun.perform_bind] at performed
  unfold RuleRun.read at performed
  rw [RuleRun.perform_attempt] at performed
  subst intent
  cases read : ((Dialogue.read policy (automation.intent target).reads).run service s).1 with
  | error error =>
    rw [read] at performed
    cases performed
    exact ⟨rfl, rfl⟩
  | ok answer =>
    rw [read] at performed
    change RuleRun.perform service (automation.carryOutRounds policy event _) [] _ = _ at performed
    rw [automation.carryOutRounds_payload policy event payload] at performed
    obtain ⟨carried, left, noted, split, longer, each, ended⟩ := Step.perform_forM service
      ((automation.intent target).plan (test.holds event) answer) []
      ((Dialogue.read policy (automation.intent target).reads).run service s).2
    unfold Intent.plan at longer ended
    rw [performed] at longer ended
    obtain rfl : actions = noted := longer
    refine ⟨carried, left, split, each, ended.trans ?_⟩
    cases result with
    | ok _ => simp [Except.isOk, Except.toBool]
    | error _ => simp [Except.isOk, Except.toBool]

/-- An issue has been labelled. -/
def Event.ofLabel (name : String) : Event :=
  ⟨.issueLabeled, ⟨some "labeled", some ⟨"https://github.com/octo/demo/issues/7", 7, []⟩, none, none,
    some ⟨name, none⟩, none, none⟩⟩

/-- The card of an issue on a board with a rule above a note. -/
def awaitingTriage : EntityMemberships :=
  let rule : Card := ⟨⟨"card-4"⟩, some "- `added_label` **bug**", none⟩
  let note : Card := ⟨⟨"card-5"⟩, some "nothing", none⟩
  ⟨some ⟨"entity-1"⟩, some [⟨⟨"card-2"⟩, none, none,
    ⟨⟨"board-3"⟩, "Plan", [⟨⟨"column-6"⟩, "Triage", none, [rule], [rule, note]⟩]⟩⟩]⟩

/-- A service that moves one card and no other. -/
def reluctant : Script where
  cardMemberships := [.error (.transport "timeout"), .ok awaitingTriage]
  moveCard := [.ok (), .error (.transport "refused")]

/-- The second of two steps fails, so only the first is among the actions. -/
theorem Automation.carries_out_plan_reluctant :
    let automation := Automation.moving "added_label" .issueLabeled .labelIs
    let target := Target.entity ⟨.https, "github.com", "octo", "demo", .issue, 7⟩
    let outcome := ((automation.outcome .default (.ofLabel "bug") target).run
      Script.service reluctant).1
    outcome.actions = [.cardMoved ⟨"card-2"⟩ ⟨"column-6"⟩] ∧
      outcome.error = some (.tracking (.transport "refused")) ∧
      ∃ carried left,
        [.raise ⟨"card-2"⟩ ⟨"column-6"⟩, .lower ⟨"card-4"⟩ ⟨"column-6"⟩ ⟨"card-5"⟩] = carried ++ left ∧
        List.Forall₂ Step.Noted carried outcome.actions ∧ (left = [] ↔ outcome.error = none) := by
  intro automation target outcome
  have carried := automation.carries_out_plan Script.service .default (.ofLabel "bug") target
    reluctant .labelIs rfl (.inr rfl)
  have answer : ((Dialogue.read .default (automation.intent target).reads).run
      Script.service reluctant).1 = .ok awaitingTriage := rfl
  have plan : (automation.intent target).plan (PayloadTest.labelIs.holds (.ofLabel "bug"))
      awaitingTriage = [.raise ⟨"card-2"⟩ ⟨"column-6"⟩,
        .lower ⟨"card-4"⟩ ⟨"column-6"⟩ ⟨"card-5"⟩] := by decide +kernel
  dsimp only at carried
  rw [answer] at carried
  rw [← plan]
  exact ⟨by decide +kernel, by decide +kernel, carried⟩

end BoardRules
