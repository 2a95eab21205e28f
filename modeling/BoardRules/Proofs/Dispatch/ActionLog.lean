import BoardRules.Proofs.Dispatch.Triple
import BoardRules.Proofs.Store.Columns
import BoardRules.Tracking.Script

/-!
# Reports are logs

The actions of a report are the changes that the service has carried out, in the order of the calls.
The argument needs no more of a service than a log that grows with its answers: the record of a
recorded service is one, the journal of the store is another.
-/
namespace BoardRules

open Dialogue (Either)

/-- The change that an answered call has made. Reads and failed calls make none. -/
def Exchange.mutation? : Exchange → Option Mutation
  | ⟨.createCard column content, .ok card⟩ => some (.cardCreated column card content)
  | ⟨.moveCard card column after, .ok _⟩ => some (.cardMoved card column after)
  | ⟨.closeIssue entity, .ok _⟩ => some (.issueClosed entity)
  | _ => none

/-- How a report speaks of a change. -/
def Mutation.action : Mutation → Action
  | .cardCreated column card (.entity _) => .cardCreated column card
  | .cardCreated column card (.note _) => .companionCardAdded column card
  | .cardMoved card column none => .cardMoved card column
  | .cardMoved card column (some anchor) => .ruleCardRepositioned card column anchor
  | .issueClosed entity => .issueClosed entity

def EffectOutcome.action : EffectOutcome → Action
  | issueClosed entity => .issueClosed entity
  | companionCardAdded placement => .companionCardAdded placement.column placement.card

theorem Exchange.mutation?_of_read (exchange : Exchange) (isRead : exchange.call.isRead) :
    exchange.mutation? = none := by
  rcases exchange with ⟨call, answer⟩
  cases call <;> first | rfl | cases isRead

theorem Exchange.mutation?_of_error (call : Call) (error : TrackingError) :
    Exchange.mutation? ⟨call, .error error⟩ = none := by
  cases call <;> rfl

/-- Every call adds to the log the change that its answer tells of, and nothing else. -/
def Service.Logs {σ : Type} (service : Service σ) (log : σ → List Mutation) : Prop :=
  ∀ call s,
    log (service call s).2 = log s ++ (Exchange.mutation? ⟨call, (service call s).1⟩).toList

section

variable {σ : Type} {service : Service σ} {log : σ → List Mutation}

/-- Since it was `base`, the log has grown by changes that the given actions speak of. -/
def Logged (log : σ → List Mutation) (base : List Mutation) (actions : List Action) (s : σ) :
    Prop :=
  ∃ grown, log s = base ++ grown ∧ grown.map Mutation.action = actions

theorem Dialogue.triple_read_logged (logs : service.Logs log) (base : List Mutation)
    (actions : List Action) (call : Call) (isRead : call.isRead) :
    Dialogue.Triple service (Logged log base actions) (Dialogue.call call)
      fun _ => Logged log base actions := by
  intro s logged
  obtain ⟨grown, split, spoken⟩ := logged
  have step := logs call s
  rw [Exchange.mutation?_of_read _ isRead, Option.toList_none, List.append_nil] at step
  exact ⟨grown, step.trans split, spoken⟩

theorem Dialogue.triple_call_logged (logs : service.Logs log) (base : List Mutation)
    (actions : List Action) (call : Call) :
    Dialogue.Triple service (Logged log base actions) (Dialogue.call call)
      (Either
        (fun answer => Logged log base
          (actions ++ ((Exchange.mutation? ⟨call, .ok answer⟩).map Mutation.action).toList))
        fun _ => Logged log base actions) := by
  intro s logged
  obtain ⟨grown, split, spoken⟩ := logged
  have step := logs call s
  rw [split, List.append_assoc] at step
  change Either _ _ (service call s).1 (service call s).2
  cases result : (service call s).1 with
  | ok answer =>
    rw [result] at step
    refine ⟨_, step, ?_⟩
    rw [List.map_append, spoken, Option.toList_map]
  | error error =>
    rw [result, Exchange.mutation?_of_error, Option.toList_none, List.append_nil] at step
    exact ⟨grown, step, spoken⟩

/-! ## Runs -/

/-- A change is in the log at once, and among the actions only when it is noted. -/
theorem RuleRun.triple_change_logged (logs : service.Logs log) (base : List Mutation) (call : Call) :
    RuleRun.Triple service (Logged log base) (RuleRun.change call)
      (fun answer actions => Logged log base
        (actions ++ ((Exchange.mutation? ⟨call, .ok answer⟩).map Mutation.action).toList))
      fun _ => Logged log base :=
  RuleRun.triple_change fun actions => Dialogue.triple_call_logged logs base actions call

theorem RuleRun.triple_moveBehind_logged (logs : service.Logs log) (base : List Mutation)
    (card : CardId) (column : ColumnId) (anchor : Option CardId) :
    RuleRun.Triple service (Logged log base) (RuleRun.moveBehind card column anchor)
      (fun _ => Logged log base) fun _ => Logged log base := by
  cases anchor with
  | none => exact RuleRun.triple_pure fun _ _ before => before
  | some anchor =>
    apply RuleRun.triple_bind (RuleRun.triple_change_logged logs base _)
    intro _
    exact RuleRun.triple_note fun _ _ grown => grown

theorem SideEffect.triple_apply_logged (logs : service.Logs log) (base : List Mutation)
    (actions : List Action) (effect : SideEffect) (subject : EffectSubject) (arguments : List String) :
    Dialogue.Triple service (Logged log base actions) (effect.apply subject arguments)
      (Either (fun settled => Logged log base (actions ++ (settled.map (·.action)).toList))
        fun _ => Logged log base actions) := by
  have nothing : Dialogue.Triple service (Logged log base actions)
      (pure (.ok none) : Dialogue (Except TrackingError (Option EffectOutcome)))
      (Either (fun settled => Logged log base (actions ++ (settled.map (·.action)).toList))
        fun _ => Logged log base actions) := by
    apply Dialogue.triple_pure
    intro s before
    change Logged log base (actions ++ []) s
    rw [List.append_nil]
    exact before
  cases effect <;> cases subject
  case closeIssue.linked entity =>
    cases entity with
    | none => exact nothing
    | some issue =>
      change Dialogue.Triple service _ (if issue.closed then _ else _) _
      split
      · exact nothing
      · refine Dialogue.triple_bind (Dialogue.triple_call_logged logs base actions _) ?_
        intro answer
        cases answer <;> exact Dialogue.triple_pure fun _ grown => grown
  case addCloseIssueRule.memberships memberships =>
    cases arguments with
    | nil => exact nothing
    | cons name repositories =>
      unfold apply addCompanionCard
      dsimp only
      split
      · exact nothing
      · refine Dialogue.triple_bind (Dialogue.triple_call_logged logs base actions _) ?_
        intro answer
        cases answer <;> exact Dialogue.triple_pure fun _ grown => grown
  all_goals exact nothing

theorem RuleRun.triple_carryOut_logged (logs : service.Logs log) (base : List Mutation)
    (effect : SideEffect) (subject : EffectSubject) (rule : PlacedRule) :
    RuleRun.Triple service (Logged log base) (RuleRun.carryOut effect subject rule)
      (fun _ => Logged log base) fun _ => Logged log base := by
  have applied : RuleRun.Triple service (Logged log base)
      (RuleRun.attempt .rule (effect.apply subject rule.declaration.arguments))
      (fun settled actions => Logged log base (actions ++ (settled.map (·.action)).toList))
      fun _ => Logged log base := by
    apply RuleRun.triple_attempt
    intro actions
    exact SideEffect.triple_apply_logged logs base actions effect subject _
  apply RuleRun.triple_bind applied
  intro settled
  rcases settled with _ | _ | placement
  · apply RuleRun.triple_pure
    intro actions s grown
    change Logged log base (actions ++ []) s at grown
    rwa [List.append_nil] at grown
  · exact RuleRun.triple_note fun _ _ grown => grown
  · refine RuleRun.triple_bind (Q := fun _ => Logged log base)
      (RuleRun.triple_note fun _ _ grown => grown) ?_
    intro _
    exact RuleRun.triple_moveBehind_logged logs base _ _ _

/-- Reads are not logged, nor is finding out whether a rule fires. -/
theorem RuleRun.triple_read_logged (logs : service.Logs log) (base : List Mutation)
    (policy : RetryPolicy) (call : Call) (isRead : call.isRead) :
    RuleRun.Triple service (Logged log base) (RuleRun.read policy call)
      (fun _ => Logged log base) fun _ => Logged log base := by
  apply RuleRun.triple_read policy
  intro actions
  exact Dialogue.triple_weaken (Dialogue.triple_read_logged logs base actions call isRead)
    (fun _ before => before) fun _ _ => Dialogue.either_of_both

theorem Automation.triple_fires_logged (logs : service.Logs log) (base : List Mutation)
    (policy : RetryPolicy) (event : Event) (automation : Automation) (rule : PlacedRule) :
    RuleRun.Triple service (Logged log base) (automation.fires policy event rule)
      (fun _ => Logged log base) fun _ => Logged log base :=
  Automation.triple_fires fun _ actions => Dialogue.triple_read_logged logs base actions _ rfl

namespace Automation

variable (policy : RetryPolicy) (event : Event)

theorem triple_correctMovedCard_logged (logs : service.Logs log) (base : List Mutation)
    (automation : Automation) (card : CardId) :
    RuleRun.Triple service (Logged log base) (automation.correctMovedCard policy event card)
      (fun _ => Logged log base) fun _ => Logged log base := by
  apply RuleRun.triple_bind (RuleRun.triple_read_logged logs base policy _ rfl)
  intro context
  apply RuleRun.triple_forM
  intro rule _
  apply RuleRun.triple_bind (triple_fires_logged logs base policy event automation rule)
  intro fired
  split
  · split
    · apply RuleRun.triple_bind (RuleRun.triple_carryOut_logged logs base _ _ _)
      intro _
      exact RuleRun.triple_moveBehind_logged logs base _ _ _
    · exact RuleRun.triple_moveBehind_logged logs base _ _ _
  · exact RuleRun.triple_pure fun _ _ grown => grown

theorem triple_createCards_logged (logs : service.Logs log) (base : List Mutation)
    (automation : Automation) (url : EntityUrl) :
    RuleRun.Triple service (Logged log base) (automation.createCards policy event url)
      (fun _ => Logged log base) fun _ => Logged log base := by
  apply RuleRun.triple_bind (RuleRun.triple_read_logged logs base policy _ rfl)
  intro found
  apply RuleRun.triple_forM
  intro rule _
  apply RuleRun.triple_bind (triple_fires_logged logs base policy event automation rule)
  intro fired
  split
  · apply RuleRun.triple_bind (RuleRun.triple_change_logged logs base _)
    intro card
    refine RuleRun.triple_bind (Q := fun _ => Logged log base)
      (RuleRun.triple_note fun _ _ grown => grown) ?_
    intro _
    exact RuleRun.triple_moveBehind_logged logs base _ _ _
  · exact RuleRun.triple_pure fun _ _ grown => grown

theorem triple_moveCards_logged (logs : service.Logs log) (base : List Mutation)
    (automation : Automation) (url : EntityUrl) :
    RuleRun.Triple service (Logged log base) (automation.moveCards policy event url)
      (fun _ => Logged log base) fun _ => Logged log base := by
  apply RuleRun.triple_bind (RuleRun.triple_read_logged logs base policy _ rfl)
  intro found
  apply RuleRun.triple_forM
  intro pair _
  obtain ⟨membership, rule⟩ := pair
  apply RuleRun.triple_bind (triple_fires_logged logs base policy event automation rule)
  intro fired
  split
  · split
    · exact RuleRun.triple_carryOut_logged logs base _ _ _
    · apply RuleRun.triple_bind (RuleRun.triple_change_logged logs base _)
      intro _
      refine RuleRun.triple_bind (Q := fun _ => Logged log base)
        (RuleRun.triple_note fun _ _ grown => grown) ?_
      intro _
      exact RuleRun.triple_moveBehind_logged logs base _ _ _
  · exact RuleRun.triple_pure fun _ _ grown => grown

theorem triple_work_logged (logs : service.Logs log) (base : List Mutation)
    (automation : Automation) (target : Target) :
    RuleRun.Triple service (Logged log base) (automation.work policy event target)
      (fun _ => Logged log base) fun _ => Logged log base := by
  unfold work
  split
  · exact triple_correctMovedCard_logged policy event logs base automation _
  · split
    · exact triple_createCards_logged policy event logs base automation _
    · exact triple_moveCards_logged policy event logs base automation _

end Automation

/-- The outcomes so far account for everything that the log has grown by. -/
theorem Dispatcher.triple_dispatch_logged (logs : service.Logs log) (base : List Mutation)
    (dispatcher : Dispatcher) (event : Event) :
    Dialogue.Triple service (Logged log base []) (dispatcher.dispatch event)
      (Either (fun report => Logged log base report.actions) fun _ => Logged log base []) := by
  refine Dispatcher.triple_dispatch (J := fun done => Logged log base (done.flatMap (·.actions)))
    ?_ ?_ ?_
  · intro url
    exact Dialogue.triple_read_logged logs base [] _ rfl
  · intro s before
    exact before
  · intro automation _ target done s logged
    obtain ⟨grown, split, spoken⟩ := logged
    have work := Automation.triple_work_logged dispatcher.policy event logs (base ++ grown)
      automation target
    obtain ⟨added, longer, reported⟩ :=
      Automation.triple_outcome work s ⟨[], by rw [split, List.append_nil], rfl⟩
    refine ⟨grown ++ added, ?_, ?_⟩
    · rw [longer, List.append_assoc]
    · rw [List.map_append, spoken, reported, List.flatMap_append, List.flatMap_singleton]

end

/-! ## Two logs -/

theorem Service.recorded_logs {σ : Type} (service : Service σ) :
    service.recorded.Logs fun s => s.2.filterMap Exchange.mutation? := by
  intro call state
  obtain ⟨s, record⟩ := state
  change (record ++ [_]).filterMap Exchange.mutation? = record.filterMap Exchange.mutation? ++ _
  rw [List.filterMap_append]
  rfl

theorem Store.createCard_journal (s : Store) (column : ColumnId) (content : CardContent) :
    (s.createCard column content).2.journal = s.journal ++
      (Exchange.mutation? ⟨.createCard column content, (s.createCard column content).1⟩).toList := by
  rcases s.createCard_cases column content with ⟨error, failed⟩ | ⟨target, _, made⟩
  · rw [failed]
    exact (List.append_nil _).symm
  · rw [made]
    rfl

theorem Store.moveCard_journal (s : Store) (card : CardId) (column : ColumnId)
    (after : Option CardId) :
    (s.moveCard card column after).2.journal = s.journal ++
      (Exchange.mutation? ⟨.moveCard card column after, (s.moveCard card column after).1⟩).toList := by
  rcases s.moveCard_cases card column after with ⟨error, failed⟩ | ⟨_, _, _, _, _, _, moved⟩
  · rw [failed]
    exact (List.append_nil _).symm
  · rw [moved]
    rfl

theorem Store.closeIssue_journal (s : Store) (entity : EntityId) :
    (s.closeIssue entity).2.journal = s.journal ++
      (Exchange.mutation? ⟨.closeIssue entity, (s.closeIssue entity).1⟩).toList := by
  rcases s.closeIssue_cases entity with ⟨error, failed⟩ | closed
  · rw [failed]
    exact (List.append_nil _).symm
  · rw [closed]
    rfl

theorem Store.read_journal {α : Type} (s : Store) (look : Store → Except TrackingError α) :
    (s.read look).2.journal = s.journal := by
  rcases s.read_cases look with ⟨_, answered⟩ | ⟨n, _, failed⟩
  · rw [answered]
  · rw [failed]

theorem Store.service_logs : Store.service.Logs Store.journal := by
  intro call s
  have read (isRead : call.isRead) (same : (Store.service call s).2.journal = s.journal) :
      (Store.service call s).2.journal =
        s.journal ++ (Exchange.mutation? ⟨call, (Store.service call s).1⟩).toList := by
    rw [same, Exchange.mutation?_of_read _ isRead, Option.toList_none, List.append_nil]
  cases call with
  | boardsForEntity url => exact read rfl (s.read_journal _)
  | cardContext card => exact read rfl (s.read_journal _)
  | cardMemberships url => exact read rfl (s.read_journal _)
  | pullRequestBody url => exact read rfl (s.read_journal _)
  | reviews pullRequest => exact read rfl (s.read_journal _)
  | createCard column content => exact s.createCard_journal column content
  | moveCard card column after => exact s.moveCard_journal card column after
  | closeIssue entity => exact s.closeIssue_journal entity

/-- The calls of a dialogue that is held with a service, with their answers. -/
def Dialogue.record {σ α : Type} (service : Service σ) (d : Dialogue α) (s : σ) : List Exchange :=
  (d.run service.recorded (s, [])).2.2

/-- To keep a record changes neither the result nor the state. -/
theorem Dialogue.run_recorded {σ α : Type} (service : Service σ) (d : Dialogue α) (s : σ)
    (record : List Exchange) :
    (d.run service.recorded (s, record)).1 = (d.run service s).1 ∧
      (d.run service.recorded (s, record)).2.1 = (d.run service s).2 := by
  induction d generalizing s record with
  | done value => exact ⟨rfl, rfl⟩
  | ask call next others => exact others _ _ _

/-- With any service, the actions of a report are the changes that were answered with success, in
the order of the calls. With the store, they are the entries that its journal has grown by. -/
theorem Dispatcher.report_actions (dispatcher : Dispatcher) (event : Event) :
    (∀ (σ : Type) (service : Service σ) (s : σ) (report : Report),
      ((dispatcher.dispatch event).run service s).1 = .ok report →
        report.actions = (((dispatcher.dispatch event).record service s).filterMap
          Exchange.mutation?).map Mutation.action) ∧
    (∀ (s : Store) (report : Report),
      ((dispatcher.dispatch event).run Store.service s).1 = .ok report →
        ∃ appended,
          ((dispatcher.dispatch event).run Store.service s).2.journal = s.journal ++ appended ∧
            report.actions = appended.map Mutation.action) := by
  constructor
  · intro σ service s report success
    have reached := triple_dispatch_logged service.recorded_logs [] dispatcher event (s, [])
      ⟨[], rfl, rfl⟩
    rw [((dispatcher.dispatch event).run_recorded service s []).1, success] at reached
    obtain ⟨grown, split, spoken⟩ := reached
    change (((dispatcher.dispatch event).record service s).filterMap Exchange.mutation?) = [] ++ grown
      at split
    rw [split, List.nil_append, spoken]
  · intro s report success
    have reached := triple_dispatch_logged Store.service_logs s.journal dispatcher event s
      ⟨[], (List.append_nil _).symm, rfl⟩
    rw [success] at reached
    obtain ⟨grown, split, spoken⟩ := reached
    exact ⟨grown, split, spoken.symm⟩

/-- The delivery that tells of a moved card. -/
def Event.ofMovedCard (card : CardId) : Event :=
  ⟨.cardMoved, ⟨some "moved", none, none, some ⟨card.text⟩, none, none, none⟩⟩

/-- A service that closes issues and refuses to move cards. -/
def stubborn : Script where
  cardContext := [.ok ⟨some ⟨⟨"entity-1"⟩, 7, false⟩, ⟨⟨"column-2"⟩, "Done", none,
    [⟨⟨"card-3"⟩, some "- `close_issue`", none⟩],
    [⟨⟨"card-3"⟩, some "- `close_issue`", none⟩, ⟨⟨"card-4"⟩, none, none⟩]⟩⟩]
  closeIssue := [.ok ()]
  moveCard := [.error (.transport "refused")]

/-- The issue was closed and the move failed, so only the first is among the actions. -/
theorem Dispatcher.report_actions_stubborn :
    [.issueClosed ⟨"entity-1"⟩] = (((Dispatcher.dispatch
      ⟨.cardMoved, Catalog.builtin.listeners .cardMoved, .default⟩
      (Event.ofMovedCard ⟨"card-4"⟩)).record Script.service stubborn).filterMap
        Exchange.mutation?).map Mutation.action :=
  (report_actions _ _).1 Script Script.service stubborn
    ⟨.cardMoved, [⟨"close_issue", [.issueClosed ⟨"entity-1"⟩], some (.tracking (.transport "refused"))⟩]⟩
    (by decide +kernel)

end BoardRules
