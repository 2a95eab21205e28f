import BoardRules.Proofs.Dispatch.Calls
import BoardRules.Proofs.Dispatch.SelfCorrection

/-!
# Closed issues

A dispatch of a moved card looks at the card's issue once, before any rule fires. It asks for an open
issue to be closed once for every `close_issue` rule that it finds in the card's column, whatever its
own calls have done by then, and never for one that was closed when it began.
-/
namespace BoardRules

variable {σ α β : Type}

/-- The issue that a call is to close. -/
def Call.closes? : Call → Option EntityId
  | .closeIssue issue => some issue
  | _ => none

theorem Call.closes?_of_read {call : Call} (isRead : call.isRead = true) : call.closes? = none := by
  cases call with
  | closeIssue => cases isRead
  | _ => rfl

/-! ## Calls of a dialogue -/

namespace Dialogue

/-- The issues that a dialogue asks to be closed, in the order of the calls. -/
def closings (service : Service σ) (d : Dialogue α) (s : σ) : List EntityId :=
  (d.record service s).filterMap fun exchange => exchange.call.closes?

theorem closings_eq (service : Service σ) (d : Dialogue α) (s : σ) :
    d.closings service s = (d.calls service s).filterMap Call.closes? := by
  unfold calls
  rw [List.filterMap_map]
  rfl

theorem closings_bind (service : Service σ) (d : Dialogue α) (next : α → Dialogue β) (s : σ) :
    (d >>= next).closings service s = d.closings service s ++
      (next (d.run service s).1).closings service (d.run service s).2 := by
  simp only [closings_eq, calls_bind, List.filterMap_append]

theorem closings_of_reads {service : Service σ} {d : Dialogue α} {s : σ}
    (reads : ∀ exchange ∈ d.record service s, exchange.call.isRead = true) :
    d.closings service s = [] :=
  List.filterMap_eq_nil_iff.mpr fun exchange member => Call.closes?_of_read (reads exchange member)

end Dialogue

/-! ## Calls of a run -/

namespace RuleRun

/-- The issues that a run asks to be closed. -/
def closings (service : Service σ) (work : RuleRun α) (actions : List Action) (s : σ) :
    List EntityId :=
  (work.run.run actions).closings service s

variable (service : Service σ) (actions : List Action) (s : σ)

theorem closings_eq (work : RuleRun α) :
    closings service work actions s = (calls service work actions s).filterMap Call.closes? :=
  Dialogue.closings_eq service _ s

theorem closings_bind (work : RuleRun α) (next : α → RuleRun β) :
    closings service (work >>= next) actions s = closings service work actions s ++
      match perform service work actions s with
      | ((.ok value, actions), s) => closings service (next value) actions s
      | ((.error _, _), _) => [] := by
  rw [closings_eq, closings_eq, calls_bind, List.filterMap_append]
  rcases perform service work actions s with ⟨⟨_ | _, noted⟩, reached⟩
  · rfl
  · exact congrArg (_ ++ ·) (closings_eq service noted reached (next _)).symm

theorem closings_read (policy : RetryPolicy) {call : Call} (isRead : call.isRead = true) :
    closings service (read policy call) actions s = [] := by
  rw [closings_eq, calls_read]
  refine List.filterMap_eq_nil_iff.mpr fun asked member => ?_
  rw [Dialogue.eq_of_mem_calls_read isRead member]
  exact Call.closes?_of_read isRead

/-- A loop closes nothing if no round does. -/
theorem closings_forM {items : List β} {round : β → RuleRun Unit}
    (each : ∀ item actions s, closings service (round item) actions s = []) :
    closings service (items.forM round) actions s = [] := by
  induction items generalizing actions s with
  | nil => rfl
  | cons item rest others =>
    rw [List.forM_eq_forM, List.forM_cons, ← List.forM_eq_forM, closings_bind, each]
    rcases perform service (round item) actions s with ⟨⟨_ | _, noted⟩, reached⟩
    · rfl
    · exact others noted reached

/-- Steps that all succeed close what they are meant to close. -/
theorem closings_steps (steps : List Step)
    (success : (perform service (steps.forM Step.take) actions s).1.1.isOk = true) :
    closings service (steps.forM Step.take) actions s =
      steps.filterMap fun step => step.call.closes? := by
  rw [closings_eq, (calls_steps service actions s steps).2 success, List.filterMap_map]
  rfl

end RuleRun

/-! ## Calls of the automation for moved cards -/

namespace Store

/-- The issues that are to be closed when a card has been moved: its own issue if that is open, once
for every rule that is found in the card's column. -/
def dueClosings (s : Store) (card : CardId) : List EntityId :=
  match s.linkedEntity? card, s.columnOf? card with
  | some issue, some column =>
    if issue.closed then []
    else List.replicate (s.rulesNamed "close_issue" column).length issue.id
  | _, _ => []

end Store

namespace Automation

variable (policy : RetryPolicy) (event : Event)

theorem closings_outcome (service : Service σ) (automation : Automation) (target : Target) (s : σ) :
    (automation.outcome policy event target).closings service s =
      RuleRun.closings service (automation.work policy event target) [] s := by
  rw [Dialogue.closings_eq, calls_outcome, RuleRun.closings_eq]

/-- An event that names an entity closes nothing. -/
theorem closings_closing_entity (service : Service σ) (url : EntityUrl) (s : σ) :
    RuleRun.closings service (closing.work policy event (.entity url)) [] s = [] := by
  have work : closing.work policy event (.entity url) = closing.moveCards policy event url := rfl
  rw [work]
  unfold moveCards
  rw [RuleRun.closings_bind, RuleRun.closings_read _ _ _ _ rfl]
  rcases RuleRun.perform service _ [] s with ⟨⟨_ | found, actions⟩, s'⟩
  · rfl
  · refine RuleRun.closings_forM service actions s' ?_
    intro item actions s
    rfl

/-- An open issue is closed by the steps of every rule, and nothing else is. -/
theorem closings_correction (context : CardContext) :
    ((closing.correction context).flatMap (·.steps)).filterMap (fun step => step.call.closes?) =
      match context.content with
      | none => []
      | some issue =>
        if issue.closed then []
        else List.replicate
          (PlacedRule.named "close_issue" (PlacedRule.ofColumn context.column)).length issue.id := by
  have lowered : ∀ rule : PlacedRule, rule.lowering.filterMap (fun step => step.call.closes?) = [] := by
    intro rule
    unfold PlacedRule.lowering
    cases rule.anchor <;> rfl
  have round : ∀ rule : PlacedRule, (closing.closeLinked context.content ++ rule.lowering).filterMap
      (fun step => step.call.closes?) =
        (closing.closeLinked context.content).filterMap fun step => step.call.closes? := by
    intro rule
    rw [List.filterMap_append, lowered, List.append_nil]
  unfold correction
  rw [List.flatMap_map, List.filterMap_flatMap]
  simp only [round]
  cases context.content with
  | none => exact List.flatMap_eq_nil_iff.mpr fun _ _ => rfl
  | some issue =>
    have linked : closing.closeLinked (some issue) =
        if issue.closed then [] else [.close issue.id] := rfl
    rw [linked]
    dsimp only
    cases issue.closed with
    | true => exact List.flatMap_eq_nil_iff.mpr fun _ _ => rfl
    | false => exact (List.map_eq_flatMap).symm.trans List.map_const'

/-- What the automation does for a moved card is a plan. -/
theorem work_movedCard (card : CardId) :
    closing.work policy event (.movedCard card) =
      RuleRun.read policy (.cardContext card) >>= fun context =>
        ((closing.correction context).flatMap (·.steps)).forM Step.take := by
  refine (closing.correctMovedCard_eq policy event card).trans ?_
  congr 1
  funext context
  have always : closing.matcher = .payload .always := rfl
  have all : (closing.correction context).filter (fun round =>
      PayloadTest.always.holds event round.rule.declaration.arguments) =
        closing.correction context :=
    List.filter_eq_self.mpr fun _ _ => rfl
  rw [closing.carryOutRounds_payload policy event always, all]

theorem perform_readContext {s : Store} (reads : s.failingReads = 0) (card : CardId) :
    RuleRun.perform Store.service (RuleRun.read policy (.cardContext card)) [] s =
      (((Store.cardContext card s).mapError .tracking, []), s) := by
  have isRead : (Call.cardContext card).isRead = true := rfl
  have answer : Store.service (.cardContext card) s = (Store.cardContext card s, s) :=
    Store.read_calm reads _
  unfold RuleRun.read
  rw [RuleRun.perform_attempt, Store.run_read_calm policy isRead reads, answer]

/-- All steps that the rules of the column lead to are carried out. -/
theorem correction_succeeds {s : Store} (wellFormed : s.WellFormed) (reads : s.failingReads = 0)
    {card : CardId} {column : StoredColumn} (found : s.columnOf? card = some column) :
    (RuleRun.perform Store.service (((closing.correction
      ⟨s.linkedEntity? card, s.columnView column⟩).flatMap (·.steps)).forM Step.take) [] s).1.1.isOk =
        true := by
  have inside : card ∈ column.cards := by simpa using List.find?_some found
  obtain ⟨last, final⟩ := Option.isSome_iff_exists.mp
    (List.getLast?_isSome.mpr (List.ne_nil_of_mem inside))
  -- Neither the policy nor the event matters to the steps.
  obtain ⟨actions, s', _, _, ran, _⟩ :=
    closing_pass .default (.ofMovedCard card) wellFormed reads found final
  rcases performed : RuleRun.perform Store.service
    (closing.work .default (.ofMovedCard card) (.movedCard card)) [] s with ⟨⟨result, noted⟩, reached⟩
  have ended := (run_outcome performed).symm.trans ran
  rw [work_movedCard, RuleRun.perform_bind, perform_readContext .default reads] at performed
  unfold Store.cardContext at performed
  rw [found] at performed
  cases result with
  | ok _ => exact congrArg (·.1.1.isOk) performed
  | error error => cases ended

/-- What has been closed by earlier rules is not looked at again. -/
theorem closings_movedCard {s : Store} (wellFormed : s.WellFormed) (reads : s.failingReads = 0)
    (card : CardId) :
    RuleRun.closings Store.service (closing.work policy event (.movedCard card)) [] s =
      s.dueClosings card := by
  rw [work_movedCard, RuleRun.closings_bind, RuleRun.closings_read _ _ _ _ rfl,
    perform_readContext policy reads, List.nil_append]
  unfold Store.dueClosings
  cases found : s.columnOf? card with
  | none =>
    have unknown : Store.cardContext card s = .error (.notFound card.text) := by
      unfold Store.cardContext
      rw [found]
    rw [unknown]
    cases s.linkedEntity? card <;> rfl
  | some column =>
    have context : Store.cardContext card s =
        .ok ⟨s.linkedEntity? card, s.columnView column⟩ := by
      unfold Store.cardContext
      rw [found]
    rw [context]
    dsimp only [Except.mapError]
    rw [RuleRun.closings_steps _ _ _ _ (correction_succeeds wellFormed reads found),
      closings_correction]
    cases s.linkedEntity? card <;> rfl

end Automation

/-! ## Calls of a dispatch -/

namespace Dispatcher

theorem closings_resolve (dispatcher : Dispatcher) (event : Event) (service : Service σ) (s : σ) :
    (dispatcher.resolve event).closings service s = [] := by
  obtain ⟨part, grown, reads, _⟩ := dispatcher.resolve_recorded event service s []
  have recorded : (dispatcher.resolve event).record service s = part := grown
  refine Dialogue.closings_of_reads ?_
  rw [recorded]
  exact reads

theorem closings_outcomes_singleton (service : Service σ) (policy : RetryPolicy) (event : Event)
    (target : Target) (automation : Automation) (s : σ) :
    (outcomes policy event target [automation]).closings service s =
      RuleRun.closings service (automation.work policy event target) [] s := by
  unfold outcomes
  rw [Dialogue.closings_bind, automation.closings_outcome policy event service target s]
  exact List.append_nil _

/-- A dispatch closes what its automation closes for the target of the event. -/
theorem closings_dispatch (policy : RetryPolicy) {event : Event} {s : Store}
    (reads : s.failingReads = 0) (moved : event.trigger = .cardMoved) :
    let dispatcher : Dispatcher := ⟨.cardMoved, [.closing], policy⟩
    (dispatcher.dispatch event).closings Store.service s =
      match ((dispatcher.resolve event).run Store.service s).1 with
      | .error _ => []
      | .ok target =>
        RuleRun.closings Store.service (Automation.closing.work policy event target) [] s := by
  intro dispatcher
  have settled := dispatcher.resolve_calm event reads
  have resolving := closings_resolve dispatcher event Store.service s
  unfold dispatch
  rw [if_neg (not_not_intro moved), Dialogue.closings_bind, resolving, settled, List.nil_append]
  cases ((dispatcher.resolve event).run Store.service s).1 with
  | error _ => rfl
  | ok target =>
    refine (Dialogue.closings_bind _ _ _ s).trans ?_
    rw [closings_outcomes_singleton]
    exact List.append_nil _

end Dispatcher

namespace Router

/-- The router closes what its only listener to moved cards closes. -/
theorem closings_route_cardMoved (policy : RetryPolicy) {event : Event} (s : Store)
    (moved : event.trigger = .cardMoved) :
    ((ofCatalog policy .builtin).route event).closings Store.service s =
      (Dispatcher.dispatch ⟨.cardMoved, [.closing], policy⟩ event).closings Store.service s := by
  have listeners : Catalog.builtin.listeners .cardMoved = [.closing] := by decide +kernel
  unfold route
  rw [moved, dispatcher?_ofCatalog, listeners, if_neg (List.cons_ne_nil _ _)]
  dsimp only
  rw [Dialogue.closings_bind]
  exact List.append_nil _

/-- A dispatch of a moved card asks for the card's issue to be closed once for every `close_issue`
rule that is found in its column, if the issue is open when the dispatch begins. -/
theorem closes_once_per_rule (policy : RetryPolicy) (event : Event) {s : Store}
    (reachable : s.Reachable) (reads : s.failingReads = 0) (moved : event.trigger = .cardMoved) :
    ((ofCatalog policy .builtin).route event).closings Store.service s =
      match event.subject with
      | .projectCard card => s.dueClosings ⟨card.nodeId⟩
      | _ => [] := by
  have closed := Dispatcher.closings_dispatch policy reads moved
  have other : (∀ card, event.subject ≠ .projectCard card) →
      ((ofCatalog policy .builtin).route event).closings Store.service s = [] := by
    intro different
    rw [closings_route_cardMoved policy s moved, closed]
    cases resolved : ((Dispatcher.resolve ⟨.cardMoved, [.closing], policy⟩ event).run
        Store.service s).1 with
    | error _ => rfl
    | ok target =>
      cases target with
      | entity url => exact Automation.closings_closing_entity policy event Store.service url s
      | movedCard card =>
        obtain ⟨about, subject, _⟩ | ⟨url, entity⟩ := Dispatcher.target_of_resolve resolved
        · exact absurd subject (different about)
        · cases entity
  cases about : event.subject with
  | projectCard card =>
    have resolved : ((Dispatcher.resolve ⟨.cardMoved, [.closing], policy⟩ event).run
        Store.service s).1 = .ok (.movedCard ⟨card.nodeId⟩) := by
      rw [Dispatcher.resolve_projectCard _ about]
      rfl
    rw [closings_route_cardMoved policy s moved, closed, resolved]
    exact Automation.closings_movedCard policy event reachable.wellFormed reads ⟨card.nodeId⟩
  | issue | pullRequest | unknown => exact other (by simp [about])

/-- A column with two notes above the card of an open issue. -/
def concluding (one other : String) : Store :=
  [.addBoard (.owner "octo") "Plan", .addColumn ⟨"board-1"⟩ "Done",
    .addEntity ⟨.https, "github.com", "octo", "demo", .issue, 7⟩,
    .appendCard ⟨"column-2"⟩ (.note one), .appendCard ⟨"column-2"⟩ (.note other),
    .appendCard ⟨"column-2"⟩ (.entity ⟨"entity-3"⟩)].foldl Store.perform .empty

/-- A single rule closes the issue when its card is moved, and not a second time. -/
theorem closes_once_per_rule_concluding :
    let route := (ofCatalog .default .builtin).route (.ofMovedCard ⟨"card-6"⟩)
    let s := concluding "- `close_issue`" "nothing"
    let reached := (route.run Store.service s).2
    route.closings Store.service s = [⟨"entity-3"⟩] ∧ route.closings Store.service reached = [] := by
  intro route s reached
  have reachable : s.Reachable := Store.Reachable.foldl _ _ .empty
  have first := closes_once_per_rule .default (.ofMovedCard ⟨"card-6"⟩) reachable
    (by decide +kernel) rfl
  have second := closes_once_per_rule .default (.ofMovedCard ⟨"card-6"⟩) (reachable.run route)
    (by decide +kernel) rfl
  exact ⟨first.trans (by decide +kernel), second.trans (by decide +kernel)⟩

/-- The second of two rules closes the issue that the first one has closed. -/
theorem closes_once_per_rule_twice : ¬ ∀ (policy : RetryPolicy) (event : Event) (s : Store),
    s.Reachable → s.failingReads = 0 → event.trigger = .cardMoved →
      (((ofCatalog policy .builtin).route event).closings Store.service s).length ≤ 1 := by
  intro always
  have once := always .default (.ofMovedCard ⟨"card-6"⟩)
    (concluding "- `close_issue`" "- `close_issue`")
    (Store.Reachable.foldl _ _ .empty) (by decide +kernel) rfl
  revert once
  decide +kernel

end Router

end BoardRules
