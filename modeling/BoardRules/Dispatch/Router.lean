import BoardRules.Dispatch.Run

/-!
# Dispatching events

A dispatcher holds the automations of one trigger. It resolves an event to a card or an entity and
lets every automation run on its own. A router holds one dispatcher for each trigger of a catalog.
-/
namespace BoardRules

structure Dispatcher where
  trigger : Trigger
  automations : List Automation
  policy : RetryPolicy
  deriving DecidableEq, Repr

namespace Dispatcher

/-- A pull request stands for the issue that it is linked to. -/
def resolve (dispatcher : Dispatcher) (event : Event) : Dialogue (Except DispatchError Target) :=
  match event.subject with
  | .issue issue =>
    return ((EntityUrl.parse issue.htmlUrl).mapError .input).map .entity
  | .projectCard card => return .ok (.movedCard ⟨card.nodeId⟩)
  | .pullRequest pullRequest =>
    match EntityUrl.parse pullRequest.htmlUrl with
    | .error error => return .error (.input error)
    | .ok url => do
      let answer ← Dialogue.read dispatcher.policy (.pullRequestBody url)
      return match answer with
        | .error error => .error (.tracking error)
        | .ok description => .ok (.entity (url.linkedIssue description))
  | .unknown => return .error (.missingSubject dispatcher.trigger)

/-- The outcomes of automations that run one after the other. -/
def outcomes (policy : RetryPolicy) (event : Event) (target : Target) :
    List Automation → Dialogue (List Outcome)
  | [] => return []
  | automation :: rest => do
    let outcome ← automation.outcome policy event target
    return outcome :: (← outcomes policy event target rest)

def dispatch (dispatcher : Dispatcher) (event : Event) :
    Dialogue (Except DispatchError Report) :=
  if event.trigger ≠ dispatcher.trigger then
    return .error (.triggerMismatch dispatcher.trigger event.trigger)
  else do
    match ← dispatcher.resolve event with
    | .error error => return .error error
    | .ok target =>
      return .ok ⟨dispatcher.trigger,
        ← outcomes dispatcher.policy event target dispatcher.automations⟩

end Dispatcher

structure Router where
  dispatchers : List Dispatcher
  deriving DecidableEq, Repr

namespace Router

def ofCatalog (policy : RetryPolicy) (catalog : Catalog) : Router :=
  ⟨catalog.groups.map fun (trigger, automations) => ⟨trigger, automations, policy⟩⟩

def dispatcher? (router : Router) (trigger : Trigger) : Option Dispatcher :=
  router.dispatchers.find? fun dispatcher => dispatcher.trigger == trigger

def handles (router : Router) (trigger : Trigger) : Bool := (router.dispatcher? trigger).isSome

/-- The triggers with a dispatcher, in the order of their declaration. -/
def triggers (router : Router) : List Trigger :=
  (router.dispatchers.map (·.trigger)).mergeSort fun first second => first.ctorIdx ≤ second.ctorIdx

/-- Dispatches an event, if any automation listens to its trigger. -/
def route (router : Router) (event : Event) : Dialogue (Except DispatchError (Option Report)) :=
  match router.dispatcher? event.trigger with
  | none => return .ok none
  | some dispatcher => do
    let result ← dispatcher.dispatch event
    return result.map some

end Router

end BoardRules
