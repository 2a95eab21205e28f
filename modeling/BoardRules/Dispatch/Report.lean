import BoardRules.Event.Trigger
import BoardRules.Board.Basic
import BoardRules.Tracking.Error

/-!
# Dispatch reports

What the automations of one trigger changed, each on its own, and what stopped those that failed.
-/
namespace BoardRules

inductive DispatchError where
  /-- The event belongs to another dispatcher. -/
  | triggerMismatch (expected received : Trigger)
  /-- The event names no issue, pull request or card. -/
  | missingSubject (trigger : Trigger)
  | input (error : InputError)
  | tracking (error : TrackingError)
  /-- A matcher or a side effect failed. -/
  | rule (error : TrackingError)
  deriving DecidableEq, Repr

/-- An error of a call is passed on with its own text. -/
def DispatchError.message : DispatchError → String
  | .triggerMismatch expected received =>
    "event " ++ received.key ++ " was routed to the " ++ expected.key ++ " dispatcher"
  | .missingSubject trigger =>
    "event " ++ trigger.key ++ " names no issue, pull request or card"
  | .input error => error.message
  | .tracking error => error.message
  | .rule error => error.message

/-- A change that was carried out. -/
inductive Action where
  | cardCreated (column : ColumnId) (card : CardId)
  | cardMoved (card : CardId) (column : ColumnId)
  /-- A card was put behind another one, at the bottom of its column. -/
  | ruleCardRepositioned (card : CardId) (column : ColumnId) (after : CardId)
  | issueClosed (entity : EntityId)
  | companionCardAdded (column : ColumnId) (card : CardId)
  deriving DecidableEq, Repr

/-- What one automation did. Its actions stand even if a later step failed. -/
structure Outcome where
  rule : String
  actions : List Action
  error : Option DispatchError
  deriving DecidableEq, Repr

structure Report where
  trigger : Trigger
  outcomes : List Outcome
  deriving DecidableEq, Repr

namespace Report

/-- The first outcome of that name. -/
def outcome? (report : Report) (rule : String) : Option Outcome :=
  report.outcomes.find? fun outcome => outcome.rule == rule

def actions (report : Report) : List Action := report.outcomes.flatMap (·.actions)

def errors (report : Report) : List (String × DispatchError) :=
  report.outcomes.filterMap fun outcome => outcome.error.map fun error => (outcome.rule, error)

def isClean (report : Report) : Bool := report.outcomes.all fun outcome => outcome.error.isNone

end Report

end BoardRules
