import BoardRules.Board.PlacedRule
import BoardRules.Catalog.Basic
import BoardRules.Dispatch.Report
import BoardRules.Entity.ClosingReference

/-!
# Running an automation

An automation reads the part of the boards that it needs once, picks the placed rules with its name
and carries out those that fire, one after the other. The first call that fails ends the run; what
was done before stays done and is noted.
-/
namespace BoardRules

/-- The work of one automation: a dialogue that notes its actions and can fail. -/
abbrev RuleRun := ExceptT DispatchError (StateT (List Action) Dialogue)

/-- What an event has been resolved to. -/
inductive Target where
  | movedCard (card : CardId)
  | entity (url : EntityUrl)
  deriving DecidableEq, Repr

namespace RuleRun

/-- A dialogue whose failure ends the run. -/
def attempt (wrap : TrackingError → DispatchError) (d : Dialogue (Except TrackingError α)) :
    RuleRun α := do
  match ← (d : StateT (List Action) Dialogue _) with
  | .ok value => return value
  | .error error => throw (wrap error)

def note (action : Action) : RuleRun Unit :=
  modifyThe (List Action) (· ++ [action])

/-- Reads and retries. -/
def read (policy : RetryPolicy) (call : Call) : RuleRun call.Answer :=
  attempt .tracking (Dialogue.read policy call)

/-- Makes a call that changes something. -/
def change (call : Call) : RuleRun call.Answer :=
  attempt .tracking (Dialogue.call call)

/-- Puts a card behind the anchor. A card without an anchor is the last one already. -/
def moveBehind (card : CardId) (column : ColumnId) : Option CardId → RuleRun Unit
  | none => return ()
  | some anchor => do
    change (.moveCard card column (some anchor))
    note (.ruleCardRepositioned card column anchor)

/-- Puts the card of a rule back to the bottom of its column. -/
def reposition (rule : PlacedRule) : RuleRun Unit :=
  moveBehind rule.card rule.column.id rule.anchor

/-- Notes what a side effect did. A new companion card goes to the bottom of its column. -/
def settleEffect : Option EffectOutcome → RuleRun Unit
  | none => return ()
  | some (.issueClosed entity) => note (.issueClosed entity)
  | some (.companionCardAdded placement) => do
    note (.companionCardAdded placement.column placement.card)
    moveBehind placement.card placement.column placement.anchor

def carryOut (effect : SideEffect) (subject : EffectSubject) (rule : PlacedRule) :
    RuleRun Unit := do
  settleEffect (← attempt .rule (effect.apply subject rule.declaration.arguments))

end RuleRun

namespace Automation

open RuleRun

def fires (automation : Automation) (policy : RetryPolicy) (event : Event) (rule : PlacedRule) :
    RuleRun Bool :=
  attempt .rule (automation.matcher.fires policy event rule.declaration.arguments)

/-- A card has been moved: the rules of its column take effect on it. -/
def correctMovedCard (automation : Automation) (policy : RetryPolicy) (event : Event)
    (card : CardId) : RuleRun Unit := do
  let context ← read policy (.cardContext card)
  (PlacedRule.named automation.name (PlacedRule.ofColumn context.column)).forM fun rule => do
    if ← automation.fires policy event rule then
      if let some effect := automation.sideEffect then
        carryOut effect (.linked context.content) rule
      reposition rule

/-- A new entity gets a card in the column of every rule that fires. -/
def createCards (automation : Automation) (policy : RetryPolicy) (event : Event)
    (url : EntityUrl) : RuleRun Unit := do
  let found ← read policy (.boardsForEntity url)
  (PlacedRule.named automation.name (PlacedRule.ofBoards found.boards)).forM fun rule => do
    if ← automation.fires policy event rule then
      let card ← change (.createCard rule.column.id (.entity found.entity))
      note (.cardCreated rule.column.id card)
      reposition rule

/-- Every card of the entity with every rule of that name on its board. -/
def candidates (automation : Automation) (memberships : List Membership) :
    List (Membership × PlacedRule) :=
  memberships.flatMap fun membership =>
    (PlacedRule.named automation.name (PlacedRule.ofBoards [membership.board])).map fun rule =>
      (membership, rule)

/-- The cards of an entity move into the columns of the rules that fire. A side effect takes the
place of the move. -/
def moveCards (automation : Automation) (policy : RetryPolicy) (event : Event)
    (url : EntityUrl) : RuleRun Unit := do
  let found ← read policy (.cardMemberships url)
  let memberships := found.cards.getD []
  (automation.candidates memberships).forM fun (membership, rule) => do
    if ← automation.fires policy event rule then
      match automation.sideEffect with
      | some effect => carryOut effect (.memberships memberships) rule
      | none =>
        change (.moveCard membership.card rule.column.id none)
        note (.cardMoved membership.card rule.column.id)
        reposition rule

def work (automation : Automation) (policy : RetryPolicy) (event : Event) :
    Target → RuleRun Unit
  | .movedCard card => automation.correctMovedCard policy event card
  | .entity url =>
    if automation.createsCard then automation.createCards policy event url
    else automation.moveCards policy event url

/-- Runs the automation for an event and tells what came of it. -/
def outcome (automation : Automation) (policy : RetryPolicy) (event : Event) (target : Target) :
    Dialogue Outcome := do
  let (result, actions) ← ((automation.work policy event target).run.run [])
  return { rule := automation.name
           actions
           error := match result with
             | .ok _ => none
             | .error error => some error }

end Automation

end BoardRules
