import BoardRules.Tracking.Dialogue

/-!
# Scripted services

A service that knows its answers beforehand. Each kind of call has a list of answers, used in order;
the last one is given again and again.
-/
namespace BoardRules

/-- The answers still to be given. -/
structure Script where
  boardsForEntity : List (Except TrackingError EntityBoards) := []
  cardContext : List (Except TrackingError CardContext) := []
  cardMemberships : List (Except TrackingError EntityMemberships) := []
  pullRequestBody : List (Except TrackingError (Option String)) := []
  reviews : List (Except TrackingError (List Review)) := []
  createCard : List (Except TrackingError CardId) := []
  moveCard : List (Except TrackingError Unit) := []
  closeIssue : List (Except TrackingError Unit) := []

def Call.name : Call → String
  | boardsForEntity _ => "boards_for_entity"
  | cardContext _ => "card_context"
  | cardMemberships _ => "card_memberships"
  | pullRequestBody _ => "pull_request_body"
  | reviews _ => "reviews"
  | createCard _ _ => "create_card"
  | moveCard _ _ _ => "move_card"
  | closeIssue _ => "close_issue"

namespace Script

/-- The next answer of a list, and the list after it. -/
def next (call : Call) : List (Except TrackingError α) →
    Except TrackingError α × List (Except TrackingError α)
  | [] => (.error (.query ("unscripted " ++ call.name)), [])
  | [answer] => (answer, [answer])
  | answer :: rest => (answer, rest)

def service : Service Script
  | call@(.boardsForEntity _), s =>
    let (answer, rest) := next call s.boardsForEntity
    (answer, { s with boardsForEntity := rest })
  | call@(.cardContext _), s =>
    let (answer, rest) := next call s.cardContext
    (answer, { s with cardContext := rest })
  | call@(.cardMemberships _), s =>
    let (answer, rest) := next call s.cardMemberships
    (answer, { s with cardMemberships := rest })
  | call@(.pullRequestBody _), s =>
    let (answer, rest) := next call s.pullRequestBody
    (answer, { s with pullRequestBody := rest })
  | call@(.reviews _), s =>
    let (answer, rest) := next call s.reviews
    (answer, { s with reviews := rest })
  | call@(.createCard _ _), s =>
    let (answer, rest) := next call s.createCard
    (answer, { s with createCard := rest })
  | call@(.moveCard _ _ _), s =>
    let (answer, rest) := next call s.moveCard
    (answer, { s with moveCard := rest })
  | call@(.closeIssue _), s =>
    let (answer, rest) := next call s.closeIssue
    (answer, { s with closeIssue := rest })

end Script

end BoardRules
