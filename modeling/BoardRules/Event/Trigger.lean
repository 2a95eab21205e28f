import BoardRules.InputError
import BoardRules.Text.Blank

/-!
# Triggers

The events that rules can listen to, each a pair of an event name and an action.
-/
namespace BoardRules

inductive Trigger where
  | issueOpened
  | issueEdited
  | issueReopened
  | issueMilestoned
  | issueDemilestoned
  | issueAssigned
  | issueUnassigned
  | issueLabeled
  | issueUnlabeled
  | pullRequestOpened
  | pullRequestClosed
  | pullRequestReopened
  | pullRequestAssigned
  | pullRequestUnassigned
  | pullRequestLabeled
  | pullRequestUnlabeled
  | reviewRequested
  | reviewSubmitted
  | cardMoved
  deriving DecidableEq, Repr

namespace Trigger

/-- All triggers in their order. -/
def all : List Trigger :=
  [issueOpened, issueEdited, issueReopened, issueMilestoned, issueDemilestoned, issueAssigned,
    issueUnassigned, issueLabeled, issueUnlabeled, pullRequestOpened, pullRequestClosed,
    pullRequestReopened, pullRequestAssigned, pullRequestUnassigned, pullRequestLabeled,
    pullRequestUnlabeled, reviewRequested, reviewSubmitted, cardMoved]

/-- Event name and action, joined by a point. -/
def key : Trigger → String
  | issueOpened => "issues.opened"
  | issueEdited => "issues.edited"
  | issueReopened => "issues.reopened"
  | issueMilestoned => "issues.milestoned"
  | issueDemilestoned => "issues.demilestoned"
  | issueAssigned => "issues.assigned"
  | issueUnassigned => "issues.unassigned"
  | issueLabeled => "issues.labeled"
  | issueUnlabeled => "issues.unlabeled"
  | pullRequestOpened => "pull_request.opened"
  | pullRequestClosed => "pull_request.closed"
  | pullRequestReopened => "pull_request.reopened"
  | pullRequestAssigned => "pull_request.assigned"
  | pullRequestUnassigned => "pull_request.unassigned"
  | pullRequestLabeled => "pull_request.labeled"
  | pullRequestUnlabeled => "pull_request.unlabeled"
  | reviewRequested => "pull_request.review_requested"
  | reviewSubmitted => "pull_request_review.submitted"
  | cardMoved => "project_card.moved"

/-- Blanks around the key do not count. -/
def parse (text : String) : Except InputError Trigger :=
  match all.find? fun t => t.key == String.ofList (Text.trim text.toList) with
  | some t => .ok t
  | none => .error (.unknownTrigger text)

def ofParts (event action : String) : Except InputError Trigger :=
  parse (event ++ "." ++ action)

end Trigger

end BoardRules
