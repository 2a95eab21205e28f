import BoardRules.Event.Basic
import BoardRules.Tracking.Retry

/-!
# Matchers

A matcher decides whether a rule with given arguments fires for an event. Most read the event alone;
one asks for the reviews of the pull request. A rule that lacks an argument it needs does not fire.
-/
namespace BoardRules

/-- A test of what the event says. -/
inductive PayloadTest where
  | always
  /-- No argument, or one that is the name of the repository. -/
  | repositoryFilter
  | merged
  /-- The first argument is the login of whoever was assigned or unassigned. -/
  | assigneeIs
  | issueAssigneeCount (count : Nat)
  | pullRequestAssigneeCount (count : Nat)
  /-- The first argument is the name or the id of the label. -/
  | labelIs
  deriving DecidableEq, Repr

inductive Matcher where
  | payload (test : PayloadTest)
  | reviewAccepted
  deriving DecidableEq, Repr

def Payload.Label.isCalled (label : Payload.Label) (text : String) : Bool :=
  label.name == text ||
    label.id.any fun id => String.ofList (Text.Decimal.render id) == text

def PayloadTest.holds (test : PayloadTest) (event : Event) (arguments : List String) : Bool :=
  match test with
  | always => true
  | repositoryFilter =>
    arguments.isEmpty || event.repositoryName.any fun name => arguments.contains name
  | merged => event.payload.pullRequest.any fun pullRequest => pullRequest.merged == some true
  | assigneeIs =>
    arguments.head?.any fun login => event.payload.assignee.any fun user => user.login == login
  | issueAssigneeCount count =>
    event.payload.issue.any fun issue => issue.assignees.length == count
  | pullRequestAssigneeCount count =>
    event.payload.pullRequest.any fun pullRequest => pullRequest.assignees.length == count
  | labelIs =>
    arguments.head?.any fun text => event.payload.label.any fun label => label.isCalled text

/-- Whether the reviews of the event's pull request accept it. Without a pull request nothing is
asked. -/
def reviewsAccept (policy : RetryPolicy) (event : Event) : Dialogue (Except TrackingError Bool) :=
  match event.locator with
  | none => return .ok false
  | some locator => do
    let reviews ← Dialogue.read policy (.reviews locator)
    return reviews.map fun reviews => (ReviewSummary.ofReviews reviews).isAccepted

def Matcher.fires (matcher : Matcher) (policy : RetryPolicy) (event : Event)
    (arguments : List String) : Dialogue (Except TrackingError Bool) :=
  match matcher with
  | payload test => return .ok (test.holds event arguments)
  | reviewAccepted => reviewsAccept policy event

end BoardRules
