import BoardRules.Entity.Url
import BoardRules.Event.Payload
import BoardRules.Event.Trigger

/-!
# Events

An event is a trigger with the payload it came with.
-/
namespace BoardRules

open Json

structure Event where
  trigger : Trigger
  payload : Payload
  deriving DecidableEq, Repr

/-- What an event is about. -/
inductive Subject where
  | issue (issue : Payload.Issue)
  | projectCard (card : Payload.ProjectCard)
  | pullRequest (pullRequest : Payload.PullRequest)
  | unknown
  deriving DecidableEq, Repr

namespace Event

/-- Decodes the body of a delivery under the given event name. The body is judged before the
action in it. -/
def decode (name : String) (body : List UInt8) : Except InputError Event :=
  match (Document.ofBytes body).decode Payload.fields.record with
  | .error reason => .error (.malformedPayload name reason)
  | .ok payload => do return ⟨← Trigger.ofParts name (payload.action.getD ""), payload⟩

/-- An issue comes before a card, and a card before a pull request. -/
def subject (event : Event) : Subject :=
  match event.payload.issue, event.payload.projectCard, event.payload.pullRequest with
  | some issue, _, _ => .issue issue
  | none, some card, _ => .projectCard card
  | none, none, some pullRequest => .pullRequest pullRequest
  | none, none, none => .unknown

def repositoryName (event : Event) : Option String :=
  event.payload.repository.map (·.name)

/-- Where the reviews of the event's pull request are found: by the repository in the payload if
its owner is known, by the URL of the pull request otherwise. -/
def locator (event : Event) : Option Locator :=
  event.payload.pullRequest.bind fun pullRequest =>
    match event.payload.repository.bind (fun repository =>
        repository.owner.map fun owner => (owner.login, repository.name)) with
    | some (owner, repository) => some ⟨owner, repository, pullRequest.number⟩
    | none => (EntityUrl.ofText? pullRequest.htmlUrl.toList).map EntityUrl.locator

end Event

end BoardRules
