import BoardRules.GitHub.BoardView
import BoardRules.Http
import BoardRules.Json.Value
import BoardRules.Text.Decimal
import BoardRules.Tracking.Dialogue

/-!
# Meaning of replies

What the response to the request for a call says about the call. Only a response that shows success
in every respect is one: its status, its form, its list of errors and its data.
-/
namespace BoardRules.GitHub

open Json Text

/-- What a decoder makes of the body of a response. -/
def content (decode : Decoder α) (response : Response) : Except TrackingError α :=
  if response.isFailure then
    .error (.transport ("status " ++ String.ofList (Decimal.render response.status)))
  else
    ((Document.ofBytes response.body).decode decode).mapError fun reason => .decode reason.message

/-- The data of a reply to a query. -/
def data (decode : Decoder α) (response : Response) : Except TrackingError α := do
  (← content (Envelope.fields decode).record response).content

/-- An object that was asked for by name. -/
def existing (name : String) : Option α → Except TrackingError α
  | some object => .ok object
  | none => .error (.notFound name)

/-- A value inside of an envelope. -/
def anything : Decoder Value := value (maxNesting - 1)

def added (response : Response) : Except TrackingError CardId := data addedCard response

/-- A reply whose data tells nothing else than that the call has been carried out. -/
def acknowledged (response : Response) : Except TrackingError Unit := do
  let _ ← data anything response
  return ()

/-- An empty description is none. -/
def answer : (call : Call) → Response → call.Result
  | .boardsForEntity url, response => do
    let issue ← existing url.render (← data (lookUp "resource" issueBoards) response)
    issue.entityBoards url.render
  | .cardContext card, response => do
    let place ← existing card.text (← data (lookUp "node" cardPlace) response)
    place.context card
  | .cardMemberships url, response => do
    existing url.render (← data (lookUp "resource" memberships) response)
  | .pullRequestBody url, response => do
    let text ← existing url.render (← data (lookUp "resource" description) response)
    return text.filter fun text => !text.isEmpty
  | .reviews _, response => do return (← content (list review) response).filterMap id
  | .createCard _ _, response => added response
  | .moveCard _ _ _, response => acknowledged response
  | .closeIssue _, response => acknowledged response

end BoardRules.GitHub
