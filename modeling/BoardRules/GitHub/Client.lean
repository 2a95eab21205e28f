import BoardRules.GitHub.Query
import BoardRules.GitHub.Reply
import BoardRules.Json.Printer
import BoardRules.Text.Blank

/-!
# The client

A tracking service behind a network. Every call is one request: reviews are listed under a path of
their own, everything else is a query.
-/
namespace BoardRules.GitHub

open Json Text

/-- Where the service is found, and what it knows the client by. -/
structure Client where
  graphqlUrl : String
  apiUrl : String
  token : String
  deriving DecidableEq, Repr

/-- Sends requests, with a state in `σ`, or tells why there is no response. -/
abbrev Transport (σ : Type) : Type := Request → σ → Except String Response × σ

namespace Client

def userAgent : String := "boardwright/0.1.0"

/-- One page is as long as the service allows; further pages are not asked for. -/
def reviewsPerPage : Nat := 100

def baseHeaders (client : Client) : Headers :=
  [("authorization", "Bearer " ++ client.token), ("user-agent", userAgent)]

def optionalText : Option String → Value
  | some text => .string text
  | none => .null

/-- A query and the values of its parameters. -/
def post (client : Client) (query : String) (values : List (String × Value)) : Request :=
  let document : Value := .object [("query", .string query), ("variables", .object values)]
  { method := "POST"
    target := client.graphqlUrl
    headers := client.baseHeaders ++ [("accept", "*/*"), ("content-type", "application/json")]
    body := Utf8.encode document.write }

def decimal (n : Nat) : String := String.ofList (Decimal.render n)

def reviewsUrl (client : Client) (pullRequest : Locator) : String :=
  String.ofList (dropEndWhile (· == '/') client.apiUrl.toList) ++ "/repos/" ++ pullRequest.owner ++
    "/" ++ pullRequest.repository ++ "/pulls/" ++ decimal pullRequest.number ++
    "/reviews?per_page=" ++ decimal reviewsPerPage

def request (client : Client) : Call → Request
  | .boardsForEntity url => client.post Query.entityBoards [("url", .string url.render)]
  | .cardContext card => client.post Query.cardContext [("cardId", .string card.text)]
  | .cardMemberships url => client.post Query.cardMemberships [("url", .string url.render)]
  | .pullRequestBody url => client.post Query.pullRequestBody [("url", .string url.render)]
  | .reviews pullRequest =>
    { method := "GET"
      target := client.reviewsUrl pullRequest
      headers := client.baseHeaders ++ [("accept", "application/vnd.github+json")]
      body := [] }
  | .createCard column (.entity id) =>
    client.post Query.addContentCard
      [("contentId", .string id.text), ("columnId", .string column.text)]
  | .createCard column (.note text) =>
    client.post Query.addNoteCard [("note", .string text), ("columnId", .string column.text)]
  | .moveCard card column after =>
    client.post Query.moveCard
      [("cardId", .string card.text), ("columnId", .string column.text),
        ("afterId", optionalText (after.map (·.text)))]
  | .closeIssue entity => client.post Query.closeIssue [("issueId", .string entity.text)]

def service (client : Client) (transport : Transport σ) : Service σ := fun call s =>
  match transport (client.request call) s with
  | (.ok response, s) => (answer call response, s)
  | (.error cause, s) => (.error (.transport cause), s)

end Client

end BoardRules.GitHub
