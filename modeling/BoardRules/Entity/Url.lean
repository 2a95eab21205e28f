import BoardRules.InputError
import BoardRules.Text.Decimal
import BoardRules.Text.Pieces

/-!
# Entity URLs

Issues and pull requests are known by their browser URL,
`scheme://host/owner/repository/kind/number`. Boards know issues only, so every pull request has an
issue URL as well.
-/
namespace BoardRules

open Text

inductive Scheme where
  | http
  | https
  deriving DecidableEq, Repr

inductive EntityKind where
  | issue
  | pullRequest
  deriving DecidableEq, Repr

structure EntityUrl where
  scheme : Scheme
  host : String
  owner : String
  repository : String
  kind : EntityKind
  number : Nat
  deriving DecidableEq, Repr

/-- A pull request within its repository. -/
structure Locator where
  owner : String
  repository : String
  number : Nat
  deriving DecidableEq, Repr

def Scheme.name : Scheme → String
  | .http => "http"
  | .https => "https"

def Scheme.ofName? (name : List Char) : Option Scheme :=
  [Scheme.https, .http].find? fun scheme => scheme.name.toList == name

/-- The path segment of a kind. -/
def EntityKind.segment : EntityKind → String
  | .issue => "issues"
  | .pullRequest => "pull"

def EntityKind.ofSegment? (segment : List Char) : Option EntityKind :=
  [EntityKind.issue, .pullRequest].find? fun kind => kind.segment.toList == segment

/-- A positive number of 64 bits. -/
def positive? (cs : List Char) : Option Nat :=
  (Decimal.word? cs).filter (0 < ·)

namespace EntityUrl

def schemeMark : List Char := [':', '/', '/']

/-- The URL in the given path of five segments. -/
def ofSegments? (scheme : Scheme) : List (List Char) → Option EntityUrl
  | [host, owner, repository, kind, number] =>
    if host.isEmpty || owner.isEmpty || repository.isEmpty then none
    else do
      let kind ← EntityKind.ofSegment? kind
      let number ← positive? number
      some ⟨scheme, String.ofList host, String.ofList owner, String.ofList repository, kind, number⟩
  | _ => none

/-- Blanks around the text and slashes at its end do not count. -/
def ofText? (text : List Char) : Option EntityUrl := do
  let (scheme, path) ← cutAt? schemeMark (dropEndWhile (· == '/') (trim text))
  ofSegments? (← Scheme.ofName? scheme) (pieces (· == '/') path)

def parse (text : String) : Except InputError EntityUrl :=
  match ofText? text.toList with
  | some url => .ok url
  | none => .error (.invalidEntityUrl text)

def render (url : EntityUrl) : String :=
  url.scheme.name ++ "://" ++ url.host ++ "/" ++ url.owner ++ "/" ++ url.repository ++ "/" ++
    url.kind.segment ++ "/" ++ String.ofList (Decimal.render url.number)

/-- The issue of the same number. -/
def toIssue (url : EntityUrl) : EntityUrl := { url with kind := .issue }

/-- An issue on the same host. -/
def siblingIssue (url : EntityUrl) (owner repository : String) (number : Nat) : EntityUrl :=
  { url with owner, repository, kind := .issue, number }

def locator (url : EntityUrl) : Locator := ⟨url.owner, url.repository, url.number⟩

end EntityUrl

end BoardRules
