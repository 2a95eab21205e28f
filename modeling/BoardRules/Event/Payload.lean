import BoardRules.Json.Decoder

/-!
# Event payloads

The fields that rules read from the body of a delivery. Everything else in it is passed over.
-/
namespace BoardRules

namespace Payload

structure User where
  login : String
  deriving DecidableEq, Repr

structure Issue where
  htmlUrl : String
  number : Nat
  /-- Who is assigned after the event. -/
  assignees : List User
  deriving DecidableEq, Repr

structure PullRequest where
  htmlUrl : String
  number : Nat
  /-- Unknown in events about reviews. -/
  merged : Option Bool
  assignees : List User
  deriving DecidableEq, Repr

structure ProjectCard where
  nodeId : String
  deriving DecidableEq, Repr

structure Label where
  name : String
  id : Option Nat
  deriving DecidableEq, Repr

structure Repository where
  name : String
  owner : Option User
  deriving DecidableEq, Repr

end Payload

structure Payload where
  action : Option String
  issue : Option Payload.Issue
  pullRequest : Option Payload.PullRequest
  projectCard : Option Payload.ProjectCard
  label : Option Payload.Label
  /-- Who was assigned or unassigned. -/
  assignee : Option Payload.User
  repository : Option Payload.Repository
  deriving DecidableEq, Repr

namespace Payload

open Json Fields

def User.fields : Fields User := User.mk <$> required "login" string

/-- A field that may be null or left out. -/
def possible (name : String) (decode : Decoder α) : Fields (Option α) :=
  withDefault name (optional decode) none

def assigneesField : Fields (List User) :=
  withDefault "assignees" (list User.fields.record) []

def Issue.fields : Fields Issue :=
  Issue.mk <$> required "html_url" string <*> required "number" word <*> assigneesField

def PullRequest.fields : Fields PullRequest :=
  PullRequest.mk <$> required "html_url" string <*> required "number" word <*>
    possible "merged" bool <*> assigneesField

def ProjectCard.fields : Fields ProjectCard := ProjectCard.mk <$> required "node_id" string

def Label.fields : Fields Label := Label.mk <$> required "name" string <*> possible "id" word

def Repository.fields : Fields Repository :=
  Repository.mk <$> required "name" string <*> possible "owner" User.fields.record

def fields : Fields Payload :=
  Payload.mk <$> possible "action" string <*> possible "issue" Issue.fields.record <*>
    possible "pull_request" PullRequest.fields.record <*>
    possible "project_card" ProjectCard.fields.record <*> possible "label" Label.fields.record <*>
    possible "assignee" User.fields.record <*> possible "repository" Repository.fields.record

end Payload

end BoardRules
