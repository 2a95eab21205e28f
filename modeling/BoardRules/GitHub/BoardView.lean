import BoardRules.Board.Basic
import BoardRules.Event.Payload
import BoardRules.GitHub.Envelope
import BoardRules.Review

/-!
# Views in replies

The forms in which replies list boards, columns and cards. The type of an object is not checked: an
object of another type lacks the fields that were asked for.
-/
namespace BoardRules.GitHub

open Json Fields Payload

def card : Decoder Card :=
  ((fun id note url => ⟨⟨id⟩, note, url⟩) <$> required "id" string <*> possible "note" string <*>
    possible "url" string : Fields Card).record

def column : Decoder Column :=
  ((fun id name url leading trailing => ⟨⟨id⟩, name, url, leading, trailing⟩) <$>
    required "id" string <*> withDefault "name" string "" <*> possible "url" string <*>
    withDefault "firstCards" (nodes card) [] <*> withDefault "lastCards" (nodes card) [] :
    Fields Column).record

def board : Decoder Board :=
  ((fun id name columns => ⟨⟨id⟩, name, columns⟩) <$> required "id" string <*>
    withDefault "name" string "" <*> withDefault "columns" (nodes column) [] : Fields Board).record

/-- The boards of an owner or a repository, absent if it cannot have any. -/
def projects : Fields (Option (List Board)) := possible "projects" (nodes board)

/-! ## Boards of an issue -/

/-- Boards of the repository's owner and of the repository itself. -/
structure RepositoryBoards where
  ownerBoards : Option (List Board)
  boards : Option (List Board)
  deriving DecidableEq, Repr

def repository : Decoder RepositoryBoards :=
  (RepositoryBoards.mk <$> withDefault "owner" projects.record none <*> projects).record

structure IssueBoards where
  id : Option EntityId
  repository : Option RepositoryBoards
  deriving DecidableEq, Repr

def issueBoards : Decoder IssueBoards :=
  ((fun id repository => ⟨id.map EntityId.mk, repository⟩) <$> possible "id" string <*>
    possible "repository" repository : Fields IssueBoards).record

/-- What is not an issue has no boards. -/
def IssueBoards.entityBoards (issue : IssueBoards) (url : String) :
    Except TrackingError EntityBoards :=
  match issue.id, issue.repository with
  | some id, some repository => .ok ⟨id, repository.ownerBoards, repository.boards⟩
  | _, _ => .error (.notFound url)

/-! ## Cards of an issue -/

def columnRef : Decoder ColumnRef :=
  ((fun id name => ⟨⟨id⟩, name⟩) <$> required "id" string <*> required "name" string :
    Fields ColumnRef).record

def membership : Decoder Membership :=
  ((fun id url column board => ⟨⟨id⟩, url, column, board⟩) <$> required "id" string <*>
    possible "url" string <*> possible "column" columnRef <*> required "project" board :
    Fields Membership).record

def memberships : Decoder EntityMemberships :=
  ((fun id cards => ⟨id.map EntityId.mk, cards⟩) <$> possible "id" string <*>
    possible "projectCards" (nodes membership) : Fields EntityMemberships).record

/-! ## The place of a card -/

/-- What a card stands for; only an issue has an id here. -/
def linkedEntity : Decoder (Option LinkedEntity) :=
  ((fun id closed number => id.map fun id => ⟨⟨id⟩, number, closed⟩) <$> possible "id" string <*>
    withDefault "closed" bool false <*> withDefault "number" word 0 :
    Fields (Option LinkedEntity)).record

structure CardPlace where
  content : Option LinkedEntity
  column : Option Column
  deriving DecidableEq, Repr

def cardPlace : Decoder CardPlace :=
  ((fun content column => ⟨content.join, column⟩) <$> possible "content" linkedEntity <*>
    possible "column" column : Fields CardPlace).record

/-- A card that lies in no column is not on a board. -/
def CardPlace.context (place : CardPlace) (card : CardId) : Except TrackingError CardContext :=
  match place.column with
  | some column => .ok ⟨place.content, column⟩
  | none => .error (.notFound card.text)

/-! ## Other replies -/

/-- The description of a pull request. -/
def description : Decoder (Option String) := (possible "body" string).record

/-- The id of a card that has been added. -/
def addedCard : Decoder CardId :=
  (CardId.mk <$> required "addProjectCard"
    (required "cardEdge" (required "node" (required "id" string).record).record).record).record

/-- A review of a listing, absent if its state means nothing here. -/
def review : Decoder (Option Review) :=
  ((fun state user => (ReviewState.parse? state).map fun state => ⟨state, user.map (·.login)⟩) <$>
    required "state" string <*> possible "user" Payload.User.fields.record :
    Fields (Option Review)).record

end BoardRules.GitHub
