import BoardRules.Board.Basic
import BoardRules.Entity.Url
import BoardRules.Review
import BoardRules.Text.Decimal
import BoardRules.Tracking.Error

/-!
# The store

Boards, cards, entities and reviews held in memory. Every new thing gets the next number in its id,
whatever kind of thing it is. All changes to cards and issues that a service can be asked for are
kept in a journal.
-/
namespace BoardRules

/-- Who owns a board: everybody with repositories under that login sees it, or one repository. -/
inductive BoardScope where
  | owner (login : String)
  | repository (owner repository : String)
  deriving DecidableEq, Repr

structure StoredColumn where
  id : ColumnId
  name : String
  /-- From top to bottom. -/
  cards : List CardId
  deriving DecidableEq, Repr

structure StoredBoard where
  id : BoardId
  name : String
  scope : BoardScope
  columns : List StoredColumn
  deriving DecidableEq, Repr

structure StoredCard where
  id : CardId
  note : Option String
  /-- The entity that the card stands for. -/
  entity : Option EntityId
  deriving DecidableEq, Repr

/-- Issues and pull requests of a repository share one sequence of numbers. -/
structure EntityKey where
  owner : String
  repository : String
  number : Nat
  deriving DecidableEq, Repr

def EntityUrl.entityKey (url : EntityUrl) : EntityKey := ⟨url.owner, url.repository, url.number⟩

structure StoredEntity where
  key : EntityKey
  id : EntityId
  kind : EntityKind
  closed : Bool
  body : Option String
  deriving DecidableEq, Repr

inductive Mutation where
  | cardCreated (column : ColumnId) (card : CardId) (content : CardContent)
  | cardMoved (card : CardId) (column : ColumnId) (after : Option CardId)
  | issueClosed (entity : EntityId)
  deriving DecidableEq, Repr

structure Store where
  boards : List StoredBoard
  cards : List StoredCard
  entities : List StoredEntity
  reviews : List (Locator × Review)
  journal : List Mutation
  /-- How many of the next reads fail. -/
  failingReads : Nat
  /-- The number in the latest id. -/
  lastId : Nat
  deriving DecidableEq, Repr

def CardContent.note? : CardContent → Option String
  | .note text => some text
  | .entity _ => none

def CardContent.entity? : CardContent → Option EntityId
  | .note _ => none
  | .entity id => some id

namespace Store

def empty : Store := ⟨[], [], [], [], [], 0, 0⟩

/-! ## Looking things up -/

def columns (s : Store) : List StoredColumn := s.boards.flatMap (·.columns)

def column? (s : Store) (id : ColumnId) : Option StoredColumn :=
  s.columns.find? fun column => column.id = id

def card? (s : Store) (id : CardId) : Option StoredCard :=
  s.cards.find? fun card => card.id = id

def entity? (s : Store) (url : EntityUrl) : Option StoredEntity :=
  s.entities.find? fun entity => entity.key = url.entityKey

def entityById? (s : Store) (id : EntityId) : Option StoredEntity :=
  s.entities.find? fun entity => entity.id = id

/-- The column that holds a card. -/
def columnOf? (s : Store) (card : CardId) : Option StoredColumn :=
  s.columns.find? fun column => card ∈ column.cards

def entity (s : Store) (url : EntityUrl) : Except TrackingError StoredEntity :=
  match s.entity? url with
  | some entity => .ok entity
  | none => .error (.notFound url.render)

def columnCards (s : Store) (id : ColumnId) : Except TrackingError (List CardId) :=
  match s.column? id with
  | some column => .ok column.cards
  | none => .error (.notFound id.text)

def cardNote? (s : Store) (id : CardId) : Option String :=
  (s.card? id).bind fun card => card.note

def isClosed (s : Store) (url : EntityUrl) : Except TrackingError Bool :=
  (s.entity url).map (·.closed)

/-! ## Setting up -/

/-- An id that has not been given out before. -/
def nextId (s : Store) (kind : String) : String :=
  kind ++ "-" ++ String.ofList (Text.Decimal.render (s.lastId + 1))

def countId (s : Store) : Store := { s with lastId := s.lastId + 1 }

def addBoard (s : Store) (scope : BoardScope) (name : String) : BoardId × Store :=
  let id : BoardId := ⟨s.nextId "board"⟩
  (id, { s.countId with boards := s.boards ++ [⟨id, name, scope, []⟩] })

/-- An unknown board still uses up an id. -/
def addColumn (s : Store) (board : BoardId) (name : String) :
    Except TrackingError ColumnId × Store :=
  let id : ColumnId := ⟨s.nextId "column"⟩
  if s.boards.any fun stored => stored.id = board then
    (.ok id, { s.countId with
      boards := s.boards.map fun stored =>
        if stored.id = board then { stored with columns := stored.columns ++ [⟨id, name, []⟩] }
        else stored })
  else (.error (.notFound board.text), s.countId)

/-- An entity that is added again is open, without a body, and has a new id. -/
def addEntity (s : Store) (url : EntityUrl) : EntityId × Store :=
  let id : EntityId := ⟨s.nextId "entity"⟩
  (id, { s.countId with
    entities := s.entities.filter (fun entity => entity.key ≠ url.entityKey) ++
      [⟨url.entityKey, id, url.kind, false, none⟩] })

def setBody (s : Store) (url : EntityUrl) (body : String) : Except TrackingError Unit × Store :=
  match s.entity url with
  | .error error => (.error error, s)
  | .ok _ =>
    (.ok (), { s with
      entities := s.entities.map fun entity =>
        if entity.key = url.entityKey then { entity with body := some body } else entity })

/-- Changes the cards of one column. -/
def updateColumn (s : Store) (id : ColumnId) (change : List CardId → List CardId) : Store :=
  { s with
    boards := s.boards.map fun board =>
      { board with
        columns := board.columns.map fun column =>
          if column.id = id then { column with cards := change column.cards } else column } }

/-- Makes a card and puts it into a column. An unknown column still uses up an id. -/
def makeCard (s : Store) (column : ColumnId) (note : Option String) (entity : Option EntityId)
    (insert : CardId → List CardId → List CardId) : Except TrackingError CardId × Store :=
  let id : CardId := ⟨s.nextId "card"⟩
  match s.column? column with
  | none => (.error (.notFound column.text), s.countId)
  | some _ =>
    (.ok id, { (s.countId.updateColumn column (insert id)) with
      cards := s.cards ++ [⟨id, note, entity⟩] })

/-- A new card at the bottom of a column. -/
def appendCard (s : Store) (column : ColumnId) (content : CardContent) :
    Except TrackingError CardId × Store :=
  s.makeCard column content.note? content.entity? fun id cards => cards ++ [id]

def addReview (s : Store) (pullRequest : Locator) (review : Review) : Store :=
  { s with reviews := s.reviews ++ [(pullRequest, review)] }

def failNextReads (s : Store) (count : Nat) : Store := { s with failingReads := count }

end Store

end BoardRules
