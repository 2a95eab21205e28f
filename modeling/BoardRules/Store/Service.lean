import BoardRules.Store.Basic
import BoardRules.Tracking.Dialogue

/-!
# The store as a tracking service

Reads show boards through the windows of their columns, and long lists only in part. Reads can be
made to fail; changes fail only for reasons of their own, and then change nothing but the number of
the next id.
-/
namespace BoardRules

namespace Store

def maxBoards : Nat := 10

def maxColumns : Nat := 50

def maxMemberships : Nat := 10

def leadingWindow : Nat := 1

def trailingWindow : Nat := 2

/-! ## Views -/

def cardView (s : Store) (id : CardId) : Card := ⟨id, s.cardNote? id, none⟩

def columnView (s : Store) (column : StoredColumn) : Column :=
  { id := column.id
    name := column.name
    url := none
    leading := (column.cards.take leadingWindow).map s.cardView
    trailing := (column.cards.drop (column.cards.length - trailingWindow)).map s.cardView }

def boardView (s : Store) (board : StoredBoard) : Board :=
  ⟨board.id, board.name, (board.columns.take maxColumns).map s.columnView⟩

/-- The first boards with the given scope. -/
def boardsIn (s : Store) (scope : BoardScope) : List Board :=
  ((s.boards.filter fun board => board.scope = scope).take maxBoards).map s.boardView

/-! ## Reads -/

/-- A read fails as long as failures are due. -/
def read (s : Store) (look : Store → Except TrackingError α) : Except TrackingError α × Store :=
  match s.failingReads with
  | 0 => (look s, s)
  | n + 1 => (.error (.transport "injected read failure"), { s with failingReads := n })

def boardsForEntity (url : EntityUrl) (s : Store) : Except TrackingError EntityBoards := do
  let entity ← s.entity url
  let owned := s.boardsIn (.owner url.owner)
  return ⟨entity.id, if owned.isEmpty then none else some owned,
    some (s.boardsIn (.repository url.owner url.repository))⟩

/-- Only issues are linked from their cards. -/
def linkedEntity? (s : Store) (card : CardId) : Option LinkedEntity := do
  let stored ← s.card? card
  let entity ← s.entityById? (← stored.entity)
  if entity.kind = .issue then some ⟨entity.id, entity.key.number, entity.closed⟩ else none

def cardContext (card : CardId) (s : Store) : Except TrackingError CardContext :=
  match s.columnOf? card with
  | none => .error (.notFound card.text)
  | some column => .ok ⟨s.linkedEntity? card, s.columnView column⟩

def isCardOf (s : Store) (entity : EntityId) (card : CardId) : Bool :=
  (s.card? card).any fun stored => stored.entity = some entity

/-- The cards of an entity on one board. -/
def membershipsOn (s : Store) (entity : EntityId) (board : StoredBoard) : List Membership :=
  board.columns.flatMap fun column =>
    (column.cards.filter (s.isCardOf entity)).map fun card =>
      ⟨card, none, some ⟨column.id, column.name⟩, s.boardView board⟩

def cardMemberships (url : EntityUrl) (s : Store) : Except TrackingError EntityMemberships := do
  let entity ← s.entity url
  return ⟨some entity.id,
    some ((s.boards.flatMap (s.membershipsOn entity.id)).take maxMemberships)⟩

def pullRequestBody (url : EntityUrl) (s : Store) : Except TrackingError (Option String) := do
  let entity ← s.entity url
  return entity.body.filter fun body => !body.isEmpty

def reviewsOf (s : Store) (pullRequest : Locator) : List Review :=
  s.reviews.filterMap fun (locator, review) => if locator = pullRequest then some review else none

/-! ## Changes -/

def createCard (s : Store) (column : ColumnId) (content : CardContent) :
    Except TrackingError CardId × Store :=
  match s.makeCard column content.note? content.entity? fun id cards => id :: cards with
  | (.ok id, s) => (.ok id, { s with journal := s.journal ++ [.cardCreated column id content] })
  | (.error error, s) => (.error error, s)

/-- Puts a card right behind the anchor, if the anchor is there. -/
def insertBehind (card anchor : CardId) : List CardId → Option (List CardId)
  | [] => none
  | c :: cards =>
    if c = anchor then some (c :: card :: cards)
    else (insertBehind card anchor cards).map (c :: ·)

def insertAt (card : CardId) : (after : Option CardId) → List CardId → Option (List CardId)
  | none, cards => some (card :: cards)
  | some anchor, cards => insertBehind card anchor cards

/-- Takes a card out of all columns. -/
def removeCard (s : Store) (card : CardId) : Store :=
  { s with
    boards := s.boards.map fun board =>
      { board with
        columns := board.columns.map fun column =>
          { column with cards := column.cards.filter (· ≠ card) } } }

/-- The anchor must be another card of the target column. -/
def moveCard (s : Store) (card : CardId) (column : ColumnId) (after : Option CardId) :
    Except TrackingError Unit × Store :=
  match s.card? card, s.column? column with
  | none, _ => (.error (.notFound card.text), s)
  | some _, none => (.error (.notFound column.text), s)
  | some _, some target =>
    match insertAt card after (target.cards.filter (· ≠ card)) with
    | none =>
      let anchor := (after.map (·.text)).getD ""
      (.error (.query ("card " ++ anchor ++ " is not in column " ++ column.text)), s)
    | some cards =>
      (.ok (), { ((s.removeCard card).updateColumn column fun _ => cards) with
        journal := s.journal ++ [.cardMoved card column after] })

def closeIssue (s : Store) (id : EntityId) : Except TrackingError Unit × Store :=
  match s.entityById? id with
  | none => (.error (.notFound id.text), s)
  | some _ =>
    (.ok (), { s with
      entities := s.entities.map fun entity =>
        if entity.id = id then { entity with closed := true } else entity
      journal := s.journal ++ [.issueClosed id] })

/-- The store answers all calls. -/
def service : Service Store
  | .boardsForEntity url, s => s.read (boardsForEntity url)
  | .cardContext card, s => s.read (cardContext card)
  | .cardMemberships url, s => s.read (cardMemberships url)
  | .pullRequestBody url, s => s.read (pullRequestBody url)
  | .reviews pullRequest, s => s.read fun s => .ok (s.reviewsOf pullRequest)
  | .createCard column content, s => s.createCard column content
  | .moveCard card column after, s => s.moveCard card column after
  | .closeIssue entity, s => s.closeIssue entity

end Store

end BoardRules
