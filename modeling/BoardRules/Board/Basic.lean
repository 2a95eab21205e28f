import BoardRules.Note.Declaration

/-!
# Boards

What can be seen of the boards: every column shows its first card and its last two. Nothing of
this is kept from one event to the next.
-/
namespace BoardRules

structure BoardId where
  text : String
  deriving DecidableEq, Repr

structure ColumnId where
  text : String
  deriving DecidableEq, Repr

structure CardId where
  text : String
  deriving DecidableEq, Repr

/-- Names an issue or a pull request. -/
structure EntityId where
  text : String
  deriving DecidableEq, Repr

structure Card where
  id : CardId
  /-- Cards of entities have none. -/
  note : Option String
  url : Option String
  deriving DecidableEq, Repr

structure ColumnRef where
  id : ColumnId
  name : String
  deriving DecidableEq, Repr

/-- A column seen through its two windows. In a short column a card can lie in both. -/
structure Column where
  id : ColumnId
  name : String
  url : Option String
  leading : List Card
  trailing : List Card
  deriving DecidableEq, Repr

structure Board where
  id : BoardId
  name : String
  columns : List Column
  deriving DecidableEq, Repr

/-- The card of an entity on a board. -/
structure Membership where
  card : CardId
  url : Option String
  /-- Absent while the card waits to be sorted in. -/
  column : Option ColumnRef
  board : Board
  deriving DecidableEq, Repr

/-- The open boards on which an entity can get a card. -/
structure EntityBoards where
  entity : EntityId
  /-- Absent if the owner is a user. -/
  ownerBoards : Option (List Board)
  repositoryBoards : Option (List Board)
  deriving DecidableEq, Repr

structure EntityMemberships where
  /-- Absent if the URL names no issue. -/
  entity : Option EntityId
  cards : Option (List Membership)
  deriving DecidableEq, Repr

/-- The issue that a card stands for. -/
structure LinkedEntity where
  id : EntityId
  number : Nat
  closed : Bool
  deriving DecidableEq, Repr

structure CardContext where
  content : Option LinkedEntity
  column : Column
  deriving DecidableEq, Repr

/-- What a new card holds. -/
inductive CardContent where
  | entity (id : EntityId)
  | note (text : String)
  deriving DecidableEq, Repr

namespace Column

def reference (column : Column) : ColumnRef := ⟨column.id, column.name⟩

def lastCard? (column : Column) : Option Card := column.trailing.getLast?

/-- The card after which a card of this column goes back to the bottom. A single visible card needs
none. -/
def anchor? (column : Column) : Option CardId :=
  if 1 < column.trailing.length then column.lastCard?.map (·.id) else none

/-- Both windows, the leading one first. -/
def window (column : Column) : List Card := column.leading ++ column.trailing

end Column

def Board.columnNamed? (board : Board) (name : String) : Option Column :=
  board.columns.find? fun column => column.name == name

/-- The owner's boards before those of the repository. -/
def EntityBoards.boards (found : EntityBoards) : List Board :=
  found.ownerBoards.getD [] ++ found.repositoryBoards.getD []

end BoardRules
