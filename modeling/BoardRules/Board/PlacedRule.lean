import BoardRules.Board.Basic

/-!
# Placed rules

A rule takes effect in the column whose card declares it. A card that is seen more than once, in
both windows or on several boards, counts where it is seen first.
-/
namespace BoardRules

structure PlacedRule where
  declaration : Declaration
  column : ColumnRef
  /-- The card that declares the rule. -/
  card : CardId
  /-- The card after which the rule's card goes back to the bottom of the column. -/
  anchor : Option CardId
  deriving DecidableEq, Repr

namespace PlacedRule

/-- The rules that a card declares in a column. -/
def ofCard (column : Column) (card : Card) : List PlacedRule :=
  match card.note with
  | none => []
  | some note =>
    (Note.rules note).map fun declaration =>
      { declaration
        column := column.reference
        card := card.id
        anchor := column.anchor?.filter (· ≠ card.id) }

/-- The cards not seen before, each at its first place, with all that have been seen by then. -/
def firstSeen (seen : List CardId) : List Card → List Card × List CardId
  | [] => ([], seen)
  | card :: rest =>
    if card.id ∈ seen then firstSeen seen rest
    else
      let (cards, seen) := firstSeen (card.id :: seen) rest
      (card :: cards, seen)

/-- The rules of columns that come after the cards in `seen`. -/
def ofColumns (seen : List CardId) : List Column → List PlacedRule
  | [] => []
  | column :: rest =>
    let (cards, seen) := firstSeen seen column.window
    cards.flatMap (ofCard column) ++ ofColumns seen rest

/-- All rules of the boards, by board, column and card. -/
def ofBoards (boards : List Board) : List PlacedRule :=
  ofColumns [] (boards.flatMap (·.columns))

def ofColumn (column : Column) : List PlacedRule := ofColumns [] [column]

/-- The rules with the given name. -/
def named (name : String) (rules : List PlacedRule) : List PlacedRule :=
  rules.filter fun rule => rule.declaration.name == name

end PlacedRule

end BoardRules
