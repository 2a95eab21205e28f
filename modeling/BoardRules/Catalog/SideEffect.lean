import BoardRules.Catalog.CompanionNote
import BoardRules.Tracking.Dialogue

/-!
# Side effects

What a rule changes apart from moving cards: it closes the issue of a moved card, or it adds a card
with a companion note to a column.
-/
namespace BoardRules

inductive SideEffect where
  | closeIssue
  /-- The first argument names the column, the others are the repositories of the note. -/
  | addCloseIssueRule
  deriving DecidableEq, Repr

inductive EffectSubject where
  /-- The entity of a moved card; note cards have none. -/
  | linked (entity : Option LinkedEntity)
  | memberships (memberships : List Membership)
  deriving DecidableEq, Repr

/-- A new card and the card that was the last of its column before. -/
structure Placement where
  column : ColumnId
  card : CardId
  anchor : Option CardId
  deriving DecidableEq, Repr

inductive EffectOutcome where
  | issueClosed (entity : EntityId)
  | companionCardAdded (placement : Placement)
  deriving DecidableEq, Repr

/-- An issue that is closed already stays as it is. -/
def closeLinkedIssue : Option LinkedEntity → Dialogue (Except TrackingError (Option EffectOutcome))
  | none => return .ok none
  | some issue =>
    if issue.closed then return .ok none
    else do
      let answer ← Dialogue.call (.closeIssue issue.id)
      return answer.map fun _ => some (.issueClosed issue.id)

/-- The column of that name on the first board that has one without the note. -/
def columnForNote? (memberships : List Membership) (name note : String) : Option Column :=
  memberships.findSome? fun membership =>
    match membership.board.columnNamed? name with
    | none => none
    | some column =>
      if column.window.any fun card => card.note == some note then none else some column

def addCompanionCard (memberships : List Membership) :
    List String → Dialogue (Except TrackingError (Option EffectOutcome))
  | [] => return .ok none
  | name :: repositories =>
    let note := companionNote repositories
    match columnForNote? memberships name note with
    | none => return .ok none
    | some column => do
      let answer ← Dialogue.call (.createCard column.id (.note note))
      return answer.map fun card =>
        some (.companionCardAdded ⟨column.id, card, column.lastCard?.map (·.id)⟩)

/-- Nothing happens if the effect is not meant for the subject. -/
def SideEffect.apply (effect : SideEffect) (subject : EffectSubject) (arguments : List String) :
    Dialogue (Except TrackingError (Option EffectOutcome)) :=
  match effect, subject with
  | closeIssue, .linked entity => closeLinkedIssue entity
  | addCloseIssueRule, .memberships memberships => addCompanionCard memberships arguments
  | closeIssue, .memberships _ => return .ok none
  | addCloseIssueRule, .linked _ => return .ok none

end BoardRules
