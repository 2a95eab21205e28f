import BoardRules.Board.Basic
import BoardRules.Entity.Url
import BoardRules.Review
import BoardRules.Tracking.Error

/-!
# Dialogues with the tracking service

All that is known of the boards comes from a tracking service, and all changes go through it. A
dialogue is a computation that may call it: it is over, or it makes one call and goes on with the
answer. A service is anything that answers calls and changes its own state by that.
-/
namespace BoardRules

inductive Call where
  | boardsForEntity (url : EntityUrl)
  | cardContext (card : CardId)
  | cardMemberships (url : EntityUrl)
  /-- The description of a pull request; absent if it is empty. -/
  | pullRequestBody (url : EntityUrl)
  | reviews (pullRequest : Locator)
  /-- A new card at the top of a column. -/
  | createCard (column : ColumnId) (content : CardContent)
  /-- Moves a card behind another one, or else to the top of the column. -/
  | moveCard (card : CardId) (column : ColumnId) (after : Option CardId)
  | closeIssue (entity : EntityId)
  deriving DecidableEq, Repr

namespace Call

/-- What the answer to a call holds when it succeeds. -/
abbrev Answer : Call → Type
  | boardsForEntity _ => EntityBoards
  | cardContext _ => CardContext
  | cardMemberships _ => EntityMemberships
  | pullRequestBody _ => Option String
  | reviews _ => List Review
  | createCard _ _ => CardId
  | moveCard _ _ _ => Unit
  | closeIssue _ => Unit

/-- Reads change nothing and may be repeated. -/
def isRead : Call → Bool
  | boardsForEntity _ => true
  | cardContext _ => true
  | cardMemberships _ => true
  | pullRequestBody _ => true
  | reviews _ => true
  | createCard _ _ => false
  | moveCard _ _ _ => false
  | closeIssue _ => false

abbrev Result (call : Call) : Type := Except TrackingError call.Answer

end Call

/-- A service with states in `σ`. -/
abbrev Service (σ : Type) : Type := (call : Call) → σ → call.Result × σ

inductive Dialogue (α : Type) : Type where
  | done (value : α)
  | ask (call : Call) (next : call.Result → Dialogue α)

namespace Dialogue

/-- The dialogue of a single call. -/
def call (call : Call) : Dialogue call.Result := .ask call .done

def bind : Dialogue α → (α → Dialogue β) → Dialogue β
  | done value, f => f value
  | ask call next, f => ask call fun answer => (next answer).bind f

instance : Monad Dialogue where
  pure := done
  bind := bind

/-- Holds the dialogue with a service that is in the given state. -/
def run (service : Service σ) : Dialogue α → σ → α × σ
  | done value, s => (value, s)
  | ask call next, s =>
    let (answer, s) := service call s
    (next answer).run service s

@[simp] theorem run_pure (service : Service σ) (value : α) (s : σ) :
    (pure value : Dialogue α).run service s = (value, s) := rfl

theorem run_bind (service : Service σ) (f : α → Dialogue β) (d : Dialogue α) (s : σ) :
    (d >>= f).run service s = (f (d.run service s).1).run service (d.run service s).2 := by
  induction d generalizing s with
  | done value => rfl
  | ask call next ih => exact ih _ _

end Dialogue

/-- A call together with its answer. -/
structure Exchange where
  call : Call
  answer : call.Result

/-- The same service, which also keeps a record of all exchanges. -/
def Service.recorded (service : Service σ) : Service (σ × List Exchange) :=
  fun call (s, record) =>
    let (answer, s) := service call s
    (answer, s, record ++ [⟨call, answer⟩])

end BoardRules
