import BoardRules.Json.Decoder
import BoardRules.Text.Blank

/-!
# Reviews

A pull request is accepted if somebody approved it and nobody asked for changes or has a review
pending.
-/
namespace BoardRules

inductive ReviewState where
  | approved
  | changesRequested
  | pending
  | commented
  | dismissed
  deriving DecidableEq, Repr

structure Review where
  state : ReviewState
  author : Option String
  deriving DecidableEq, Repr

namespace ReviewState

def name : ReviewState → String
  | approved => "APPROVED"
  | changesRequested => "CHANGES_REQUESTED"
  | pending => "PENDING"
  | commented => "COMMENTED"
  | dismissed => "DISMISSED"

/-- The state of a name in capitals. A request for changes has two names. -/
def ofName? : String → Option ReviewState
  | "APPROVED" => some approved
  | "CHANGES_REQUESTED" => some changesRequested
  | "REQUEST_CHANGES" => some changesRequested
  | "PENDING" => some pending
  | "COMMENTED" => some commented
  | "DISMISSED" => some dismissed
  | _ => none

/-- Blanks around the name and the case of ASCII letters do not count. -/
def parse? (text : String) : Option ReviewState :=
  ofName? (String.ofList ((Text.trim text.toList).map Char.toUpper))

end ReviewState

structure ReviewSummary where
  approved : Nat
  changesRequested : Nat
  pending : Nat
  deriving DecidableEq, Repr

namespace ReviewSummary

def empty : ReviewSummary := ⟨0, 0, 0⟩

def add (summary : ReviewSummary) : ReviewState → ReviewSummary
  | .approved => { summary with approved := summary.approved + 1 }
  | .changesRequested => { summary with changesRequested := summary.changesRequested + 1 }
  | .pending => { summary with pending := summary.pending + 1 }
  | .commented => summary
  | .dismissed => summary

def ofReviews (reviews : List Review) : ReviewSummary :=
  reviews.foldl (fun summary review => summary.add review.state) empty

def isAccepted (summary : ReviewSummary) : Bool :=
  1 ≤ summary.approved && summary.changesRequested == 0 && summary.pending == 0

end ReviewSummary

end BoardRules
