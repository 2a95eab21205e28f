import BoardRules.Json.Decoder
import BoardRules.Tracking.Error

/-!
# Replies to queries

A reply to a query carries data, errors, or both. Data next to an error may be incomplete and does
not count.
-/
namespace BoardRules.GitHub

open Json Fields

structure Envelope (α : Type) where
  data : Option α
  errors : List String
  deriving DecidableEq, Repr

def errorText : Decoder String := (required "message" string).record

def Envelope.fields (decode : Decoder α) : Fields (Envelope α) :=
  Envelope.mk <$> maybe "data" decode <*> withDefault "errors" (list errorText) []

/-- The data of a reply without errors. -/
def Envelope.content (envelope : Envelope α) : Except TrackingError α :=
  if envelope.errors.isEmpty then
    match envelope.data with
    | some data => .ok data
    | none => .error (.decode "response carried no data")
  else .error (.query ("; ".intercalate envelope.errors))

/-- The reply to a query for one object, absent if there is no such object. -/
def lookUp (name : String) (decode : Decoder α) : Decoder (Option α) := (maybe name decode).record

/-- The entries of a list; some of them may be hidden and show as null. -/
def nodes (decode : Decoder α) : Decoder (List α) :=
  ((·.filterMap id) <$> withDefault "nodes" (list (optional decode)) []).record

end BoardRules.GitHub
