import BoardRules.InputError

/-!
# Rejected deliveries

Why a delivery is rejected, and the HTTP status that says so.
-/
namespace BoardRules

inductive WebhookError where
  | missingHeader (name : String)
  | invalidSignature
  /-- The body holds no readable action. -/
  | malformedAction (reason : Json.Failure)
  /-- The body is no event of the announced kind. -/
  | malformedEvent (error : InputError)
  deriving DecidableEq, Repr

namespace WebhookError

def message : WebhookError → String
  | missingHeader name => "missing or unreadable header " ++ name
  | invalidSignature => "webhook signature does not match"
  | malformedAction reason => "malformed webhook payload: " ++ reason.message
  | malformedEvent error => "malformed webhook payload: " ++ error.message

def status : WebhookError → Nat
  | missingHeader _ => 400
  | invalidSignature => 401
  | malformedAction _ => 400
  | malformedEvent _ => 400

end WebhookError

end BoardRules
