import BoardRules.Dispatch.Router
import BoardRules.Http
import BoardRules.Webhook.Error
import BoardRules.Webhook.Signature

/-!
# The receiver

Deliveries are verified, decoded and handed to a router. Most events are nobody's business, so the
action is looked at first, and the rest of the body only if some automation listens to the event.
-/
namespace BoardRules

structure Receiver where
  router : Router
  /-- With a secret, only signed deliveries are taken. -/
  secret : Option String
  deriving DecidableEq, Repr

/-- What becomes of a delivery that is not rejected. -/
inductive Verdict where
  | ignored
  | accepted (event : Event)
  deriving DecidableEq, Repr

namespace Receiver

open Json

def eventHeader : String := "x-github-event"

def signatureHeader : String := "x-hub-signature-256"

/-- Reads nothing but the action of an event; an event can be without one. -/
def actionDecoder : Decoder (Option String) := (Payload.possible "action" string).record

/-- Without a secret every delivery counts as signed. -/
def isSigned (receiver : Receiver) (headers : Headers) (body : List UInt8) : Bool :=
  receiver.secret.all fun secret =>
    Signature.verify secret ((headers.find? signatureHeader).map String.toList) body

/-- The trigger of an event of the given name, if an automation listens to it. -/
def trigger? (receiver : Receiver) (name : String) (action : Option String) : Option Trigger :=
  match Trigger.ofParts name (action.getD "") with
  | .ok trigger => if receiver.router.handles trigger then some trigger else none
  | .error _ => none

/-- Judges a delivery. -/
def receive (receiver : Receiver) (headers : Headers) (body : List UInt8) :
    Except WebhookError Verdict :=
  if !receiver.isSigned headers body then .error .invalidSignature
  else match headers.find? eventHeader with
    | none => .error (.missingHeader eventHeader)
    | some name =>
      match (Document.ofBytes body).decode actionDecoder with
      | .error reason => .error (.malformedAction reason)
      | .ok action =>
        match receiver.trigger? name action with
        | none => .ok .ignored
        | some _ => ((Event.decode name body).mapError .malformedEvent).map .accepted

/-- Routes an accepted event. The response does not tell what comes of it. -/
def deliver (receiver : Receiver) (headers : Headers) (body : List UInt8) : Dialogue Response :=
  match receiver.receive headers body with
  | .error error => return .ofText error.status error.message
  | .ok .ignored => return .ofText 202 "ignored"
  | .ok (.accepted event) => do
    let _ ← receiver.router.route event
    return .ofText 202 "accepted"

/-- Longer bodies are not read: 2 MiB. -/
def maxBodyLength : Nat := 2097152

/-- Takes a delivery whose body is not too long. -/
def accept (receiver : Receiver) (headers : Headers) (body : List UInt8) : Dialogue Response :=
  if maxBodyLength < body.length then
    return .ofText 413 "Failed to buffer the request body: length limit exceeded"
  else receiver.deliver headers body

/-- Deliveries are posted to one path; another one tells that the receiver is up. -/
def serve (receiver : Receiver) (request : Request) : Dialogue Response :=
  match String.ofList request.path, request.method with
  | "/webhooks", "POST" => receiver.accept request.headers request.body
  | "/healthz", "GET" => return .ofText 200 "ok"
  | "/healthz", "HEAD" => return .ofText 200 ""
  | "/webhooks", _ => return .ofText 405 ""
  | "/healthz", _ => return .ofText 405 ""
  | _, _ => return .ofText 404 ""

end Receiver

end BoardRules
