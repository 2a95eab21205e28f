import BoardRules.Proofs.Dispatch.Routing
import BoardRules.Proofs.Event.Decoding
import BoardRules.Proofs.Json.Opening
import BoardRules.Proofs.Json.Printing
import BoardRules.Webhook.Receiver

/-!
# The two readings of a delivery

The receiver reads a body twice: for its action alone, and as a whole if some automation listens to
the event. The first reading passes over everything that the second one looks at, and both mean the same
action if the body is an object. So what is routed does not depend on the first one at all.
-/
namespace BoardRules

open Json

/-! ## Reading the action -/

namespace Payload

theorem lawful_possible {α : Type} (name : String) {decode : Decoder α} (careful : Careful decode) :
    (possible name decode).Lawful [name] :=
  Fields.lawful_single name (careful_optional careful) (some none) (some none)

/-- A payload has the action that is found in its object alone. -/
theorem actionDecoder_of_fields {members : List (Option String × Node)} {closed : Bool}
    {payload : Payload} (decoded : fields.record (.object members closed) = .ok payload) :
    Receiver.actionDecoder (.object members closed) = .ok payload.action := by
  have told := Fields.tells_map Payload.mk (lawful_possible "action" careful_string)
  have told := told.seq (lawful_possible "issue" (careful_record Issue.fields)) (by decide)
  have told := told.seq (lawful_possible "pull_request" (careful_record PullRequest.fields)) (by decide)
  have told := told.seq (lawful_possible "project_card" (careful_record ProjectCard.fields)) (by decide)
  have told := told.seq (lawful_possible "label" (careful_record Label.fields)) (by decide)
  have told := told.seq (lawful_possible "assignee" (careful_record User.fields)) (by decide)
  have told := told.seq (lawful_possible "repository" (careful_record Repository.fields)) (by decide)
  obtain ⟨action, read, about⟩ := told.alone members closed payload decoded
  obtain ⟨_, _, ⟨_, _, ⟨_, _, ⟨_, _, ⟨_, _, ⟨_, _, rfl, rfl⟩, rfl⟩, rfl⟩, rfl⟩, rfl⟩, rfl⟩ := about
  exact read

end Payload

/-! ## Deliveries -/

namespace Receiver

/-- The event has come, and some automation listens to it. -/
def Awaits (receiver : Receiver) (name : String) (body : List UInt8) (event : Event) : Prop :=
  Event.decode name body = .ok event ∧ receiver.router.handles event.trigger = true

/-- The delivery carries the digest of its body under the secret, if there is one. -/
def Vouched (receiver : Receiver) (headers : Headers) (body : List UInt8) : Prop :=
  ∀ secret, receiver.secret = some secret → ∃ signature,
    headers.find? signatureHeader = some signature ∧
      Signature.digest? signature.toList = some (Signature.digest secret body)

variable {receiver : Receiver} {headers : Headers} {body : List UInt8} {name : String}

theorem isSigned_iff : receiver.isSigned headers body = true ↔ receiver.Vouched headers body := by
  unfold isSigned Vouched Signature.verify
  cases receiver.secret with
  | none => simp
  | some secret => simp [Option.bind_eq_some_iff]

/-- A body is first read for the action of the event that it holds. -/
theorem decode_actionDecoder {event : Event} (opens : Opens body)
    (decoded : Event.decode name body = .ok event) :
    (Document.ofBytes body).decode actionDecoder = .ok event.payload.action := by
  obtain ⟨decoded, _⟩ := Event.decode_eq_ok_iff.mp decoded
  obtain ⟨read, ended⟩ := decode_eq_ok_iff.mp decoded
  obtain ⟨members, closed, root⟩ := ofBytes_isObject opens
  rw [root] at read
  refine decode_eq_ok_iff.mpr ⟨?_, ended⟩
  rw [root]
  exact Payload.actionDecoder_of_fields read

theorem trigger?_eq {action : Option String} {trigger : Trigger}
    (parsed : Trigger.ofParts name (action.getD "") = .ok trigger) :
    receiver.trigger? name action = if receiver.router.handles trigger then some trigger else none := by
  unfold trigger?
  rw [parsed]

/-- What it takes to be accepted: both readings succeed, and the first one is of interest. -/
theorem receive_eq_accepted_iff (vouched : receiver.Vouched headers body)
    (named : headers.find? eventHeader = some name) (event : Event) :
    receiver.receive headers body = .ok (.accepted event) ↔
      ∃ action trigger, (Document.ofBytes body).decode actionDecoder = .ok action ∧
        receiver.trigger? name action = some trigger ∧ Event.decode name body = .ok event := by
  unfold receive
  rw [isSigned_iff.mpr vouched, if_neg (by simp), named]
  dsimp only
  cases (Document.ofBytes body).decode actionDecoder with
  | error reason => simp
  | ok action =>
    dsimp only
    cases listens : receiver.trigger? name action with
    | none => simp [listens]
    | some trigger =>
      cases Event.decode name body with
      | error reason => simp [Except.mapError, Except.map]
      | ok found => simp [Except.mapError, Except.map, listens]

/-- A vouched body that opens an object is accepted for the event that it holds, or not at all. -/
theorem receive_accepted_iff (vouched : receiver.Vouched headers body)
    (named : headers.find? eventHeader = some name) (opens : Opens body) (event : Event) :
    receiver.receive headers body = .ok (.accepted event) ↔ receiver.Awaits name body event := by
  rw [receive_eq_accepted_iff vouched named]
  constructor
  · rintro ⟨action, trigger, read, listens, decoded⟩
    -- Both readings found one action, so the trigger that was looked up is that of the event.
    have same := (decode_actionDecoder opens decoded).symm.trans read
    cases same
    rw [trigger?_eq (Event.decode_eq_ok_iff.mp decoded).2] at listens
    refine ⟨decoded, ?_⟩
    by_contra deaf
    rw [if_neg deaf] at listens
    cases listens
  · rintro ⟨decoded, handled⟩
    refine ⟨_, event.trigger, decode_actionDecoder opens decoded, ?_, decoded⟩
    rw [trigger?_eq (Event.decode_eq_ok_iff.mp decoded).2, if_pos handled]

theorem receive_ne_invalidSignature (vouched : receiver.Vouched headers body) :
    receiver.receive headers body ≠ .error .invalidSignature := by
  unfold receive
  rw [isSigned_iff.mpr vouched, if_neg (by simp)]
  split
  · nofun
  · split
    · nofun
    · split
      · nofun
      · cases Event.decode _ body <;> nofun

/-- A vouched delivery that is not accepted is ignored or rejected as malformed. -/
theorem deliver_of_not_accepted (vouched : receiver.Vouched headers body)
    (refused : ∀ event, receiver.receive headers body ≠ .ok (.accepted event)) :
    ∃ response, receiver.deliver headers body = pure response ∧
      (response = .ofText 202 "ignored" ∨ response.status = 400) := by
  have signed := receive_ne_invalidSignature vouched
  unfold deliver
  cases received : receiver.receive headers body with
  | ok verdict =>
    cases verdict with
    | ignored => exact ⟨_, rfl, .inl rfl⟩
    | accepted event => exact absurd received (refused event)
  | error error =>
    refine ⟨_, rfl, .inr ?_⟩
    cases error with
    | invalidSignature => exact absurd received signed
    | _ => rfl

theorem deliver_of_not_vouched (stranger : ¬receiver.Vouched headers body) :
    receiver.deliver headers body = pure (.ofText 401 WebhookError.invalidSignature.message) := by
  have unsigned := Bool.eq_false_iff.mpr (mt isSigned_iff.mp stranger)
  unfold deliver receive
  rw [unsigned]
  rfl

theorem deliver_of_accepted {event : Event}
    (accepted : receiver.receive headers body = .ok (.accepted event)) :
    receiver.deliver headers body =
      (do let _ ← receiver.router.route event; return .ofText 202 "accepted") := by
  unfold deliver
  rw [accepted]

/-- Only an accepted delivery is answered as one. -/
theorem accepted_of_answer {σ : Type} {service : Service σ} {s : σ}
    (vouched : receiver.Vouched headers body)
    (answer : ((receiver.deliver headers body).run service s).1 = .ofText 202 "accepted") :
    ∃ event, receiver.receive headers body = .ok (.accepted event) := by
  by_contra none
  obtain ⟨response, same, kind⟩ :=
    deliver_of_not_accepted vouched fun event accepted => none ⟨event, accepted⟩
  rw [same, Dialogue.run_pure] at answer
  dsimp only at answer
  rcases kind with rfl | status
  · exact absurd (congrArg Response.body answer) (by decide)
  · rw [answer] at status
    cases status

/-! ### A signed delivery -/

section Signed

/-- Takes deliveries that are signed with its secret, for all automations there are. -/
def vigilant : Receiver := ⟨.ofCatalog .default .builtin, some "key"⟩

/-- An issue was opened. -/
def opened : Event :=
  ⟨.issueOpened, ⟨some "opened", some ⟨"https://github.com/octo/demo/issues/7", 7, []⟩,
    none, none, none, none, none⟩⟩

/-- The delivery of that event. It tells more than the event holds. -/
def openedValue : Json.Value :=
  .object [("sender", .object [("login", .string "mona")]),
    ("issue", .object [("number", .number ⟨false, ['7'], none, none⟩),
      ("html_url", .string "https://github.com/octo/demo/issues/7")]),
    ("action", .string "opened")]

def openedBody : List UInt8 := Text.Utf8.encode openedValue.write

/-- The signature of that delivery. -/
def openedSignature : String :=
  "sha256=53036c304ca0723469ab98166070eb4f3d4b93776a09f6a35225ac7e04b749c2"

/-- The headers of a delivery about issues, with the given signatures. -/
def headed (signatures : List String) : Headers :=
  ("X-GitHub-Event", "issues") :: signatures.map fun signature => ("X-Hub-Signature-256", signature)

theorem form_openedValue : opened.payload.form openedValue.node := by
  have issue : Payload.Issue.form ⟨"https://github.com/octo/demo/issues/7", 7, []⟩
      (Json.Value.object [("number", .number ⟨false, ['7'], none, none⟩),
        ("html_url", .string "https://github.com/octo/demo/issues/7")]).node :=
    object_node ⟨.inr ⟨_, rfl, rfl⟩, .inr ⟨_, rfl, rfl⟩, .inl ⟨rfl, rfl⟩⟩
  exact object_node ⟨.inr ⟨_, rfl, rfl⟩, .inr ⟨_, rfl, issue⟩, .inl ⟨rfl, rfl⟩, .inl ⟨rfl, rfl⟩,
    .inl ⟨rfl, rfl⟩, .inl ⟨rfl, rfl⟩, .inl ⟨rfl, rfl⟩⟩

theorem decode_openedBody : Event.decode "issues" openedBody = .ok opened := by
  have proper : openedValue.Proper :=
    ⟨⟨trivial, trivial⟩, ⟨Numeral.proper_digit rfl, trivial, trivial⟩, trivial, trivial⟩
  have written := Json.Value.textOf_write proper
  have small : ∀ n ∈ opened.payload.numbers, n < Text.Decimal.wordBound := by decide
  have read := (Payload.reads_payload small).object _ (written.complete _ (List.mem_singleton_self _))
    form_openedValue
  refine Event.decode_eq_ok_iff.mpr ⟨Json.decode_eq_ok_iff.mpr ?_, Trigger.parse_key .issueOpened⟩
  rw [openedBody, ofBytes_encode written]
  exact ⟨read, rfl⟩

end Signed

/-- A delivery that is not vouched for is rejected before anything else is looked at. From a body that
opens an object, exactly the event that it holds is routed, if an automation listens to it, and then the
router finds it a dispatcher of its own trigger. Nothing is routed otherwise. -/
theorem deliver_agrees (receiver : Receiver) (headers : Headers) (body : List UInt8) :
    (¬receiver.Vouched headers body →
      receiver.deliver headers body = pure (.ofText 401 WebhookError.invalidSignature.message)) ∧
    (receiver.Vouched headers body → ∀ name, headers.find? eventHeader = some name → Opens body →
      (∀ event, receiver.Awaits name body event →
        receiver.deliver headers body =
          (do let _ ← receiver.router.route event; return .ofText 202 "accepted") ∧
        ∀ (σ : Type) (service : Service σ) (s : σ),
          ((receiver.router.route event).run service s).1 ≠ .ok none ∧
          ∀ expected actual, ((receiver.router.route event).run service s).1 ≠
            .error (.triggerMismatch expected actual)) ∧
      ((∀ event, ¬receiver.Awaits name body event) →
        ∃ response, receiver.deliver headers body = pure response ∧
          (response = .ofText 202 "ignored" ∨ response.status = 400)) ∧
      ∀ (σ : Type) (service : Service σ) (s : σ),
        ((receiver.deliver headers body).run service s).1 = .ofText 202 "accepted" ↔
          ∃ event, receiver.Awaits name body event) := by
  refine ⟨deliver_of_not_vouched, ?_⟩
  intro vouched name named opens
  have accepted := receive_accepted_iff vouched named opens
  refine ⟨?_, ?_, ?_⟩
  · intro event awaited
    refine ⟨deliver_of_accepted ((accepted event).mpr awaited), ?_⟩
    intro σ service s
    exact Router.route_of_handles awaited.2 service s
  · intro unawaited
    exact deliver_of_not_accepted vouched fun event same => unawaited event ((accepted event).mp same)
  · intro σ service s
    constructor
    · intro answer
      obtain ⟨event, same⟩ := accepted_of_answer vouched answer
      exact ⟨event, (accepted event).mp same⟩
    · rintro ⟨event, awaited⟩
      rw [deliver_of_accepted ((accepted event).mpr awaited), Dialogue.run_bind]
      rfl

/-- The event of an opened issue, signed with the secret, goes to the automation that makes cards for new
issues. It is rejected without its signature, or with another one. -/
theorem deliver_agrees_opened :
    (vigilant.router.dispatcher? .issueOpened).map (·.automations.map (·.name)) =
        some ["new_issue"] ∧
    vigilant.deliver (headed [openedSignature]) openedBody =
      (do let _ ← vigilant.router.route opened; return .ofText 202 "accepted") ∧
    vigilant.deliver (headed []) openedBody =
      pure (.ofText 401 "webhook signature does not match") ∧
    vigilant.deliver (headed ["sha256=00"]) openedBody =
      pure (.ofText 401 "webhook signature does not match") := by
  have vouched : vigilant.Vouched (headed [openedSignature]) openedBody :=
    isSigned_iff.mp (by decide +kernel)
  have named : (headed [openedSignature]).find? eventHeader = some "issues" := by decide +kernel
  have agrees := (deliver_agrees vigilant _ _).2 vouched "issues" named ⟨[], _, nofun, rfl⟩
  have routed := (agrees.1 opened ⟨decode_openedBody, by decide +kernel⟩).1
  have unsigned : ¬vigilant.Vouched (headed []) openedBody :=
    mt isSigned_iff.mpr (by decide +kernel)
  have forged : ¬vigilant.Vouched (headed ["sha256=00"]) openedBody :=
    mt isSigned_iff.mpr (by decide +kernel)
  refine ⟨by decide +kernel, routed, ?_, ?_⟩
  · exact (deliver_agrees vigilant _ _).1 unsigned
  · exact (deliver_agrees vigilant _ _).1 forged

end Receiver

end BoardRules
