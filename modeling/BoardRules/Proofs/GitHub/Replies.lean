import BoardRules.Proofs.Json.Keys
import BoardRules.GitHub.Reply

/-!
# Failures in replies

Every operation but the listing of reviews is a query, whose reply has errors and data. What the
operation answers is decided in a fixed order: by the status, by whether the whole body can be decoded, by
the errors, by the data, and at last by whether what was asked for is among the data. Data that cannot be
decoded comes before the errors next to it, so these are told only if the data is what was asked for, or
null.
-/
namespace BoardRules

open Json Text

/-! ## Keys of replies -/

namespace Json.Key

def data : Key := ⟨"data", 0⟩
def errors : Key := ⟨"errors", 1⟩
def message : Key := ⟨"message", 0⟩
def resource : Key := ⟨"resource", 0⟩
def node : Key := ⟨"node", 0⟩
def id : Key := ⟨"id", 0⟩
def repository : Key := ⟨"repository", 1⟩
def column : Key := ⟨"column", 1⟩

end Json.Key

namespace GitHub

variable {α β : Type}

/-! ## Envelopes -/

/-- The messages of the errors in a reply, in their order. -/
def reported? (root : Node) : Option (List String) :=
  match root.value? .errors with
  | none => some []
  | some (.array items _) => items.mapM fun item => item.text? .message
  | some _ => none

/-- The body can be decoded as an envelope around what the decoder reads. -/
def Encloses (decode : Decoder α) (response : Response) : Prop :=
  ∃ envelope, (Document.ofBytes response.body).decode (Envelope.fields decode).record = .ok envelope

/-- The tree of the body. -/
def root (response : Response) : Node := (Document.ofBytes response.body).root

theorem text?_of_errorText {item : Node} {message : String} (decoded : errorText item = .ok message) :
    item.text? .message = some message := by
  have told : Given string none (item.value? .message) message :=
    (Fields.shows_required "message" careful_string).record decoded
  unfold Node.text?
  unfold Given at told
  split at told
  · next node found =>
    rw [found]
    unfold string at told
    split at told
    · cases told
      rfl
    · cases told
  · cases told

theorem mapM_text?_of_errorText {items : List Node} {messages : List String}
    (decoded : items.mapM errorText = .ok messages) :
    items.mapM (fun item => item.text? .message) = some messages := by
  induction items generalizing messages with
  | nil =>
    cases decoded
    rfl
  | cons item items rest =>
    rw [List.mapM_cons, bind_eq_ok_iff] at decoded
    obtain ⟨message, here, decoded⟩ := decoded
    obtain ⟨others, there, same⟩ := bind_eq_ok_iff.mp decoded
    cases same
    rw [List.mapM_cons, text?_of_errorText here, rest there]
    rfl

theorem reported?_of_given {root : Node} {messages : List String}
    (given : Given (list errorText) (some []) (root.value? .errors) messages) :
    reported? root = some messages := by
  unfold reported?
  unfold Given at given
  split at given
  · next node found =>
    rw [found]
    unfold list at given
    split at given
    · next items closed =>
      obtain ⟨found, decoded, ended⟩ := bind_eq_ok_iff.mp given
      obtain ⟨-, rfl⟩ := atEnd_eq_ok_iff.mp ended
      exact mapM_text?_of_errorText decoded
    · cases given
  · next missing =>
    rw [missing]
    exact given

theorem of_envelope {decode : Decoder α} (careful : Careful decode) {root : Node}
    {envelope : Envelope α} (decoded : (Envelope.fields decode).record root = .ok envelope) :
    Given (optional decode) (some none) (root.value? .data) envelope.data ∧
      reported? root = some envelope.errors := by
  have told := Fields.shows_seq (Fields.shows_map Envelope.mk (Fields.shows_maybe "data" careful))
    (Fields.shows_withDefault "errors" (careful_list errorText) []) (by decide)
  obtain ⟨_, errors, ⟨data, first, rfl⟩, second, rfl⟩ := told.record decoded
  exact ⟨first, reported?_of_given second⟩

/-! ## Objects that were asked for -/

/-- What an answer makes of decoded data: what it needs must be there, and is enough. -/
structure Concludes (decode : Decoder α) (needed : List (List Key)) (subject : String)
    (next : α → Except TrackingError β) : Prop where
  missing : ∀ node value, decode node = .ok value → ∀ path ∈ needed, node.holds path = false →
    next value = .error (.notFound subject)
  found : ∀ node value, decode node = .ok value → (∀ path ∈ needed, node.holds path = true) →
    ∃ answer, next value = .ok answer

theorem concludes_pure (decode : Decoder α) (subject : String) (f : α → β) :
    Concludes decode [] subject fun value => pure (f value) :=
  ⟨fun _ _ _ _ member => (by cases member), fun _ _ _ _ => ⟨_, rfl⟩⟩

/-- Of an object that was asked for by name, that object itself is needed first. -/
theorem Concludes.lookUp {decode : Decoder α} {needed : List (List Key)} {subject : String}
    {next : α → Except TrackingError β} (inner : Concludes decode needed subject next)
    (careful : Careful decode) (key : Key) (first : key.place = 0) :
    Concludes (GitHub.lookUp key.name decode) ([key] :: needed.map (key :: ·)) subject
      fun value => existing subject value >>= next := by
  have told (node : Node) (value : Option α) (decoded : GitHub.lookUp key.name decode node = .ok value) :
      Given (optional decode) (some none) (node.value? key) value := by
    have given := (Fields.shows_maybe key.name careful).record decoded
    rwa [← first] at given
  constructor
  · intro node value decoded path member lacks
    cases value with
    | none => rfl
    | some value =>
      have given := told node _ decoded
      obtain ⟨object, decoded, under⟩ := given.holds_of_some
      rcases List.mem_cons.mp member with rfl | deeper
      · rw [given.holds_eq] at lacks
        cases lacks
      · obtain ⟨path, inside, rfl⟩ := List.mem_map.mp deeper
        exact inner.missing object value decoded path inside (under path ▸ lacks)
  · intro node value decoded holds
    have given := told node _ decoded
    have here := holds [key] List.mem_cons_self
    rw [given.holds_eq] at here
    obtain ⟨value, rfl⟩ := Option.isSome_iff_exists.mp here
    obtain ⟨object, decoded, under⟩ := given.holds_of_some
    refine inner.found object value decoded fun path member => ?_
    rw [← under path]
    exact holds _ (List.mem_cons_of_mem _ (List.mem_map_of_mem member))

theorem shows_possible (name : String) {decode : Decoder α} (careful : Careful decode) :
    (Payload.possible name decode).Shows [name] fun look value =>
      Given (optional decode) (some none) (look ⟨name, 0⟩) value :=
  Fields.shows_withDefault name (careful_optional careful) none

theorem holds_of_issueBoards {node : Node} {issue : IssueBoards}
    (decoded : issueBoards node = .ok issue) :
    node.holds [.id] = issue.id.isSome ∧ node.holds [.repository] = issue.repository.isSome := by
  have careful : Careful repository := careful_record _
  have id := shows_possible "id" careful_string
  have told := Fields.shows_seq
    (Fields.shows_map (fun id boards => (⟨id.map EntityId.mk, boards⟩ : IssueBoards)) id)
    (shows_possible "repository" careful) (by decide)
  obtain ⟨_, boards, ⟨id, first, rfl⟩, second, rfl⟩ := told.record decoded
  exact ⟨(Given.holds_eq first).trans Option.isSome_map.symm, Given.holds_eq second⟩

theorem concludes_issueBoards (url : String) :
    Concludes issueBoards [[.id], [.repository]] url fun issue => issue.entityBoards url := by
  constructor
  · intro node issue decoded path member lacks
    obtain ⟨known, listed⟩ := holds_of_issueBoards decoded
    obtain ⟨_ | id, _ | boards⟩ := issue
    · rfl
    · rfl
    · rfl
    · rcases List.mem_pair.mp member with rfl | rfl
      · rw [known] at lacks
        cases lacks
      · rw [listed] at lacks
        cases lacks
  · intro node issue decoded holds
    obtain ⟨known, listed⟩ := holds_of_issueBoards decoded
    rw [holds _ List.mem_cons_self] at known
    rw [holds _ (List.mem_cons_of_mem _ (List.mem_singleton_self _))] at listed
    obtain ⟨_ | id, _ | boards⟩ := issue
    · cases known
    · cases known
    · cases listed
    · exact ⟨_, rfl⟩

theorem holds_of_cardPlace {node : Node} {place : CardPlace} (decoded : cardPlace node = .ok place) :
    node.holds [.column] = place.column.isSome := by
  have carefulContent : Careful linkedEntity := careful_record _
  have carefulColumn : Careful column := careful_record _
  have content := shows_possible "content" carefulContent
  have told := Fields.shows_seq
    (Fields.shows_map (fun content column => (⟨content.join, column⟩ : CardPlace)) content)
    (shows_possible "column" carefulColumn) (by decide)
  obtain ⟨_, column, ⟨content, _, rfl⟩, second, rfl⟩ := told.record decoded
  exact Given.holds_eq second

theorem concludes_cardPlace (card : CardId) :
    Concludes cardPlace [[.column]] card.text fun place => place.context card := by
  constructor
  · intro node place decoded path member lacks
    obtain rfl := List.mem_singleton.mp member
    rw [holds_of_cardPlace decoded] at lacks
    obtain ⟨content, _ | column⟩ := place
    · rfl
    · cases lacks
  · intro node place decoded holds
    have placed := holds _ (List.mem_singleton_self _)
    rw [holds_of_cardPlace decoded] at placed
    obtain ⟨content, _ | column⟩ := place
    · cases placed
    · exact ⟨_, rfl⟩

/-! ## Answers -/

/-- The status in words. -/
def statusText (response : Response) : String :=
  "status " ++ String.ofList (Decimal.render response.status)

/-- Which error a query is answered with for which fault of the response, where `encloses` says that the
body can be decoded. -/
structure Refusals (response : Response) (encloses : Prop) (needed : List (List Key)) (subject : String)
    (answer : Except TrackingError α) : Prop where
  failed : response.isFailure = true → answer = .error (.transport (statusText response))
  undecoded : response.isFailure = false → ¬encloses → ∃ reason, answer = .error (.decode reason)
  /-- Whatever is decoded has its errors listed, if any. -/
  reported : encloses → ∃ messages, reported? (root response) = some messages
  rejected : response.isFailure = false → encloses → ∀ messages,
    reported? (root response) = some messages → messages ≠ [] →
      answer = .error (.query ("; ".intercalate messages))
  empty : response.isFailure = false → encloses → reported? (root response) = some [] →
    (root response).holds [.data] = false → answer = .error (.decode "response carried no data")
  missing : response.isFailure = false → encloses → reported? (root response) = some [] →
    (root response).holds [.data] = true → ∀ path ∈ needed,
      (root response).holds (.data :: path) = false → answer = .error (.notFound subject)

/-- The response has none of these faults. -/
structure Succeeds (response : Response) (encloses : Prop) (needed : List (List Key)) : Prop where
  success : response.isFailure = false
  encloses : encloses
  clean : reported? (root response) = some []
  data : (root response).holds [.data] = true
  complete : ∀ path ∈ needed, (root response).holds (.data :: path) = true

theorem Refusals.succeeds {response : Response} {encloses : Prop} {needed : List (List Key)}
    {subject : String} {answer : Except TrackingError α} {value : α}
    (refusals : Refusals response encloses needed subject answer) (told : answer = .ok value) :
    Succeeds response encloses needed := by
  have accepted {error : TrackingError} (refused : answer = .error error) : False := by
    rw [told] at refused
    cases refused
  have success : response.isFailure = false :=
    Bool.eq_false_iff.mpr fun failure => accepted (refusals.failed failure)
  have encloses : encloses := by
    by_contra undecoded
    obtain ⟨reason, refused⟩ := refusals.undecoded success undecoded
    exact accepted refused
  obtain ⟨messages, reported⟩ := refusals.reported encloses
  have clean : messages = [] := by
    by_contra errors
    exact accepted (refusals.rejected success encloses messages reported errors)
  subst clean
  have data : (root response).holds [.data] = true :=
    Bool.of_not_eq_false fun lacks => accepted (refusals.empty success encloses reported lacks)
  refine ⟨success, encloses, reported, data, fun path member => ?_⟩
  exact Bool.of_not_eq_false fun lacks =>
    accepted (refusals.missing success encloses reported data path member lacks)

section Data

variable {decode : Decoder α} {response : Response}

theorem data_of_failure (decode : Decoder α) (failure : response.isFailure = true) :
    data decode response = .error (.transport (statusText response)) := by
  unfold data content
  rw [if_pos failure]
  rfl

theorem data_of_not_encloses (success : response.isFailure = false)
    (undecoded : ¬Encloses decode response) :
    ∃ reason, data decode response = .error (.decode reason) := by
  unfold data content
  rw [success]
  cases decoded : (Document.ofBytes response.body).decode (Envelope.fields decode).record with
  | error reason => exact ⟨reason.message, rfl⟩
  | ok envelope => exact absurd ⟨envelope, decoded⟩ undecoded

theorem data_of_encloses (careful : Careful decode) (success : response.isFailure = false)
    (encloses : Encloses decode response) :
    ∃ envelope : Envelope α, data decode response = envelope.content ∧
      Given (optional decode) (some none) ((root response).value? .data) envelope.data ∧
      reported? (root response) = some envelope.errors := by
  obtain ⟨envelope, decoded⟩ := encloses
  refine ⟨envelope, ?_, of_envelope careful (decode_eq_ok_iff.mp decoded).1⟩
  unfold data content
  rw [success, decoded]
  rfl

variable (careful : Careful decode) (success : response.isFailure = false)
  (encloses : Encloses decode response)

include careful success encloses

theorem data_of_reported {messages : List String} (reported : reported? (root response) = some messages)
    (errors : messages ≠ []) : data decode response = .error (.query ("; ".intercalate messages)) := by
  obtain ⟨⟨content, listed⟩, told, -, known⟩ := data_of_encloses careful success encloses
  cases reported.symm.trans known
  rw [told]
  cases listed with
  | nil => exact absurd rfl errors
  | cons message more => rfl

variable (clean : reported? (root response) = some [])

include clean

theorem data_of_lacks (lacks : (root response).holds [.data] = false) :
    data decode response = .error (.decode "response carried no data") := by
  obtain ⟨⟨content, listed⟩, told, given, known⟩ := data_of_encloses careful success encloses
  cases clean.symm.trans known
  rw [told]
  rw [given.holds_eq] at lacks
  cases content with
  | none => rfl
  | some value => cases lacks

/-- With data and without errors the reply stands for what the data is decoded as. -/
theorem data_of_holds (holds : (root response).holds [.data] = true) :
    ∃ node value, decode node = .ok value ∧ data decode response = .ok value ∧
      ∀ path, (root response).holds (.data :: path) = node.holds path := by
  obtain ⟨⟨content, listed⟩, told, given, known⟩ := data_of_encloses careful success encloses
  cases clean.symm.trans known
  rw [told]
  rw [given.holds_eq] at holds
  cases content with
  | none => cases holds
  | some value =>
    obtain ⟨node, decoded, under⟩ := given.holds_of_some
    exact ⟨node, value, decoded, rfl, under⟩

end Data

section Concludes

variable {decode : Decoder α} {needed : List (List Key)} {subject : String}
  {next : α → Except TrackingError β} (concludes : Concludes decode needed subject next)
  (careful : Careful decode) (response : Response)

include concludes careful

theorem refusals_of_concludes :
    Refusals response (Encloses decode response) needed subject (data decode response >>= next) where
  failed failure := by
    rw [data_of_failure decode failure]
    rfl
  undecoded success not := by
    obtain ⟨reason, refused⟩ := data_of_not_encloses success not
    rw [refused]
    exact ⟨reason, rfl⟩
  reported encloses := by
    obtain ⟨envelope, decoded⟩ := encloses
    exact ⟨envelope.errors, (of_envelope careful (decode_eq_ok_iff.mp decoded).1).2⟩
  rejected success encloses messages reported errors := by
    rw [data_of_reported careful success encloses reported errors]
    rfl
  empty success encloses clean lacks := by
    rw [data_of_lacks careful success encloses clean lacks]
    rfl
  missing success encloses clean holds path member lacks := by
    obtain ⟨node, value, decoded, told, under⟩ := data_of_holds careful success encloses clean holds
    rw [told]
    exact concludes.missing node value decoded path member (under path ▸ lacks)

theorem settled_of_concludes :
    Refusals response (Encloses decode response) needed subject (data decode response >>= next) ∧
      ((∃ value, (data decode response >>= next) = .ok value) ↔
        Succeeds response (Encloses decode response) needed) := by
  have refusals := refusals_of_concludes concludes careful response
  refine ⟨refusals, ?_, ?_⟩
  · intro accepted
    obtain ⟨value, told⟩ := accepted
    exact refusals.succeeds told
  · intro succeeds
    obtain ⟨node, value, decoded, told, under⟩ :=
      data_of_holds careful succeeds.success succeeds.encloses succeeds.clean succeeds.data
    rw [told]
    exact concludes.found node value decoded fun path member => under path ▸ succeeds.complete path member

end Concludes

/-! ## Queries -/

theorem careful_value (levels : Nat) : Careful (value levels) := by
  intro node decoded read
  cases node with
  | array items closed =>
    cases levels with
    | zero => cases read
    | succ levels =>
      obtain ⟨_, _, read⟩ := bind_eq_ok_iff.mp read
      obtain ⟨_, ended, _⟩ := bind_eq_ok_iff.mp read
      exact (atEnd_eq_ok_iff.mp ended).1
  | object members closed =>
    cases levels with
    | zero => cases read
    | succ levels =>
      obtain ⟨_, _, read⟩ := bind_eq_ok_iff.mp read
      obtain ⟨_, ended, _⟩ := bind_eq_ok_iff.mp read
      exact (atEnd_eq_ok_iff.mp ended).1
  | broken => cases levels <;> cases read
  | _ => rfl

/-- Reviews are listed under a path of their own; everything else is a query. -/
def isQuery : Call → Bool
  | .reviews _ => false
  | _ => true

/-- The paths in the data at which there must be something for an answer. -/
def requires : Call → List (List Key)
  | .boardsForEntity _ => [[.resource], [.resource, .id], [.resource, .repository]]
  | .cardContext _ => [[.node], [.node, .column]]
  | .cardMemberships _ => [[.resource]]
  | .pullRequestBody _ => [[.resource]]
  | _ => []

/-- What a call asks for. -/
def requested : Call → String
  | .boardsForEntity url => url.render
  | .cardContext card => card.text
  | .cardMemberships url => url.render
  | .pullRequestBody url => url.render
  | _ => ""

/-- The body can be decoded as a reply to the query. -/
def Decodes (response : Response) : Call → Prop
  | .boardsForEntity _ => Encloses (lookUp "resource" issueBoards) response
  | .cardContext _ => Encloses (lookUp "node" cardPlace) response
  | .cardMemberships _ => Encloses (lookUp "resource" memberships) response
  | .pullRequestBody _ => Encloses (lookUp "resource" description) response
  | .reviews _ => False
  | .createCard _ _ => Encloses addedCard response
  | .moveCard _ _ _ => Encloses anything response
  | .closeIssue _ => Encloses anything response

/-- A query is answered with success exactly if the status, the form, the errors and the data of the
response all show it, and with the error of the first of them that does not. The data must hold what was
asked for. -/
theorem answer_query (call : Call) (response : Response) (query : isQuery call = true) :
    Refusals response (Decodes response call) (requires call) (requested call) (answer call response) ∧
      ((∃ value, answer call response = .ok value) ↔
        Succeeds response (Decodes response call) (requires call)) := by
  cases call with
  | boardsForEntity url =>
    have concludes := (concludes_issueBoards url.render).lookUp (careful_record _) .resource rfl
    exact settled_of_concludes concludes (careful_record _) response
  | cardContext card =>
    have concludes := (concludes_cardPlace card).lookUp (careful_record _) .node rfl
    exact settled_of_concludes concludes (careful_record _) response
  | cardMemberships url =>
    have concludes := (concludes_pure memberships url.render fun found => found).lookUp
      (careful_record _) .resource rfl
    simp only [bind_pure] at concludes
    exact settled_of_concludes concludes (careful_record _) response
  | pullRequestBody url =>
    have concludes := (concludes_pure description url.render fun text => text.filter fun text =>
      !text.isEmpty).lookUp (careful_record _) .resource rfl
    exact settled_of_concludes concludes (careful_record _) response
  | reviews _ => cases query
  | createCard _ _ =>
    have settled := settled_of_concludes (concludes_pure addedCard "" fun card => card)
      (careful_record _) response
    rw [bind_pure] at settled
    exact settled
  | moveCard _ _ _ =>
    exact settled_of_concludes (concludes_pure anything "" fun _ => ()) (careful_value _) response
  | closeIssue _ =>
    exact settled_of_concludes (concludes_pure anything "" fun _ => ()) (careful_value _) response

/-- The messages are told although the data next to them shows what was asked for. -/
theorem answer_query_rejected :
    let call : Call := .pullRequestBody ⟨.https, "github.com", "octo", "demo", .pullRequest, 5⟩
    let response : Response := ⟨200, Utf8.encode
      ("\x7b\"data\":\x7b\"resource\":\x7b\"body\":\"text\"\x7d\x7d,".toList ++
        "\"errors\":[\x7b\"message\":\"a\"\x7d,\x7b\"message\":\"b\"\x7d]\x7d".toList)⟩
    isQuery call = true ∧ answer call response = .error (.query "a; b") := by
  intro call response
  have decodes : Decodes response call :=
    ⟨⟨some (some (some "text")), ["a", "b"]⟩, by decide +kernel⟩
  exact ⟨rfl, (answer_query call response rfl).1.rejected rfl decodes ["a", "b"] (by decide +kernel)
    (by decide)⟩

/-- A refused query whose data has null where an object was expected: the messages are lost when a card
is added, and they are told when one is moved. -/
theorem answer_query_lost :
    let response : Response := ⟨200, Utf8.encode
      ("\x7b\"data\":\x7b\"addProjectCard\":null\x7d,".toList ++
        "\"errors\":[\x7b\"message\":\"nope\"\x7d]\x7d".toList)⟩
    reported? (root response) = some ["nope"] ∧
      answer (.createCard ⟨"column"⟩ (.note "note")) response = .error (.decode "invalid type") ∧
      answer (.moveCard ⟨"card"⟩ ⟨"column"⟩ none) response = .error (.query "nope") := by
  intro response
  refine ⟨?_, ?_, ?_⟩
  · decide +kernel
  · decide +kernel
  · decide +kernel

end GitHub

end BoardRules
