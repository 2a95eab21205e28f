import BoardRules.Proofs.Json.Forms
import BoardRules.Event.Basic

/-!
# Events from their texts

A payload can be written in many ways: its fields stand in any order among others that nobody reads, and
what is absent can be null or left out. Every one of its texts is decoded as the payload itself.
-/
namespace BoardRules

open Json Text

namespace Payload

/-! ## Forms -/

def User.entries (user : User) : List Entry := [.required "login" Form.text user.login]

def User.form (user : User) : Form := .object user.entries

/-- Without assignees there need not be a list of them. -/
def assigneesEntry (assignees : List User) : Entry :=
  .withDefault "assignees" (Form.list User.form) [] assignees

def Issue.entries (issue : Issue) : List Entry :=
  [.required "html_url" Form.text issue.htmlUrl, .required "number" Form.count issue.number,
    assigneesEntry issue.assignees]

def Issue.form (issue : Issue) : Form := .object issue.entries

def PullRequest.entries (pullRequest : PullRequest) : List Entry :=
  [.required "html_url" Form.text pullRequest.htmlUrl,
    .required "number" Form.count pullRequest.number,
    .possible "merged" Form.truth pullRequest.merged, assigneesEntry pullRequest.assignees]

def PullRequest.form (pullRequest : PullRequest) : Form := .object pullRequest.entries

def ProjectCard.entries (card : ProjectCard) : List Entry :=
  [.required "node_id" Form.text card.nodeId]

def ProjectCard.form (card : ProjectCard) : Form := .object card.entries

def Label.entries (label : Label) : List Entry :=
  [.required "name" Form.text label.name, .possible "id" Form.count label.id]

def Label.form (label : Label) : Form := .object label.entries

def Repository.entries (repository : Repository) : List Entry :=
  [.required "name" Form.text repository.name, .possible "owner" User.form repository.owner]

def Repository.form (repository : Repository) : Form := .object repository.entries

def entries (payload : Payload) : List Entry :=
  [.possible "action" Form.text payload.action, .possible "issue" Issue.form payload.issue,
    .possible "pull_request" PullRequest.form payload.pullRequest,
    .possible "project_card" ProjectCard.form payload.projectCard,
    .possible "label" Label.form payload.label, .possible "assignee" User.form payload.assignee,
    .possible "repository" Repository.form payload.repository]

def form (payload : Payload) : Form := .object payload.entries

/-- The numbers that a payload holds. -/
def numbers (payload : Payload) : List Nat :=
  (payload.issue.map (·.number)).toList ++ (payload.pullRequest.map (·.number)).toList ++
    (payload.label.bind (·.id)).toList

/-! ## Decoding -/

theorem reads_user (user : User) : User.fields.Reads user.entries user :=
  Fields.reads_map (Fields.reads_text "login" user.login)

theorem reads_assignees (assignees : List User) :
    assigneesField.Reads [assigneesEntry assignees] assignees :=
  Fields.reads_withDefault "assignees" [] (careful_list _)
    (reads_list fun user _ => (reads_user user).object)

theorem reads_issue {issue : Issue} (small : issue.number < Decimal.wordBound) :
    Issue.fields.Reads issue.entries issue := by
  have url := Fields.reads_text "html_url" issue.htmlUrl
  have number := Fields.reads_required "number" careful_word (reads_word small)
  have read := Fields.reads_seq (Fields.reads_map (f := Issue.mk) url) number (by simp)
  exact Fields.reads_seq read (reads_assignees issue.assignees) (by simp [assigneesEntry])

theorem reads_pullRequest {pullRequest : PullRequest} (small : pullRequest.number < Decimal.wordBound) :
    PullRequest.fields.Reads pullRequest.entries pullRequest := by
  have url := Fields.reads_text "html_url" pullRequest.htmlUrl
  have number := Fields.reads_required "number" careful_word (reads_word small)
  have merged := Fields.reads_possible "merged" careful_bool nofun
    fun merged (_ : pullRequest.merged = some merged) => reads_bool merged
  have read := Fields.reads_seq (Fields.reads_map (f := PullRequest.mk) url) number (by simp)
  have read := Fields.reads_seq read merged (by simp)
  exact Fields.reads_seq read (reads_assignees pullRequest.assignees) (by simp [assigneesEntry])

theorem reads_projectCard (card : ProjectCard) : ProjectCard.fields.Reads card.entries card :=
  Fields.reads_map (Fields.reads_text "node_id" card.nodeId)

theorem reads_label {label : Label} (small : ∀ id, label.id = some id → id < Decimal.wordBound) :
    Label.fields.Reads label.entries label := by
  have name := Fields.reads_text "name" label.name
  have id := Fields.reads_possible "id" careful_word nofun
    fun id same => reads_word (small id same)
  exact Fields.reads_seq (Fields.reads_map (f := Label.mk) name) id (by simp)

theorem reads_repository (repository : Repository) :
    Repository.fields.Reads repository.entries repository := by
  have name := Fields.reads_text "name" repository.name
  have owner := Fields.reads_possible "owner" (careful_record User.fields) nofun
    fun owner (_ : repository.owner = some owner) => (reads_user owner).object
  exact Fields.reads_seq (Fields.reads_map (f := Repository.mk) name) owner (by simp)

theorem reads_payload {payload : Payload} (small : ∀ n ∈ payload.numbers, n < Decimal.wordBound) :
    fields.Reads payload.entries payload := by
  have action := Fields.reads_possibleText "action" payload.action
  have issue := Fields.reads_possible "issue" (careful_record Issue.fields) nofun
    fun issue (same : payload.issue = some issue) =>
      (reads_issue (small _ (by simp [numbers, same]))).object
  have pullRequest := Fields.reads_possible "pull_request" (careful_record PullRequest.fields) nofun
    fun pullRequest (same : payload.pullRequest = some pullRequest) =>
      (reads_pullRequest (small _ (by simp [numbers, same]))).object
  have projectCard := Fields.reads_possible "project_card" (careful_record ProjectCard.fields) nofun
    fun card (_ : payload.projectCard = some card) => (reads_projectCard card).object
  have label := Fields.reads_possible "label" (careful_record Label.fields) nofun
    fun label (same : payload.label = some label) =>
      (reads_label fun id known => small _ (by simp [numbers, same, known])).object
  have assignee := Fields.reads_possible "assignee" (careful_record User.fields) nofun
    fun user (_ : payload.assignee = some user) => (reads_user user).object
  have repository := Fields.reads_possible "repository" (careful_record Repository.fields) nofun
    fun repository (_ : payload.repository = some repository) =>
      (reads_repository repository).object
  have read := Fields.reads_seq (Fields.reads_map (f := Payload.mk) action) issue (by simp)
  have read := Fields.reads_seq read pullRequest (by simp)
  have read := Fields.reads_seq read projectCard (by simp)
  have read := Fields.reads_seq read label (by simp)
  have read := Fields.reads_seq read assignee (by simp)
  exact Fields.reads_seq read repository (by simp)

end Payload

/-! ## Triggers -/

theorem Trigger.trim_key (trigger : Trigger) : trim trigger.key.toList = trigger.key.toList := by
  cases trigger <;> rfl

theorem Trigger.parse_key (trigger : Trigger) : parse trigger.key = .ok trigger := by
  unfold parse
  rw [trim_key, String.ofList_toList]
  cases trigger <;> simp [all, key]

namespace Event

theorem decode_eq_ok_iff {name : String} {body : List UInt8} {event : Event} :
    decode name body = .ok event ↔
      (Document.ofBytes body).decode Payload.fields.record = .ok event.payload ∧
        Trigger.ofParts name (event.payload.action.getD "") = .ok event.trigger := by
  unfold decode
  cases (Document.ofBytes body).decode Payload.fields.record with
  | error reason => simp
  | ok payload =>
    dsimp only
    rw [bind_eq_ok_iff]
    constructor
    · rintro ⟨trigger, parsed, same⟩
      cases same
      exact ⟨rfl, parsed⟩
    · rintro ⟨same, parsed⟩
      cases same
      exact ⟨event.trigger, parsed, rfl⟩

/-- Every text of a payload is decoded as the payload, under the trigger that its action makes. -/
theorem decode_encode {name action : String} {trigger : Trigger} {payload : Payload} {node : Node}
    {text : List Char} (acts : payload.action = some action)
    (keyed : name ++ "." ++ action = trigger.key) (small : ∀ n ∈ payload.numbers, n < Decimal.wordBound)
    (form : payload.form node) (written : TextOf node text) :
    decode name (Utf8.encode text) = .ok ⟨trigger, payload⟩ := by
  have complete : node.Complete := written.complete node (List.mem_singleton_self node)
  have read : Payload.fields.record node = .ok payload :=
    (Payload.reads_payload small).object node complete form
  have parsed : Trigger.ofParts name action = .ok trigger := by
    rw [Trigger.ofParts, keyed, Trigger.parse_key]
  refine decode_eq_ok_iff.mpr ⟨Json.decode_eq_ok_iff.mpr ?_, ?_⟩
  · rw [ofBytes_encode written]
    exact ⟨read, rfl⟩
  · dsimp only
    rw [acts]
    exact parsed

/-- An issue with the greatest number that fits, with an escape in a key, a blank, a field that nobody
reads, and without the fields that it does not need. -/
theorem decode_encode_opened :
    decode "issues" (Utf8.encode
        ("\x7b \"sender\":[],\"issue\":\x7b\"number\":18446744073709551615,\"html_url\":\"x\"\x7d,".toList ++
          "\"\\u0061ction\":\"opened\"\x7d".toList)) =
      .ok ⟨.issueOpened, ⟨some "opened", some ⟨"x", 18446744073709551615, []⟩, none, none, none, none,
        none⟩⟩ := by
  have noBlanks : Blanks [] := by decide
  have sender : Written (.member (some "sender") (.array [] true)) (' ' :: "\"sender\":[]".toList) :=
    .member (by decide : Blanks [' ']) (stringText_chars (by decide)) noBlanks
      (Written.emptyArray noBlanks).plain
  have number : Written (.value (.number ⟨false, "18446744073709551615".toList, none, none⟩))
      "18446744073709551615".toList :=
    .number ⟨⟨by decide, fun _ same => by cases same⟩, [], [], .absent, .absent, rfl⟩
  have url : Written (.value (.string (some "x"))) "\"x\"".toList :=
    .string (stringText_chars (by decide))
  have issue := Written.object (.nextMember (.plainMember (by decide : Plain "number".toList) number)
    (.lastMember (.plainMember (by decide : Plain "html_url".toList) url)))
  have letter : QuotedText (.unit 0x61 :: "ction".toList.map .char) "\\u0061ction".toList := by
    have digit : HexDigit '0' 0 := ⟨by decide, .inl rfl⟩
    exact .unit digit digit (⟨by decide, .inl rfl⟩ : HexDigit '6' 6)
      (⟨by decide, .inl rfl⟩ : HexDigit '1' 1) (quotedText_chars (by decide))
  have key : StringText (some "action") "\"\\u0061ction\"".toList :=
    stringText_of_denotes letter (.unit 'a' (by decide) (denotes_chars "ction".toList))
  have action := Written.member noBlanks key noBlanks
    (Written.string (stringText_chars (by decide : Plain "opened".toList))).plain
  have written := (Written.object (.nextMember sender
    (.nextMember (.plainMember (by decide : Plain "issue".toList) issue) (.lastMember action)))).plain
  refine decode_encode rfl (by decide) (by decide) ⟨_, rfl, by decide, ?_⟩ written
  have form : Payload.Issue.form ⟨"x", 18446744073709551615, []⟩ (.object
      [(some "number", .number ⟨false, "18446744073709551615".toList, none, none⟩),
        (some "html_url", .string (some "x"))] true) := by
    refine ⟨_, rfl, by decide, ?_⟩
    refine List.forall_mem_cons.mpr ⟨.inr ⟨_, rfl, rfl⟩, ?_⟩
    exact List.forall_mem_cons.mpr
      ⟨.inr ⟨_, rfl, rfl⟩, List.forall_mem_singleton.mpr (.inl ⟨rfl, rfl⟩)⟩
  intro entry member
  simp only [Payload.entries, List.mem_cons, List.not_mem_nil, or_false] at member
  rcases member with rfl | rfl | rfl | rfl | rfl | rfl | rfl
  · exact .inr ⟨_, rfl, rfl⟩
  · exact .inr ⟨_, rfl, form⟩
  all_goals exact .inl ⟨rfl, rfl⟩

end Event

end BoardRules
