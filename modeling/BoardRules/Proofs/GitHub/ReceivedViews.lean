import BoardRules.GitHub.Reply
import BoardRules.Proofs.Json.Forms
import BoardRules.Proofs.Json.Printing

/-!
# Views from replies

The forms in which a reply lists boards, columns and cards: in lists with nulls among the entries, with
absent values null or left out, and with the rest of what the service knows around them. Every such reply
is understood as the view that it lists, in the same order.
-/
namespace BoardRules.GitHub

open Json Text

/-! ## Forms -/

/-- A list in which nulls may stand anywhere. -/
def nodesForm {α : Type} (form : α → Form) (items : List α) : Form :=
  fun node => ∃ entries : List (Option α), entries.filterMap id = items ∧
    Form.object [.withDefault "nodes" (Form.list (Form.option form)) [] entries] node

def cardForm (card : Card) : Form :=
  .object [.required "id" Form.text card.id.text, .possible "note" Form.text card.note,
    .possible "url" Form.text card.url]

def columnForm (column : Column) : Form :=
  .object [.required "id" Form.text column.id.text, .withDefault "name" Form.text "" column.name,
    .possible "url" Form.text column.url,
    .withDefault "firstCards" (nodesForm cardForm) [] column.leading,
    .withDefault "lastCards" (nodesForm cardForm) [] column.trailing]

def boardForm (board : Board) : Form :=
  .object [.required "id" Form.text board.id.text, .withDefault "name" Form.text "" board.name,
    .withDefault "columns" (nodesForm columnForm) [] board.columns]

def projectsEntry (boards : Option (List Board)) : Entry :=
  .possible "projects" (nodesForm boardForm) boards

def ownerForm (boards : Option (List Board)) : Form := .object [projectsEntry boards]

/-- An owner without boards need not be there. -/
def repositoryForm (found : RepositoryBoards) : Form :=
  .object [.withDefault "owner" ownerForm none found.ownerBoards, projectsEntry found.boards]

def entityBoardsForm (found : EntityBoards) : Form :=
  .object [.possible "id" Form.text (some found.entity.text),
    .possible "repository" repositoryForm (some ⟨found.ownerBoards, found.repositoryBoards⟩)]

def columnRefForm (column : ColumnRef) : Form :=
  .object [.required "id" Form.text column.id.text, .required "name" Form.text column.name]

def membershipForm (membership : Membership) : Form :=
  .object [.required "id" Form.text membership.card.text, .possible "url" Form.text membership.url,
    .possible "column" columnRefForm membership.column, .required "project" boardForm membership.board]

def membershipsForm (found : EntityMemberships) : Form :=
  .object [.possible "id" Form.text (found.entity.map (·.text)),
    .possible "projectCards" (nodesForm membershipForm) found.cards]

/-- The fields of what a card stands for, with an id if it is an issue. -/
def contentForm (id : Option String) (closed : Bool) (number : Nat) : Form :=
  .object [.possible "id" Form.text id, .withDefault "closed" Form.truth false closed,
    .withDefault "number" Form.count 0 number]

/-- A card can stand for something that is no issue. -/
def linkedForm : Option LinkedEntity → Form
  | some entity => contentForm (some entity.id.text) entity.closed entity.number
  | none => fun node => ∃ closed number, number < Decimal.wordBound ∧ contentForm none closed number node

def contextForm (context : CardContext) : Form :=
  fun node => ∃ content : Option (Option LinkedEntity), content.join = context.content ∧
    Form.object [.possible "content" linkedForm content,
      .possible "column" columnForm (some context.column)] node

def errorForm (message : String) : Form := .object [.required "message" Form.text message]

/-- A reply without errors to a query for one object. -/
def replyForm (name : String) (form : Form) : Form :=
  .object [⟨"data", False, .object [⟨name, False, form⟩]⟩,
    .withDefault "errors" (Form.list errorForm) [] []]

/-! ## Decoding -/

theorem reads_nodes {α : Type} {decode : Decoder α} {form : α → Form} {items : List α}
    (refuses : ∀ found, decode .null ≠ .ok found)
    (reads : ∀ item ∈ items, Reads decode (form item) item) :
    Reads (nodes decode) (nodesForm form items) items := by
  rintro node complete ⟨entries, rfl, object⟩
  have entry : ∀ entry ∈ entries, Reads (optional decode) (Form.option form entry) entry := by
    rintro entry member
    refine reads_optional refuses fun item same => reads item ?_
    exact List.mem_filterMap.mpr ⟨entry, member, same⟩
  have list := Fields.reads_withDefault "nodes" [] (careful_list _) (reads_list entry)
  exact (Fields.reads_map (f := fun entries => entries.filterMap id) list).object node complete object

theorem reads_card (value : Card) : Reads card (cardForm value) value := by
  have id := Fields.reads_text "id" value.id.text
  have note := Fields.reads_possibleText "note" value.note
  have url := Fields.reads_possibleText "url" value.url
  have read := Fields.reads_map (f := fun id note url => (⟨⟨id⟩, note, url⟩ : Card)) id
  have read := Fields.reads_seq read note (by simp)
  exact (Fields.reads_seq read url (by simp)).object

theorem reads_cards (cards : List Card) : Reads (nodes card) (nodesForm cardForm cards) cards :=
  reads_nodes nofun fun card _ => reads_card card

theorem reads_column (value : Column) : Reads column (columnForm value) value := by
  have id := Fields.reads_text "id" value.id.text
  have name := Fields.reads_withDefault "name" "" careful_string (reads_string value.name)
  have url := Fields.reads_possibleText "url" value.url
  have leading := Fields.reads_withDefault "firstCards" [] (careful_record _)
    (reads_cards value.leading)
  have trailing := Fields.reads_withDefault "lastCards" [] (careful_record _)
    (reads_cards value.trailing)
  have read := Fields.reads_map
    (f := fun id name url leading trailing => (⟨⟨id⟩, name, url, leading, trailing⟩ : Column)) id
  have read := Fields.reads_seq read name (by simp)
  have read := Fields.reads_seq read url (by simp)
  have read := Fields.reads_seq read leading (by simp)
  exact (Fields.reads_seq read trailing (by simp)).object

theorem reads_board (value : Board) : Reads board (boardForm value) value := by
  have id := Fields.reads_text "id" value.id.text
  have name := Fields.reads_withDefault "name" "" careful_string (reads_string value.name)
  have listed : Reads (nodes column) (nodesForm columnForm value.columns) value.columns :=
    reads_nodes nofun fun column _ => reads_column column
  have columns := Fields.reads_withDefault "columns" [] (careful_record _) listed
  have read := Fields.reads_map (f := fun id name columns => (⟨⟨id⟩, name, columns⟩ : Board)) id
  have read := Fields.reads_seq read name (by simp)
  exact (Fields.reads_seq read columns (by simp)).object

theorem reads_projects (boards : Option (List Board)) :
    projects.Reads [projectsEntry boards] boards := by
  have listed (found : List Board) : Reads (nodes board) (nodesForm boardForm found) found :=
    reads_nodes nofun fun board _ => reads_board board
  exact Fields.reads_possible "projects" (careful_record _) nofun fun found _ => listed found

theorem reads_owner (boards : Option (List Board)) :
    Reads projects.record (ownerForm boards) boards := (reads_projects boards).object

theorem reads_repository (found : RepositoryBoards) :
    Reads repository (repositoryForm found) found := by
  have owner := Fields.reads_withDefault "owner" none (careful_record projects)
    (reads_owner found.ownerBoards)
  have read := Fields.reads_map (f := RepositoryBoards.mk) owner
  exact (Fields.reads_seq read (reads_projects found.boards) (by simp [projectsEntry])).object

theorem reads_issueBoards (found : EntityBoards) :
    Reads issueBoards (entityBoardsForm found)
      ⟨some found.entity, some ⟨found.ownerBoards, found.repositoryBoards⟩⟩ := by
  have id := Fields.reads_possibleText "id" (some found.entity.text)
  have listed := Fields.reads_possible "repository" (careful_record _) nofun
    fun boards (_ : some ⟨found.ownerBoards, found.repositoryBoards⟩ = some boards) =>
      reads_repository boards
  have read := Fields.reads_map
    (f := fun id repository => (⟨id.map EntityId.mk, repository⟩ : IssueBoards)) id
  exact (Fields.reads_seq read listed (by simp)).object

theorem reads_columnRef (value : ColumnRef) : Reads columnRef (columnRefForm value) value := by
  have id := Fields.reads_text "id" value.id.text
  have name := Fields.reads_text "name" value.name
  have read := Fields.reads_map (f := fun id name => (⟨⟨id⟩, name⟩ : ColumnRef)) id
  exact (Fields.reads_seq read name (by simp)).object

theorem reads_membership (value : Membership) :
    Reads membership (membershipForm value) value := by
  have id := Fields.reads_text "id" value.card.text
  have url := Fields.reads_possibleText "url" value.url
  have column := Fields.reads_possible "column" (careful_record _) nofun
    fun column (_ : value.column = some column) => reads_columnRef column
  have project := Fields.reads_required "project" (careful_record _) (reads_board value.board)
  have read := Fields.reads_map
    (f := fun id url column board => (⟨⟨id⟩, url, column, board⟩ : Membership)) id
  have read := Fields.reads_seq read url (by simp)
  have read := Fields.reads_seq read column (by simp)
  exact (Fields.reads_seq read project (by simp)).object

theorem reads_memberships (found : EntityMemberships) :
    Reads memberships (membershipsForm found) found := by
  have id := Fields.reads_possibleText "id" (found.entity.map (·.text))
  have listed (cards : List Membership) :
      Reads (nodes membership) (nodesForm membershipForm cards) cards :=
    reads_nodes nofun fun membership _ => reads_membership membership
  have cards := Fields.reads_possible "projectCards" (careful_record _) nofun
    fun cards (_ : found.cards = some cards) => listed cards
  have read := Fields.reads_map
    (f := fun id cards => (⟨id.map EntityId.mk, cards⟩ : EntityMemberships)) id
  have read := (Fields.reads_seq read cards (by simp)).object
  have same : (found.entity.map (·.text)).map EntityId.mk = found.entity := by
    cases found.entity <;> rfl
  rwa [same] at read

theorem reads_content {number : Nat} (small : number < Decimal.wordBound) (id : Option String)
    (closed : Bool) :
    Reads linkedEntity (contentForm id closed number) (id.map fun id => ⟨⟨id⟩, number, closed⟩) := by
  have id := Fields.reads_possibleText "id" id
  have closed := Fields.reads_withDefault "closed" false careful_bool (reads_bool closed)
  have number := Fields.reads_withDefault "number" 0 careful_word (reads_word small)
  have read := Fields.reads_map (f := fun id closed number =>
    id.map fun id => (⟨⟨id⟩, number, closed⟩ : LinkedEntity)) id
  have read := Fields.reads_seq read closed (by simp)
  exact (Fields.reads_seq read number (by simp)).object

theorem reads_linked {content : Option LinkedEntity}
    (small : ∀ entity, content = some entity → entity.number < Decimal.wordBound) :
    Reads linkedEntity (linkedForm content) content := by
  cases content with
  | some entity => exact reads_content (small entity rfl) (some entity.id.text) entity.closed
  | none =>
    rintro node complete ⟨closed, number, fits, form⟩
    exact reads_content fits none closed node complete form

theorem reads_context {context : CardContext}
    (small : ∀ entity, context.content = some entity → entity.number < Decimal.wordBound) :
    Reads cardPlace (contextForm context) ⟨context.content, some context.column⟩ := by
  rintro node complete ⟨content, joined, object⟩
  have linked := Fields.reads_possible "content" (careful_record _) nofun
    fun found (same : content = some found) => reads_linked fun entity known =>
      small entity (by rw [← joined, same, known]; rfl)
  have column := Fields.reads_possible "column" (careful_record _) nofun
    fun column (_ : some context.column = some column) => reads_column column
  have read := Fields.reads_map
    (f := fun content column => (⟨content.join, column⟩ : CardPlace)) linked
  have read := (Fields.reads_seq read column (by simp)).object node complete object
  rwa [joined] at read

/-! ## Replies -/

theorem reads_error (message : String) : Reads errorText (errorForm message) message :=
  (Fields.reads_text "message" message).object

theorem reads_reply {α : Type} (name : String) {decode : Decoder α} {form : Form} {value : α}
    (careful : Careful decode) (refuses : ∀ found, decode .null ≠ .ok found)
    (reads : Reads decode form value) :
    Reads (Envelope.fields (lookUp name decode)).record (replyForm name form)
      ⟨some (some value), []⟩ := by
  have found : Reads (lookUp name decode) (.object [⟨name, False, form⟩]) (some value) :=
    (Fields.reads_maybe name careful refuses reads).object
  have data := Fields.reads_maybe "data" (careful_record (Fields.maybe name decode)) nofun found
  have errors := Fields.reads_withDefault "errors" [] (careful_list errorText)
    (reads_list fun message (_ : message ∈ []) => reads_error message)
  have read := Fields.reads_map (f := Envelope.mk) data
  exact (Fields.reads_seq read errors (by simp)).object

/-- A response without failure whose body is a text of the form. -/
def Carries (response : Response) (form : Form) : Prop :=
  response.isFailure = false ∧ ∃ node text, form node ∧ TextOf node text ∧
    response.body = Utf8.encode text

/-- What a response carries is what it is decoded as. -/
theorem content_of_carries {α : Type} {decode : Decoder α} {form : Form} {value : α}
    {response : Response} (reads : Reads decode form value) (carries : Carries response form) :
    content decode response = .ok value := by
  obtain ⟨success, node, text, shape, written, body⟩ := carries
  have complete := written.complete node (List.mem_singleton_self node)
  have decoded : (Document.ofBytes response.body).decode decode = .ok value := by
    rw [body, ofBytes_encode written]
    exact decode_eq_ok_iff.mpr ⟨reads node complete shape, rfl⟩
  unfold content
  rw [success, decoded]
  rfl

/-- A reply that shows an object gives it out. -/
theorem data_of_reply {α : Type} {name : String} {decode : Decoder α} {form : Form} {value : α}
    {response : Response} (careful : Careful decode) (refuses : ∀ found, decode .null ≠ .ok found)
    (reads : Reads decode form value) (carries : Carries response (replyForm name form)) :
    data (lookUp name decode) response = .ok (some value) := by
  unfold data
  rw [content_of_carries (reads_reply name careful refuses reads) carries]
  rfl

/-! ## Replies that are written

A board with two columns is shown to three queries. Cards, columns and boards are hidden among the nodes,
values that go without saying are left out, and there are fields that nobody asked for. -/

/-- A list of nodes, next to a count that nobody asked for. -/
def nodesValue (nodes : List Value) : Value :=
  .object [("totalCount", .number ⟨false, ['9'], none, none⟩), ("nodes", .array nodes)]

theorem nodesForm_nodesValue {α : Type} {form : α → Form} (entries : List (Option α))
    {nodes : List Value} (each : List.Forall₂ (Form.option form) entries (itemNodes nodes)) :
    nodesForm form (entries.filterMap id) (nodesValue nodes).node :=
  ⟨entries, rfl, object_node (.inr ⟨_, rfl, _, rfl, each⟩)⟩

def ruleCard : Card := ⟨⟨"a"⟩, some "- `rule`\n", none⟩

def issueCard : Card := ⟨⟨"b"⟩, none, some "u"⟩

def toDo : Column := ⟨⟨"c"⟩, "To do", none, [ruleCard], [ruleCard, issueCard]⟩

def unnamed : Column := ⟨⟨"d"⟩, "", some "v", [], []⟩

def plan : Board := ⟨⟨"p"⟩, "Plan", [toDo, unnamed]⟩

def ruleCardValue : Value :=
  .object [("note", .string "- `rule`\n"), ("id", .string "a"), ("isArchived", .bool false)]

def issueCardValue : Value :=
  .object [("id", .string "b"), ("note", .null), ("url", .string "u")]

/-- Hidden cards stand in both windows. -/
def toDoValue : Value :=
  .object [("lastCards", nodesValue [.null, ruleCardValue, issueCardValue, .null]),
    ("firstCards", nodesValue [.null, ruleCardValue]), ("name", .string "To do"), ("id", .string "c")]

def unnamedValue : Value :=
  .object [("firstCards", nodesValue [.null]), ("url", .string "v"), ("id", .string "d")]

def planValue : Value :=
  .object [("columns", nodesValue [toDoValue, .null, unnamedValue]), ("name", .string "Plan"),
    ("labels", .array [.null]), ("id", .string "p")]

theorem columnForm_toDoValue : columnForm toDo toDoValue.node := by
  have rule : cardForm ruleCard ruleCardValue.node :=
    object_node ⟨.inr ⟨_, rfl, rfl⟩, .inr ⟨_, rfl, rfl⟩, .inl ⟨rfl, rfl⟩⟩
  have issue : cardForm issueCard issueCardValue.node :=
    object_node ⟨.inr ⟨_, rfl, rfl⟩, .inr ⟨_, rfl, rfl⟩, .inr ⟨_, rfl, rfl⟩⟩
  have leading : nodesForm cardForm toDo.leading (nodesValue [.null, ruleCardValue]).node :=
    nodesForm_nodesValue [none, some ruleCard] (.cons rfl (.cons rule .nil))
  have trailing : nodesForm cardForm toDo.trailing
      (nodesValue [.null, ruleCardValue, issueCardValue, .null]).node :=
    nodesForm_nodesValue [none, some ruleCard, some issueCard, none]
      (.cons rfl (.cons rule (.cons issue (.cons rfl .nil))))
  exact object_node ⟨.inr ⟨_, rfl, rfl⟩, .inr ⟨_, rfl, rfl⟩, .inl ⟨rfl, rfl⟩, .inr ⟨_, rfl, leading⟩,
    .inr ⟨_, rfl, trailing⟩⟩

theorem boardForm_planValue : boardForm plan planValue.node := by
  have none_leading : nodesForm cardForm [] (nodesValue [.null]).node :=
    nodesForm_nodesValue [none] (.cons rfl .nil)
  have unnamed_column : columnForm unnamed unnamedValue.node :=
    object_node ⟨.inr ⟨_, rfl, rfl⟩, .inl ⟨rfl, rfl⟩, .inr ⟨_, rfl, rfl⟩, .inr ⟨_, rfl, none_leading⟩,
      .inl ⟨rfl, rfl⟩⟩
  have columns : nodesForm columnForm plan.columns
      (nodesValue [toDoValue, .null, unnamedValue]).node :=
    nodesForm_nodesValue [some toDo, none, some unnamed]
      (.cons columnForm_toDoValue (.cons rfl (.cons unnamed_column .nil)))
  exact object_node ⟨.inr ⟨_, rfl, rfl⟩, .inr ⟨_, rfl, rfl⟩, .inr ⟨_, rfl, columns⟩⟩

def backlog : Board := ⟨⟨"q"⟩, "", []⟩

def backlogValue : Value := .object [("id", .string "q"), ("columns", nodesValue [])]

theorem boardForm_backlogValue : boardForm backlog backlogValue.node := by
  have columns : nodesForm columnForm [] (nodesValue []).node :=
    nodesForm_nodesValue [] .nil
  exact object_node ⟨.inr ⟨_, rfl, rfl⟩, .inl ⟨rfl, rfl⟩, .inr ⟨_, rfl, columns⟩⟩

/-- The reply to a query, with its costs. -/
def replyValue (name : String) (object : Value) : Value :=
  .object [("extensions", .object [("cost", .number ⟨false, ['1'], none, none⟩)]),
    ("data", .object [("rateLimit", .null), (name, object)])]

theorem carries_replyValue {name : String} {object : Value} {form : Form}
    (other : name ≠ "rateLimit") (proper : object.Proper) (shown : form object.node) :
    Carries ⟨200, Utf8.encode (replyValue name object).write⟩ (replyForm name form) := by
  have properReply : (replyValue name object).Proper :=
    ⟨⟨Numeral.proper_digit rfl, trivial⟩, ⟨trivial, proper, trivial⟩, trivial⟩
  refine ⟨rfl, _, _, ?_, Value.textOf_write properReply, rfl⟩
  refine object_node ⟨.inr ⟨_, rfl, object_node (.inr ⟨_, ?_, shown⟩)⟩, .inl ⟨rfl, rfl⟩⟩
  simp [valuesAt, memberNodes, other.symm]

/-- Boards of the owner and of the repository. -/
def boardsValue : Value :=
  .object [("repository", .object [("projects", nodesValue [.null, backlogValue]),
      ("owner", .object [("__typename", .string "User"), ("projects", nodesValue [planValue, .null])])]),
    ("id", .string "i")]

/-- One card in a column, and one that has not been sorted in. -/
def membershipsValue : Value :=
  .object [("projectCards", nodesValue [.null,
      .object [("project", planValue), ("id", .string "b"),
        ("column", .object [("name", .string "To do"), ("id", .string "c")])],
      .object [("column", .null), ("url", .string "w"), ("id", .string "x"),
        ("project", backlogValue)]]),
    ("id", .string "i")]

def contextValue : Value :=
  .object [("column", toDoValue), ("content", .object [("closed", .bool true),
    ("number", .number ⟨false, ['7'], none, none⟩), ("id", .string "i")])]

theorem proper_toDoValue : toDoValue.Proper := by
  simp [toDoValue, nodesValue, ruleCardValue, issueCardValue, Value.Proper, ProperMembers,
    ProperItems, Numeral.proper_digit]

theorem proper_planValue : planValue.Proper := by
  simp [planValue, unnamedValue, nodesValue, Value.Proper, ProperMembers, ProperItems,
    Numeral.proper_digit, proper_toDoValue]

theorem proper_backlogValue : backlogValue.Proper := by
  simp [backlogValue, nodesValue, Value.Proper, ProperMembers, ProperItems, Numeral.proper_digit]

theorem proper_boardsValue : boardsValue.Proper := by
  simp [boardsValue, nodesValue, Value.Proper, ProperMembers, ProperItems, Numeral.proper_digit,
    proper_planValue, proper_backlogValue]

theorem proper_membershipsValue : membershipsValue.Proper := by
  simp [membershipsValue, nodesValue, Value.Proper, ProperMembers, ProperItems,
    Numeral.proper_digit, proper_planValue, proper_backlogValue]

theorem proper_contextValue : contextValue.Proper := by
  simp [contextValue, Value.Proper, ProperMembers, Numeral.proper_digit, proper_toDoValue]

theorem form_boardsValue :
    entityBoardsForm ⟨⟨"i"⟩, some [plan], some [backlog]⟩ boardsValue.node := by
  have owned : nodesForm boardForm [plan] (nodesValue [planValue, .null]).node :=
    nodesForm_nodesValue [some plan, none] (.cons boardForm_planValue (.cons rfl .nil))
  have own : nodesForm boardForm [backlog] (nodesValue [.null, backlogValue]).node :=
    nodesForm_nodesValue [none, some backlog] (.cons rfl (.cons boardForm_backlogValue .nil))
  refine object_node ⟨.inr ⟨_, rfl, rfl⟩, .inr ⟨_, rfl, object_node ⟨?_, .inr ⟨_, rfl, own⟩⟩⟩⟩
  exact .inr ⟨_, rfl, object_node (.inr ⟨_, rfl, owned⟩)⟩

theorem form_membershipsValue :
    membershipsForm ⟨some ⟨"i"⟩, some [⟨⟨"b"⟩, none, some ⟨⟨"c"⟩, "To do"⟩, plan⟩,
      ⟨⟨"x"⟩, some "w", none, backlog⟩]⟩ membershipsValue.node := by
  have column : columnRefForm ⟨⟨"c"⟩, "To do"⟩
      (Value.object [("name", .string "To do"), ("id", .string "c")]).node :=
    object_node ⟨.inr ⟨_, rfl, rfl⟩, .inr ⟨_, rfl, rfl⟩⟩
  refine object_node ⟨.inr ⟨_, rfl, rfl⟩, .inr ⟨_, rfl, ?_⟩⟩
  refine nodesForm_nodesValue [none, some _, some _] (.cons rfl (.cons ?_ (.cons ?_ .nil)))
  · exact object_node ⟨.inr ⟨_, rfl, rfl⟩, .inl ⟨rfl, rfl⟩, .inr ⟨_, rfl, column⟩,
      .inr ⟨_, rfl, boardForm_planValue⟩⟩
  · exact object_node ⟨.inr ⟨_, rfl, rfl⟩, .inr ⟨_, rfl, rfl⟩, .inr ⟨_, rfl, rfl⟩,
      .inr ⟨_, rfl, boardForm_backlogValue⟩⟩

theorem form_contextValue : contextForm ⟨some ⟨⟨"i"⟩, 7, true⟩, toDo⟩ contextValue.node := by
  have linked : linkedForm (some ⟨⟨"i"⟩, 7, true⟩) (Value.object [("closed", .bool true),
      ("number", .number ⟨false, ['7'], none, none⟩), ("id", .string "i")]).node :=
    object_node ⟨.inr ⟨_, rfl, rfl⟩, .inr ⟨_, rfl, rfl⟩, .inr ⟨_, rfl, rfl⟩⟩
  exact ⟨some (some _), rfl,
    object_node ⟨.inr ⟨_, rfl, linked⟩, .inr ⟨_, rfl, columnForm_toDoValue⟩⟩⟩

/-! ## Views -/

/-- A reply that lists a view is understood as that view. -/
theorem answer_of_reply (response : Response) :
    (∀ url found, Carries response (replyForm "resource" (entityBoardsForm found)) →
      answer (.boardsForEntity url) response = .ok found) ∧
    (∀ url found, Carries response (replyForm "resource" (membershipsForm found)) →
      answer (.cardMemberships url) response = .ok found) ∧
    ∀ card context, (∀ entity, context.content = some entity → entity.number < Decimal.wordBound) →
      Carries response (replyForm "node" (contextForm context)) →
      answer (.cardContext card) response = .ok context := by
  refine ⟨?_, ?_, ?_⟩
  · intro url found carries
    have told : data (lookUp "resource" issueBoards) response = .ok (some _) :=
      data_of_reply (careful_record _) nofun (reads_issueBoards found) carries
    unfold answer
    dsimp only
    rw [told]
    rfl
  · intro url found carries
    have told : data (lookUp "resource" memberships) response = .ok (some _) :=
      data_of_reply (careful_record _) nofun (reads_memberships found) carries
    unfold answer
    dsimp only
    rw [told]
    rfl
  · intro card context small carries
    have told : data (lookUp "node" cardPlace) response = .ok (some _) :=
      data_of_reply (careful_record _) nofun (reads_context small) carries
    unfold answer
    dsimp only
    rw [told]
    rfl

/-- Replies that show the same board from three sides, with hidden boards, columns and cards. -/
theorem answer_of_reply_hidden :
    answer (.boardsForEntity ⟨.https, "h", "o", "r", .issue, 7⟩)
      ⟨200, Utf8.encode (replyValue "resource" boardsValue).write⟩ =
        .ok ⟨⟨"i"⟩, some [plan], some [backlog]⟩ ∧
    answer (.cardMemberships ⟨.https, "h", "o", "r", .issue, 7⟩)
      ⟨200, Utf8.encode (replyValue "resource" membershipsValue).write⟩ =
        .ok ⟨some ⟨"i"⟩, some [⟨⟨"b"⟩, none, some ⟨⟨"c"⟩, "To do"⟩, plan⟩,
          ⟨⟨"x"⟩, some "w", none, backlog⟩]⟩ ∧
    answer (.cardContext ⟨"b"⟩) ⟨200, Utf8.encode (replyValue "node" contextValue).write⟩ =
      .ok ⟨some ⟨⟨"i"⟩, 7, true⟩, toDo⟩ := by
  have small : ∀ entity, some (⟨⟨"i"⟩, 7, true⟩ : LinkedEntity) = some entity →
      entity.number < Decimal.wordBound := by
    rintro _ ⟨⟩
    decide
  refine ⟨?_, ?_, ?_⟩
  · exact (answer_of_reply _).1 _ _
      (carries_replyValue (by decide) proper_boardsValue form_boardsValue)
  · exact (answer_of_reply _).2.1 _ _
      (carries_replyValue (by decide) proper_membershipsValue form_membershipsValue)
  · exact (answer_of_reply _).2.2 _ _ small
      (carries_replyValue (by decide) proper_contextValue form_contextValue)

end BoardRules.GitHub
