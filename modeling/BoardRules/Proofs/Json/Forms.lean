import BoardRules.Proofs.Json.Records
import Mathlib.Data.List.Forall2

/-!
# Forms of values

A form says which trees stand for a value. An object stands for its entries: each of them is there
once, or is left out where that means the same, and what else the object holds does not matter. A
decoder reads a form if it gives the value back for every tree of the form.
-/
namespace BoardRules.Json

open Text

/-! ## Complete trees -/

/-- A tree whose text has been read to its end. -/
inductive Node.Complete : Node → Prop where
  | null : Complete .null
  | bool (b : Bool) : Complete (.bool b)
  | number (n : Numeral) : Complete (.number n)
  | string (value : Option String) : Complete (.string value)
  | array {items : List Node} : (∀ item ∈ items, item.Complete) → Complete (.array items true)
  | object {members : List (Option String × Node)} :
      (∀ member ∈ members, member.2.Complete) → Complete (.object members true)

theorem Node.Complete.isWellFormed {node : Node} (complete : node.Complete) :
    node.isWellFormed = true := by
  cases complete <;> rfl

/-- The trees of a part of a text. -/
def Piece.nodes : Piece → List Node
  | .value node => [node]
  | .padded node => [node]
  | .items nodes => nodes
  | .member _ node => [node]
  | .members entries => entries.map (·.2)

theorem Written.complete {piece : Piece} {text : List Char} (written : Written piece text) :
    ∀ node ∈ piece.nodes, node.Complete := by
  induction written with
  | nullWord => exact List.forall_mem_singleton.mpr .null
  | trueWord => exact List.forall_mem_singleton.mpr (.bool true)
  | falseWord => exact List.forall_mem_singleton.mpr (.bool false)
  | number _ => exact List.forall_mem_singleton.mpr (.number _)
  | string _ => exact List.forall_mem_singleton.mpr (.string _)
  | emptyArray _ => exact List.forall_mem_singleton.mpr (.array fun _ member => by cases member)
  | array _ items => exact List.forall_mem_singleton.mpr (.array items)
  | emptyObject _ => exact List.forall_mem_singleton.mpr (.object fun _ member => by cases member)
  | object _ members =>
    refine List.forall_mem_singleton.mpr (.object fun member held => ?_)
    exact members _ (List.mem_map_of_mem held)
  | padded _ _ _ value => exact value
  | lastItem _ item => exact item
  | item _ _ first others =>
    exact List.forall_mem_cons.mpr ⟨first _ List.mem_cons_self, others⟩
  | member _ _ _ _ value => exact value
  | lastMember _ member => exact member
  | nextMember _ _ first others =>
    exact List.forall_mem_cons.mpr ⟨first _ List.mem_cons_self, others⟩

/-! ## Forms -/

/-- Which trees stand for a value. -/
abbrev Form := Node → Prop

/-- The values that an object holds under a name. -/
def valuesAt (name : String) (members : List (Option String × Node)) : List Node :=
  members.filterMap fun member => if member.1 = some name then some member.2 else none

/-- What an object holds under a name. -/
structure Entry where
  name : String
  /-- Whether the object may do without it. -/
  omissible : Prop
  form : Form

def Entry.In (entry : Entry) (members : List (Option String × Node)) : Prop :=
  (valuesAt entry.name members = [] ∧ entry.omissible) ∨
    ∃ node, valuesAt entry.name members = [node] ∧ entry.form node

namespace Form

variable {α : Type}

def text (value : String) : Form := fun node => node = .string (some value)

def truth (value : Bool) : Form := fun node => node = .bool value

/-- A natural number is written with its digits alone. -/
def count (value : Nat) : Form :=
  fun node => node = .number ⟨false, Decimal.render value, none, none⟩

def option (form : α → Form) : Option α → Form
  | none => fun node => node = .null
  | some value => form value

def list (form : α → Form) (values : List α) : Form :=
  fun node => ∃ items, node = .array items true ∧ List.Forall₂ form values items

/-- The members stand in any order, and there may be others among them. -/
def object (entries : List Entry) : Form :=
  fun node => ∃ members, node = .object members true ∧ (∀ member ∈ members, member.1.isSome) ∧
    ∀ entry ∈ entries, entry.In members

end Form

namespace Entry

variable {α : Type}

def required (name : String) (form : α → Form) (value : α) : Entry := ⟨name, False, form value⟩

/-- Without a value the entry is null or left out. -/
def possible (name : String) (form : α → Form) (value : Option α) : Entry :=
  ⟨name, value = none, Form.option form value⟩

/-- The entry may be left out for a value that goes without saying. -/
def withDefault (name : String) (form : α → Form) (fallback value : α) : Entry :=
  ⟨name, value = fallback, form value⟩

@[simp] theorem name_required (name : String) (form : α → Form) (value : α) :
    (required name form value).name = name := rfl

@[simp] theorem name_possible (name : String) (form : α → Form) (value : Option α) :
    (possible name form value).name = name := rfl

@[simp] theorem name_withDefault (name : String) (form : α → Form) (fallback value : α) :
    (withDefault name form fallback value).name = name := rfl

end Entry

/-! ## Decoders of forms -/

/-- The decoder finds the value in every tree of the form. -/
def Reads {α : Type} (decode : Decoder α) (form : Form) (value : α) : Prop :=
  ∀ node, node.Complete → form node → decode node = .ok value

variable {α β : Type}

theorem reads_string (value : String) : Reads string (Form.text value) value := by
  rintro _ _ rfl
  rfl

theorem reads_bool (value : Bool) : Reads bool (Form.truth value) value := by
  rintro _ _ rfl
  rfl

theorem reads_word {value : Nat} (small : value < Decimal.wordBound) :
    Reads word (Form.count value) value := by
  rintro _ _ rfl
  have digits : Decimal.value (Decimal.render value) = value :=
    Nat.ofDigitChars_toDigits (by decide) (by decide)
  simp [word, Numeral.word?, Numeral.isInteger, digits, small]

theorem reads_present {decode : Decoder α} {form : Form} {value : α}
    (refuses : ∀ found, decode .null ≠ .ok found) (reads : Reads decode form value) :
    Reads (optional decode) form (some value) := by
  intro node complete written
  have read := reads node complete written
  unfold optional
  split
  · exact absurd read (refuses value)
  · rw [read]
    rfl

theorem reads_optional {decode : Decoder α} {form : α → Form} {value : Option α}
    (refuses : ∀ found, decode .null ≠ .ok found)
    (reads : ∀ found, value = some found → Reads decode (form found) found) :
    Reads (optional decode) (Form.option form value) value := by
  cases value with
  | none =>
    rintro _ _ rfl
    rfl
  | some value => exact reads_present refuses (reads value rfl)

/-- What the items mean is found item by item. -/
theorem reads_list_map {decode : Decoder β} {form : α → Form} {f : α → β} {values : List α}
    (reads : ∀ value ∈ values, Reads decode (form value) (f value)) :
    Reads (list decode) (Form.list form values) (values.map f) := by
  rintro _ complete ⟨items, rfl, each⟩
  cases complete with
  | array complete =>
    have all : items.mapM decode = .ok (values.map f) := by
      induction each with
      | nil => rfl
      | @cons value item values items first _ rest =>
        have here := reads value List.mem_cons_self item (complete item List.mem_cons_self) first
        have there := rest (fun value member => reads value (List.mem_cons_of_mem _ member))
          fun item member => complete item (List.mem_cons_of_mem _ member)
        rw [List.mapM_cons, here, there]
        rfl
    unfold list
    dsimp only
    rw [all]
    rfl

theorem reads_list {decode : Decoder α} {form : α → Form} {values : List α}
    (reads : ∀ value ∈ values, Reads decode (form value) value) :
    Reads (list decode) (Form.list form values) values := by
  have each := reads_list_map (f := id) reads
  rwa [List.map_id] at each

/-! ## Records of entries -/

/-- Members with readable keys and complete values. -/
def Legible (members : List (Option String × Node)) : Prop :=
  ∀ member ∈ members, member.1.isSome ∧ member.2.Complete

/-- The fields find the value in every object with the entries. -/
structure Fields.Reads (F : Fields α) (entries : List Entry) (value : α) : Prop where
  lawful : F.Lawful (entries.map (·.name))
  record : ∀ members, Legible members → (∀ entry ∈ entries, entry.In members) →
    F.record (.object members true) = .ok value

theorem mem_of_valuesAt {name : String} {members : List (Option String × Node)} {node : Node}
    (held : valuesAt name members = [node]) : (some name, node) ∈ members := by
  obtain ⟨⟨key, found⟩, member, here⟩ :=
    List.mem_filterMap.mp (held ▸ List.mem_singleton_self node : node ∈ valuesAt name members)
  have same : (key, found) = (some name, node) := by simpa using here
  exact same ▸ member

namespace Fields

variable {F : Fields α} {names : List String} {name : String}

/-- Members of other names leave no trace. -/
theorem meets_others (lawful : F.Lawful names) {members : List (Option String × Node)}
    (legible : Legible members) (others : ∀ key ∈ names, valuesAt key members = [])
    (slots : F.Slots) : members.foldlM F.meet slots = .ok slots := by
  induction members with
  | nil => rfl
  | cons member members rest =>
    obtain ⟨keyed, complete⟩ := legible member List.mem_cons_self
    obtain ⟨_ | key, node⟩ := member
    · cases keyed
    · have outside : key ∉ names := by
        intro inside
        have none := others key inside
        simp [valuesAt] at none
      have passed : F.meet slots (some key, node) = .ok slots := by
        unfold meet
        dsimp only
        rw [(lawful.put_eq_none_iff key node slots).mpr outside]
        exact skip_return_iff.mpr ⟨complete.isWellFormed, rfl⟩
      rw [List.foldlM_cons, passed]
      refine rest (fun member held => legible member (List.mem_cons_of_mem _ held)) ?_
      intro other inside
      have none := List.filterMap_eq_nil_iff.mp (others other inside)
      exact List.filterMap_eq_nil_iff.mpr fun member held =>
        none member (List.mem_cons_of_mem _ held)

/-- The value under the only name of a record is all that it meets. -/
theorem meets_member (lawful : F.Lawful [name]) {members : List (Option String × Node)}
    (legible : Legible members) {node : Node} (held : valuesAt name members = [node])
    {slots slots' : F.Slots} (met : F.meet slots (some name, node) = .ok slots') :
    members.foldlM F.meet slots = .ok slots' := by
  obtain ⟨before, member, after, rfl, front, here, back⟩ := List.filterMap_eq_cons_iff.mp held
  have member_eq : member = (some name, node) := by
    obtain ⟨key, found⟩ := member
    simpa using here
  subst member_eq
  rw [List.foldlM_append, bind_eq_ok_iff]
  refine ⟨slots, ?_, ?_⟩
  · exact meets_others lawful (fun member held => legible member (List.mem_append_left _ held))
      (List.forall_mem_singleton.mpr (List.filterMap_eq_nil_iff.mpr front)) slots
  · rw [List.foldlM_cons, bind_eq_ok_iff]
    refine ⟨slots', met, ?_⟩
    exact meets_others lawful
      (fun member held => legible member (List.mem_append_right _ (List.mem_cons_of_mem _ held)))
      (List.forall_mem_singleton.mpr back) slots'

theorem reads_pure (value : α) : (pure value : Fields α).Reads [] value := by
  refine ⟨lawful_pure value, ?_⟩
  intro members legible _
  refine (record_object_iff _ _ _ _).mpr ⟨rfl, (), ?_, rfl⟩
  exact meets_others (lawful_pure value) legible (fun _ inside => by cases inside) _

theorem reads_single {decode : Decoder α} {omissible : Prop} {form : Form} {absent short : Option α}
    {value : α} (careful : Careful decode) (reads : Json.Reads decode form value)
    (fallback : omissible → absent = some value) :
    (single name decode absent short).Reads [⟨name, omissible, form⟩] value := by
  have lawful := lawful_single name careful absent short
  refine ⟨lawful, ?_⟩
  intro members legible entries
  rw [record_object_iff]
  rcases entries _ List.mem_cons_self with ⟨without, omitted⟩ | ⟨node, held, written⟩
  · refine ⟨rfl, none, ?_, ?_⟩
    · exact meets_others lawful legible (List.forall_mem_singleton.mpr without) _
    · simp [single, fallback omitted]
  -- The name stands once, so the slot is still empty when its value is met.
  · have complete := (legible _ (mem_of_valuesAt held)).2
    refine ⟨rfl, some value, meets_member lawful legible held ?_, rfl⟩
    simp [meet, single, reads node complete written]

variable {form : α → Form} {value : α}

theorem reads_required (name : String) {decode : Decoder α} (careful : Careful decode)
    (reads : Json.Reads decode (form value) value) :
    (required name decode).Reads [.required name form value] value :=
  reads_single careful reads False.elim

theorem reads_withDefault (name : String) {decode : Decoder α} (fallback : α)
    (careful : Careful decode) (reads : Json.Reads decode (form value) value) :
    (withDefault name decode fallback).Reads [.withDefault name form fallback value] value :=
  reads_single careful reads (by rintro rfl; rfl)

theorem reads_possible (name : String) {decode : Decoder α} {value : Option α} (careful : Careful decode)
    (refuses : ∀ found, decode .null ≠ .ok found)
    (reads : ∀ found, value = some found → Json.Reads decode (form found) found) :
    (withDefault name (optional decode) none).Reads [.possible name form value] value :=
  reads_single (careful_optional careful) (reads_optional refuses reads) (by rintro rfl; rfl)

theorem reads_text (name value : String) :
    (required name string).Reads [.required name Form.text value] value :=
  reads_required name careful_string (reads_string value)

theorem reads_possibleText (name : String) (value : Option String) :
    (withDefault name (optional string) none).Reads [.possible name Form.text value] value :=
  reads_possible name careful_string nofun fun found _ => reads_string found

/-- What may be left out can still be there. -/
theorem reads_maybe (name : String) {decode : Decoder α} {form : Form} (careful : Careful decode)
    (refuses : ∀ found, decode .null ≠ .ok found) (reads : Json.Reads decode form value) :
    (maybe name decode).Reads [⟨name, False, form⟩] (some value) :=
  reads_single (careful_optional careful) (reads_present refuses reads) False.elim

theorem reads_seq {F : Fields (α → β)} {G : Fields α} {f : α → β} {entries more : List Entry}
    (first : F.Reads entries f) (second : G.Reads more value)
    (apart : ∀ name ∈ entries.map (·.name), name ∉ more.map (·.name)) :
    (F <*> G).Reads (entries ++ more) (f value) := by
  refine ⟨?_, ?_⟩
  · rw [List.map_append]
    exact lawful_seq first.lawful second.lawful
  · intro members legible held
    refine (record_seq_iff first.lawful second.lawful apart members true _).mpr ⟨f, value, ?_, ?_, rfl⟩
    · exact first.record members legible fun entry inside => held entry (List.mem_append_left _ inside)
    · exact second.record members legible fun entry inside =>
        held entry (List.mem_append_right _ inside)

theorem reads_map {f : α → β} {entries : List Entry} (reads : F.Reads entries value) :
    (f <$> F).Reads entries (f value) :=
  reads_seq (reads_pure f) reads fun _ inside => by cases inside

theorem Reads.object {entries : List Entry} (reads : F.Reads entries value) :
    Json.Reads F.record (.object entries) value := by
  rintro _ complete ⟨members, rfl, keyed, held⟩
  cases complete with
  | object complete =>
    exact reads.record members (fun member inside => ⟨keyed member inside, complete member inside⟩)
      held

end Fields

end BoardRules.Json
