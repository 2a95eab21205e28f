import BoardRules.Proofs.Json.Forms

/-!
# What a decoded record tells about its tree

A record is decoded from the values that its tree holds, an object by their names and an array by their
places. So whoever knows the record knows these values, whichever of the two forms they had.
-/
namespace BoardRules.Json

/-- Which value of a record is meant: an object holds it under the name, an array at the place. -/
structure Key where
  name : String
  place : Nat
  deriving DecidableEq, Repr

namespace Node

def value? (key : Key) : Node → Option Node
  | .object members _ => (valuesAt key.name members).head?
  | .array items _ => items[key.place]?
  | _ => none

def text? (key : Key) (node : Node) : Option String :=
  match node.value? key with
  | some (.string text) => text
  | _ => none

/-- The value at the end of a path of keys. -/
def follow (path : List Key) (node : Node) : Option Node :=
  path.foldlM (fun node key => node.value? key) node

/-- There is a value, and it is not null. -/
def isPresent : Option Node → Bool
  | none => false
  | some .null => false
  | some _ => true

def holds (path : List Key) (node : Node) : Bool := isPresent (node.follow path)

theorem holds_singleton (key : Key) (node : Node) : node.holds [key] = isPresent (node.value? key) := by
  unfold holds follow
  rw [List.foldlM_cons]
  cases node.value? key <;> rfl

theorem holds_cons_of_eq_some {key : Key} {node object : Node} (found : node.value? key = some object)
    (path : List Key) : node.holds (key :: path) = object.holds path := by
  unfold holds follow
  rw [List.foldlM_cons, found]
  rfl

end Node

variable {α β : Type}

/-! ## Fields -/

/-- A field has been decoded from the value that stands for it, or without one it has the value that goes
without saying. -/
def Given (decode : Decoder α) (absent : Option α) (found : Option Node) (value : α) : Prop :=
  match found with
  | some node => decode node = .ok value
  | none => absent = some value

section Optional

variable {decode : Decoder α} {key : Key} {node : Node} {value : Option α}

theorem Given.isPresent_eq {found : Option Node}
    (given : Given (optional decode) (some none) found value) :
    Node.isPresent found = value.isSome := by
  cases found with
  | none =>
    obtain rfl := Option.some.inj given
    rfl
  | some node =>
    unfold Given optional at given
    dsimp only at given
    split at given
    · cases given
      rfl
    · next notNull =>
      obtain ⟨found, -, rfl⟩ := map_eq_ok_iff.mp given
      unfold Node.isPresent
      split
      · next same => cases same
      · next same => exact absurd (Option.some.inj same) notNull
      · rfl

theorem Given.holds_eq (given : Given (optional decode) (some none) (node.value? key) value) :
    node.holds [key] = value.isSome := by
  rw [Node.holds_singleton, given.isPresent_eq]

theorem Given.holds_of_some {value : α}
    (given : Given (optional decode) (some none) (node.value? key) (some value)) :
    ∃ object, decode object = .ok value ∧ ∀ path, node.holds (key :: path) = object.holds path := by
  unfold Given optional at given
  split at given
  · next object found =>
    split at given
    · cases given
    · obtain ⟨_, decoded, same⟩ := map_eq_ok_iff.mp given
      cases same
      exact ⟨object, decoded, Node.holds_cons_of_eq_some found⟩
  · cases given

end Optional

namespace Fields

variable {name : String} {decode : Decoder α} {absent short : Option α}

theorem meets_cons_iff {F : Fields α} {member : Option String × Node}
    {members : List (Option String × Node)} {slots slots' : F.Slots} :
    (member :: members).foldlM F.meet slots = .ok slots' ↔
      ∃ between, F.meet slots member = .ok between ∧ members.foldlM F.meet between = .ok slots' := by
  rw [List.foldlM_cons, bind_eq_ok_iff]

/-- A member fills an empty slot if it has the name, and else it is passed over. -/
theorem of_meet_single {member : Option String × Node} {slot slot' : Option α}
    (met : (single name decode absent short).meet slot member = .ok slot') :
    (member.1 = some name ∧ slot = none ∧
        ∃ value, decode member.2 = .ok value ∧ slot' = some value) ∨
      (member.1 ≠ some name ∧ slot' = slot) := by
  obtain ⟨_ | key, node⟩ := member
  · cases met
  · unfold meet single at met
    dsimp only at met
    by_cases named : key = name
    · rw [if_pos named] at met
      cases slot with
      | some value => cases met
      | none =>
        obtain ⟨value, decoded, same⟩ := map_eq_ok_iff.mp met
        exact .inl ⟨congrArg some named, rfl, value, decoded, same.symm⟩
    · rw [if_neg named] at met
      exact .inr ⟨fun same => named (Option.some.inj same), (skip_return_iff.mp met).2.symm⟩

/-- A full slot stays as it is. -/
theorem meets_full {members : List (Option String × Node)} {value : α} {slot : Option α}
    (met : members.foldlM (single name decode absent short).meet (some value) = .ok slot) :
    slot = some value := by
  induction members with
  | nil => exact (Except.ok.inj met).symm
  | cons member members rest =>
    obtain ⟨between, here, there⟩ := meets_cons_iff.mp met
    rcases of_meet_single here with ⟨_, full, _⟩ | ⟨_, rfl⟩
    · cases full
    · exact rest there

/-- An empty slot is filled with the first value under the name. -/
theorem meets_empty {members : List (Option String × Node)} {slot : Option α}
    (met : members.foldlM (single name decode absent short).meet none = .ok slot) :
    match (valuesAt name members).head? with
    | some node => ∃ value, decode node = .ok value ∧ slot = some value
    | none => slot = none := by
  induction members with
  | nil => exact (Except.ok.inj met).symm
  | cons member members rest =>
    obtain ⟨between, here, there⟩ := meets_cons_iff.mp met
    rcases of_meet_single here with ⟨named, _, value, decoded, rfl⟩ | ⟨other, rfl⟩
    · rw [valuesAt, List.filterMap_cons, if_pos named]
      exact ⟨value, decoded, meets_full there⟩
    · rw [valuesAt, List.filterMap_cons, if_neg other]
      exact rest there

/-! ## Records -/

/-- The values of a record by their keys. -/
abbrev View := Key → Option Node

/-- What is decoded tells about the values of the tree. The places are counted from the first of the
fields. -/
structure Shows (F : Fields α) (names : List String) (about : View → α → Prop) : Prop where
  lawful : F.Lawful names
  object : ∀ members closed value, F.record (.object members closed) = .ok value →
    about (fun key => (valuesAt key.name members).head?) value
  array : ∀ closed items value rest, F.take closed items = .ok (value, rest) →
    rest = items.drop names.length ∧ about (fun key => items[key.place]?) value

theorem Shows.record {F : Fields α} {names : List String} {about : View → α → Prop}
    (shows : F.Shows names about) {node : Node} {value : α} (decoded : F.record node = .ok value) :
    about (fun key => node.value? key) value := by
  cases node with
  | object members closed => exact shows.object members closed value decoded
  | array items closed =>
    obtain ⟨⟨taken, left⟩, took, ended⟩ := bind_eq_ok_iff.mp decoded
    cases left with
    | nil =>
      obtain ⟨-, rfl⟩ := atEnd_eq_ok_iff.mp ended
      exact (shows.array closed items taken [] took).2
    | cons _ _ => cases ended
  | _ => cases decoded

theorem Shows.imp {F : Fields α} {names : List String} {about about' : View → α → Prop}
    (shows : F.Shows names about) (implies : ∀ look value, about look value → about' look value) :
    F.Shows names about' where
  lawful := shows.lawful
  object members closed value decoded := implies _ _ (shows.object members closed value decoded)
  array closed items value rest took := (shows.array closed items value rest took).imp_right (implies _ _)

/-- A value that an array may leave out goes without saying in an object, too. -/
theorem shows_single (careful : Careful decode) (fallback : ∀ value ∈ short, absent = some value) :
    (single name decode absent short).Shows [name] fun look value =>
      Given decode absent (look ⟨name, 0⟩) value where
  lawful := lawful_single name careful absent short
  object members closed value decoded := by
    obtain ⟨-, slot, met, finished⟩ := (record_object_iff _ _ _ _).mp decoded
    have filled := meets_empty met
    unfold Given
    dsimp only
    split at filled
    · obtain ⟨value, decoded, rfl⟩ := filled
      cases finished
      exact decoded
    · subst filled
      cases absent with
      | none => cases finished
      | some value =>
        cases finished
        rfl
  array closed items value rest took := by
    cases items with
    | cons item items =>
      obtain ⟨found, decoded, same⟩ := bind_eq_ok_iff.mp took
      cases same
      exact ⟨rfl, decoded⟩
    | nil =>
      cases closed with
      | false => cases took
      | true =>
        cases short with
        | none => cases took
        | some found =>
          cases took
          exact ⟨rfl, fallback value rfl⟩

theorem shows_required (name : String) (careful : Careful decode) :
    (required name decode).Shows [name] fun look value => Given decode none (look ⟨name, 0⟩) value :=
  shows_single careful nofun

theorem shows_maybe (name : String) (careful : Careful decode) :
    (maybe name decode).Shows [name] fun look value =>
      Given (optional decode) (some none) (look ⟨name, 0⟩) value :=
  shows_single (careful_optional careful) nofun

theorem shows_withDefault (name : String) (careful : Careful decode) (fallback : α) :
    (withDefault name decode fallback).Shows [name] fun look value =>
      Given decode (some fallback) (look ⟨name, 0⟩) value :=
  shows_single careful fun _ same => same

theorem shows_pure (value : α) : (pure value : Fields α).Shows [] fun _ result => result = value where
  lawful := lawful_pure value
  object members closed result decoded := by
    obtain ⟨-, _, _, same⟩ := (record_object_iff _ _ _ _).mp decoded
    exact (Except.ok.inj same).symm
  array closed items result rest took := by
    cases took
    exact ⟨rfl, rfl⟩

/-- The places of the second fields come after those of the first. -/
theorem shows_seq {F : Fields (α → β)} {G : Fields α} {names others : List String}
    {first : View → (α → β) → Prop} {second : View → α → Prop}
    (shows : F.Shows names first) (showsToo : G.Shows others second)
    (apart : ∀ name ∈ names, name ∉ others) :
    (F <*> G).Shows (names ++ others) fun look value =>
      ∃ f a, first look f ∧ second (fun key => look ⟨key.name, key.place + names.length⟩) a ∧
        value = f a where
  lawful := lawful_seq shows.lawful showsToo.lawful
  object members closed value decoded := by
    obtain ⟨f, a, here, there, rfl⟩ :=
      (record_seq_iff shows.lawful showsToo.lawful apart members closed value).mp decoded
    exact ⟨f, a, shows.object members closed f here, showsToo.object members closed a there, rfl⟩
  array closed items value rest took := by
    obtain ⟨⟨f, between⟩, here, took⟩ := bind_eq_ok_iff.mp took
    obtain ⟨⟨a, _⟩, there, same⟩ := bind_eq_ok_iff.mp took
    cases same
    obtain ⟨rfl, about⟩ := shows.array closed items f between here
    obtain ⟨rfl, aboutToo⟩ := showsToo.array closed _ a _ there
    simp only [List.getElem?_drop, Nat.add_comm names.length] at aboutToo
    refine ⟨?_, f, a, about, aboutToo, rfl⟩
    rw [List.drop_drop, List.length_append]

theorem shows_map {F : Fields α} {names : List String} {about : View → α → Prop}
    (f : α → β) (shows : F.Shows names about) :
    (f <$> F).Shows names fun look value => ∃ a, about look a ∧ value = f a := by
  refine (shows_seq (shows_pure f) shows fun _ inside => by cases inside).imp ?_
  intro look value known
  obtain ⟨_, a, rfl, about, rfl⟩ := known
  exact ⟨a, about, rfl⟩

end Fields

end BoardRules.Json
