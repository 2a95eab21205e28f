import BoardRules.Proofs.Json.Reading
import BoardRules.Json.Decoder
import Mathlib.Tactic.ByContra
import Mathlib.Tactic.Tauto

/-!
# Records of named fields

An object is decoded field by field: what the fields of two records make of an object together is what
each of them makes of it alone. So it does not matter in which order the members stand, and members
that no field knows do not matter at all.
-/
namespace BoardRules.Json

variable {α β ε : Type}

theorem bind_eq_ok_iff {first : Except ε α} {next : α → Except ε β} {value : β} :
    (first >>= next) = .ok value ↔ ∃ a, first = .ok a ∧ next a = .ok value := by
  cases first with
  | error error => simp [bind, Except.bind]
  | ok a => simp [bind, Except.bind]

theorem map_eq_ok_iff {first : Except ε α} {f : α → β} {value : β} :
    f <$> first = .ok value ↔ ∃ a, first = .ok a ∧ f a = value := by
  cases first with
  | error error => simp [Functor.map, Except.map]
  | ok a => simp [Functor.map, Except.map]

/-! ## Careful decoders -/

/-- The decoder takes nothing for a value that is no JSON. -/
def Careful (decode : Decoder α) : Prop :=
  ∀ node value, decode node = .ok value → node.isWellFormed = true

theorem careful_string : Careful string := by
  intro node value decoded
  unfold string at decoded
  split at decoded
  · rfl
  · cases decoded

theorem careful_bool : Careful bool := by
  intro node value decoded
  unfold bool at decoded
  split at decoded
  · rfl
  · cases decoded

theorem careful_word : Careful word := by
  intro node value decoded
  unfold word at decoded
  split at decoded
  · rfl
  · cases decoded

theorem careful_optional {decode : Decoder α} (careful : Careful decode) :
    Careful (optional decode) := by
  intro node value decoded
  unfold optional at decoded
  split at decoded
  · rfl
  · obtain ⟨inner, found, _⟩ := map_eq_ok_iff.mp decoded
    exact careful _ _ found

theorem atEnd_eq_ok_iff {closed : Bool} {value result : α} :
    atEnd closed value = .ok result ↔ closed = true ∧ value = result := by
  unfold atEnd
  cases closed <;> simp

/-- A text is decoded if its tree is and nothing follows it. -/
theorem decode_eq_ok_iff {document : Document} {decoder : Decoder α} {value : α} :
    document.decode decoder = .ok value ↔
      decoder document.root = .ok value ∧ document.trailing = false := by
  unfold Document.decode
  rw [bind_eq_ok_iff]
  cases document.trailing <;> simp

theorem careful_list (decode : Decoder α) : Careful (list decode) := by
  intro node value decoded
  unfold list at decoded
  split at decoded
  · obtain ⟨items, _, ended⟩ := bind_eq_ok_iff.mp decoded
    exact (atEnd_eq_ok_iff.mp ended).1
  · cases decoded

theorem record_object_iff (F : Fields α) (members : List (Option String × Node)) (closed : Bool)
    (value : α) : F.record (.object members closed) = .ok value ↔
      closed = true ∧ ∃ slots, members.foldlM F.meet F.empty = .ok slots ∧
        F.finish slots = .ok value := by
  unfold Fields.record
  simp only [bind_eq_ok_iff, atEnd_eq_ok_iff]
  constructor
  · rintro ⟨slots, met, ended, ⟨closed, rfl⟩, finished⟩
    exact ⟨closed, slots, met, finished⟩
  · rintro ⟨closed, slots, met, finished⟩
    exact ⟨slots, met, slots, ⟨closed, rfl⟩, finished⟩

theorem careful_record (F : Fields α) : Careful F.record := by
  intro node value decoded
  cases node with
  | object members closed => exact ((record_object_iff F members closed value).mp decoded).1
  | array items closed =>
    obtain ⟨⟨taken, left⟩, _, ended⟩ := bind_eq_ok_iff.mp decoded
    cases left with
    | nil => exact (atEnd_eq_ok_iff.mp ended).1
    | cons _ _ => cases ended
  | _ => cases decoded

/-! ## Fields side by side -/

/-- Fields that take the members with the given names, and none that is no JSON. -/
structure Fields.Lawful (F : Fields α) (names : List String) : Prop where
  put_eq_none_iff : ∀ key node slots, F.put key node slots = none ↔ key ∉ names
  careful : ∀ key node slots slots', F.put key node slots = some (.ok slots') →
    node.isWellFormed = true

theorem skip_return_iff {node : Node} {value result : α} :
    (do skip node; return value) = Except.ok result ↔ node.isWellFormed = true ∧ value = result := by
  unfold skip
  cases node.isWellFormed <;> simp [bind, Except.bind, pure, Except.pure]

namespace Fields

theorem lawful_pure (value : α) : (pure value : Fields α).Lawful [] :=
  ⟨fun _ _ _ => by simp [pure, nothing], fun _ _ _ _ found => by cases found⟩

theorem lawful_single (name : String) {decode : Decoder α} (careful : Careful decode)
    (absent short : Option α) : (single name decode absent short).Lawful [name] := by
  constructor
  · intro key node slots
    unfold single
    dsimp only
    by_cases named : key = name
    · rw [if_pos named]
      cases slots <;> simp [named]
    · simp [named]
  · intro key node slots slots' found
    unfold single at found
    dsimp only at found
    split at found
    · cases slots with
      | some _ => cases found
      | none =>
        obtain ⟨value, decoded, _⟩ := map_eq_ok_iff.mp (Option.some.inj found)
        exact careful node value decoded
    · cases found

variable {F : Fields (α → β)} {G : Fields α} {names others : List String}

theorem lawful_seq (first : F.Lawful names) (second : G.Lawful others) :
    (F <*> G).Lawful (names ++ others) := by
  constructor
  · intro key node slots
    change (both F G).put key node slots = none ↔ _
    unfold both
    dsimp only
    rw [List.mem_append, not_or, ← first.put_eq_none_iff key node slots.1,
      ← second.put_eq_none_iff key node slots.2]
    cases F.put key node slots.1 <;> simp
  · intro key node slots slots' found
    change (both F G).put key node slots = some (.ok slots') at found
    unfold both at found
    dsimp only at found
    cases taken : F.put key node slots.1 with
    | some result =>
      rw [taken] at found
      obtain ⟨slot, rfl, _⟩ := map_eq_ok_iff.mp (Option.some.inj found)
      exact first.careful key node _ slot taken
    | none =>
      rw [taken] at found
      obtain ⟨result, taken, same⟩ := Option.map_eq_some_iff.mp found
      obtain ⟨slot, rfl, _⟩ := map_eq_ok_iff.mp same
      exact second.careful key node _ slot taken

/-- A member means something to one of the two at most. The other one passes over it. -/
theorem meet_seq_iff (first : F.Lawful names) (second : G.Lawful others)
    (apart : ∀ name ∈ names, name ∉ others) (slots slots' : (both F G).Slots)
    (member : Option String × Node) :
    (both F G).meet slots member = .ok slots' ↔
      F.meet slots.1 member = .ok slots'.1 ∧ G.meet slots.2 member = .ok slots'.2 := by
  obtain ⟨_ | key, node⟩ := member
  · simp [meet]
  · obtain ⟨slots, more⟩ := slots
    obtain ⟨slots', more'⟩ := slots'
    unfold meet
    dsimp only [both]
    -- Whoever takes the member has decoded it, so that the other one finds it well-formed.
    cases taken : F.put key node slots with
    | some result =>
      have inside : key ∈ names := by
        by_contra outside
        rw [(first.put_eq_none_iff key node slots).mpr outside] at taken
        cases taken
      rw [(second.put_eq_none_iff key node more).mpr (apart key inside)]
      dsimp only
      rw [skip_return_iff]
      constructor
      · intro met
        obtain ⟨slot, rfl, same⟩ := map_eq_ok_iff.mp met
        cases same
        exact ⟨rfl, first.careful key node slots _ taken, rfl⟩
      · rintro ⟨rfl, _, rfl⟩
        rfl
    | none =>
      dsimp only
      cases taken' : G.put key node more with
      | some result =>
        dsimp only [Option.map_some]
        rw [skip_return_iff]
        constructor
        · intro met
          obtain ⟨slot, rfl, same⟩ := map_eq_ok_iff.mp met
          cases same
          exact ⟨⟨second.careful key node more _ taken', rfl⟩, rfl⟩
        · rintro ⟨⟨_, rfl⟩, rfl⟩
          rfl
      | none =>
        dsimp only [Option.map_none]
        rw [skip_return_iff, skip_return_iff, skip_return_iff, Prod.mk.injEq]
        tauto

theorem meets_seq_iff (first : F.Lawful names) (second : G.Lawful others)
    (apart : ∀ name ∈ names, name ∉ others) (members : List (Option String × Node))
    (slots slots' : (both F G).Slots) :
    members.foldlM (both F G).meet slots = .ok slots' ↔
      members.foldlM F.meet slots.1 = .ok slots'.1 ∧ members.foldlM G.meet slots.2 = .ok slots'.2 := by
  induction members generalizing slots with
  | nil =>
    simp only [List.foldlM_nil, pure, Except.pure, Except.ok.injEq]
    exact Prod.ext_iff
  | cons member members rest =>
    simp only [List.foldlM_cons, bind_eq_ok_iff]
    constructor
    · rintro ⟨slot, met, folded⟩
      obtain ⟨here, there⟩ := (meet_seq_iff first second apart _ _ _).mp met
      obtain ⟨before, behind⟩ := (rest _).mp folded
      exact ⟨⟨slot.1, here, before⟩, slot.2, there, behind⟩
    · rintro ⟨⟨slot, here, before⟩, another, there, behind⟩
      exact ⟨(slot, another), (meet_seq_iff first second apart _ _ _).mpr ⟨here, there⟩,
        (rest _).mpr ⟨before, behind⟩⟩

/-- An object is decoded by two groups of fields as by each of them alone. -/
theorem record_seq_iff (first : F.Lawful names) (second : G.Lawful others)
    (apart : ∀ name ∈ names, name ∉ others) (members : List (Option String × Node))
    (closed : Bool) (value : β) :
    (F <*> G).record (.object members closed) = .ok value ↔
      ∃ f a, F.record (.object members closed) = .ok f ∧
        G.record (.object members closed) = .ok a ∧ f a = value := by
  simp only [record_object_iff]
  constructor
  · rintro ⟨ended, slots, met, finished⟩
    obtain ⟨here, there⟩ := (meets_seq_iff first second apart _ _ _).mp met
    obtain ⟨f, before, finished⟩ := bind_eq_ok_iff.mp finished
    obtain ⟨a, behind, same⟩ := bind_eq_ok_iff.mp finished
    cases same
    exact ⟨f, a, ⟨ended, slots.1, here, before⟩, ⟨ended, slots.2, there, behind⟩, rfl⟩
  · rintro ⟨f, a, ⟨ended, slots, here, before⟩, ⟨_, more, there, behind⟩, rfl⟩
    refine ⟨ended, (slots, more), (meets_seq_iff first second apart _ _ _).mpr ⟨here, there⟩, ?_⟩
    exact bind_eq_ok_iff.mpr ⟨f, before, bind_eq_ok_iff.mpr ⟨a, behind, rfl⟩⟩

/-! ## What a record tells about one of its fields -/

/-- What the fields make of an object tells what `G` makes of it alone. -/
structure Tells (F : Fields α) (names : List String) (G : Fields β) (about : α → β → Prop) : Prop where
  lawful : F.Lawful names
  alone : ∀ members closed value, F.record (.object members closed) = .ok value →
    ∃ part, G.record (.object members closed) = .ok part ∧ about value part

theorem tells_map (f : α → β) {G : Fields α} (lawful : G.Lawful names) :
    (f <$> G).Tells names G fun value part => value = f part := by
  refine ⟨lawful_seq (lawful_pure f) lawful, ?_⟩
  intro members closed value decoded
  obtain ⟨_, part, made, found, rfl⟩ := (record_seq_iff (lawful_pure f) lawful
    (fun _ inside => by cases inside) members closed value).mp decoded
  obtain ⟨_, _, _, same⟩ := (record_object_iff _ _ _ _).mp made
  cases same
  exact ⟨part, found, rfl⟩

/-- Further fields take nothing away from that. -/
theorem Tells.seq {γ : Type} {F : Fields (α → β)} {G : Fields γ} {H : Fields α}
    {about : (α → β) → γ → Prop} (tells : F.Tells names G about) (lawful : H.Lawful others)
    (apart : ∀ name ∈ names, name ∉ others) :
    (F <*> H).Tells (names ++ others) G fun value part => ∃ f a, about f part ∧ value = f a := by
  refine ⟨lawful_seq tells.lawful lawful, ?_⟩
  intro members closed value decoded
  obtain ⟨f, a, made, _, rfl⟩ :=
    (record_seq_iff tells.lawful lawful apart members closed value).mp decoded
  obtain ⟨part, found, holds⟩ := tells.alone members closed f made
  exact ⟨part, found, f, a, holds, rfl⟩

end Fields

end BoardRules.Json
