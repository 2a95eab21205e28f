import BoardRules.Proofs.Json.Reading

/-!
# Texts that open an object

A text whose first mark is an opening brace is read as an object, however it goes on. Its frame lies
below all others from then on, and when the text ends or fails, that frame is what is left.
-/
namespace BoardRules.Json

open Text

def Node.IsObject (node : Node) : Prop := ∃ members closed, node = .object members closed

/-- An object lies below everything that is open. -/
def Rooted (frames : List Frame) : Prop :=
  ∃ members key, frames.getLast? = some (.object members key)

def Step.Rooted : Step → Prop
  | .done document => document.root.IsObject
  | .more _ frames _ => Json.Rooted frames

theorem not_rooted_nil : ¬Rooted [] := by
  rintro ⟨_, _, last⟩
  cases last

theorem Rooted.cons {frames : List Frame} (rooted : Rooted frames) (frame : Frame) :
    Rooted (frame :: frames) := by
  obtain ⟨members, key, last⟩ := rooted
  exact ⟨members, key, by simp [List.getLast?_cons, last]⟩

theorem rooted_object (members : List (Option String × Node)) (key : Option String) :
    Rooted [.object members key] := ⟨members, key, rfl⟩

/-- The lowest frame is the object, or lies on one. -/
theorem Rooted.cases_cons {frame : Frame} {frames : List Frame} (rooted : Rooted (frame :: frames)) :
    (frames = [] ∧ ∃ members key, frame = .object members key) ∨ Rooted frames := by
  obtain ⟨members, key, last⟩ := rooted
  cases frames with
  | nil => exact .inl ⟨rfl, members, key, Option.some.inj last⟩
  | cons next frames => exact .inr ⟨members, key, by rwa [List.getLast?_cons_cons] at last⟩

/-- What is put into the lowest frame or takes its place does not change its kind. -/
theorem Rooted.of_cons {frame frame' : Frame} {frames : List Frame}
    (rooted : Rooted (frame :: frames))
    (kind : ∀ members key, frame = .object members key →
      ∃ members' key', frame' = .object members' key') :
    Rooted (frame' :: frames) := by
  rcases rooted.cases_cons with ⟨rfl, members, key, rfl⟩ | below
  · obtain ⟨members', key', rfl⟩ := kind members key rfl
    exact rooted_object members' key'
  · exact below.cons frame'

theorem leaveOpen_isObject {frames : List Frame} (rooted : Rooted frames) (node : Node) :
    (leaveOpen node frames).IsObject := by
  induction frames generalizing node with
  | nil => exact absurd rooted not_rooted_nil
  | cons frame frames below =>
    rcases rooted.cases_cons with ⟨rfl, members, key, rfl⟩ | rooted
    · exact ⟨_, false, rfl⟩
    · exact below rooted _

/-- A closed or broken off frame is the object itself, or goes into what lies below it. -/
theorem Rooted.node {frame : Frame} {frames : List Frame} (rooted : Rooted (frame :: frames))
    (closed : Bool) : (frames = [] ∧ (frame.node closed).IsObject) ∨ Rooted frames := by
  rcases rooted.cases_cons with ⟨rfl, members, key, rfl⟩ | below
  · exact .inl ⟨rfl, _, closed, rfl⟩
  · exact .inr below

theorem failAt_isObject {frames : List Frame} (rooted : Rooted frames) (expected : Expected) :
    (failAt expected frames).root.IsObject := by
  cases frames with
  | nil => exact absurd rooted not_rooted_nil
  | cons frame frames =>
    have inner : (leaveOpen (frame.node false) frames).IsObject := by
      rcases rooted.node false with ⟨rfl, object⟩ | below
      · exact object
      · exact leaveOpen_isObject below _
    cases expected with
    | value => exact leaveOpen_isObject rooted .broken
    | _ => exact inner

theorem finishValue_rooted {node : Node} {frames : List Frame}
    (rooted : (frames = [] ∧ node.IsObject) ∨ Rooted frames) (rest : List Symbol) :
    (finishValue node frames rest).Rooted := by
  rcases rooted with ⟨rfl, object⟩ | rooted
  · exact object
  · cases frames with
    | nil => exact absurd rooted not_rooted_nil
    | cons frame frames =>
      exact rooted.of_cons fun members key same => ⟨_, none, by rw [same]; rfl⟩

theorem readKey_rooted {members : List (Option String × Node)} {key : Option String}
    {frames : List Frame} (rooted : Rooted (.object members key :: frames)) (rest : List Symbol) :
    (readKey members frames rest).Rooted := by
  have same (key' : Option String) : Rooted (.object members key' :: frames) :=
    rooted.of_cons fun _ _ _ => ⟨members, key', rfl⟩
  unfold readKey
  split
  · exact failAt_isObject (same none) .key
  · dsimp only
    split
    · exact same _
    · exact failAt_isObject (same _) .value

theorem readValue_rooted {frames : List Frame} (rooted : Rooted frames) (c : Char)
    (rest : List Symbol) : (readValue frames c rest).Rooted := by
  have failed := failAt_isObject rooted .value
  have literal (word : List Char) (node : Node) : (finishLiteral word node frames rest).Rooted := by
    unfold finishLiteral
    split
    · exact finishValue_rooted (.inr rooted) _
    · exact failed
  unfold readValue
  split
  · split
    · exact finishValue_rooted (.inr rooted) _
    · exact failed
  · exact rooted.cons _
  · exact rooted.cons _
  · exact literal _ _
  · exact literal _ _
  · exact literal _ _
  · split
    · exact finishValue_rooted (.inr rooted) _
    · exact failed

theorem readNext_rooted {frames : List Frame} (rooted : Rooted frames) (expected : Expected)
    (c : Char) (rest : List Symbol) : (readNext expected frames c rest).Rooted := by
  unfold readNext
  split
  · exact readValue_rooted rooted c rest
  · split
    · exact finishValue_rooted (rooted.node true) rest
    · exact readValue_rooted rooted c rest
  · split
    · exact finishValue_rooted (rooted.node true) rest
    · split
      · exact readKey_rooted rooted rest
      · exact failAt_isObject rooted .firstKey
  · split
    · exact readKey_rooted rooted rest
    · exact failAt_isObject rooted .key
  · split
    · exact finishValue_rooted (rooted.node true) rest
    · split
      · split
        · exact rooted
        · exact rooted
      · exact failAt_isObject rooted .separator
  · exact failAt_isObject rooted _

/-- Once an object lies below everything, it is what the text is read as. -/
theorem readFrom_isObject {expected : Expected} {frames : List Frame} (rooted : Rooted frames)
    (s : List Symbol) : (readFrom expected frames s).root.IsObject := by
  induction expected, frames, s using readFrom.induct with
  | case1 expected frames =>
    rw [readFrom]
    exact failAt_isObject rooted expected
  | case2 expected frames rest =>
    rw [readFrom]
    exact failAt_isObject rooted expected
  | case3 expected frames c rest blank others =>
    rw [readFrom, if_pos blank]
    exact others rooted
  | case4 expected frames c rest visible document step =>
    have stepped := readNext_rooted rooted expected c rest
    rw [readFrom_step (Bool.eq_false_iff.mpr visible), step]
    rwa [step] at stepped
  | case5 expected frames c rest visible expected' frames' rest' step others =>
    have stepped := readNext_rooted rooted expected c rest
    rw [readFrom_step (Bool.eq_false_iff.mpr visible), step]
    rw [step] at stepped
    exact others stepped

/-- The first byte that is no white space is an opening brace. -/
def Opens (body : List UInt8) : Prop :=
  ∃ blanks rest, (∀ byte ∈ blanks, byte ∈ [0x20, 0x0a, 0x09, 0x0d]) ∧ body = blanks ++ 0x7b :: rest

theorem encode_blanks {blanks : List UInt8}
    (only : ∀ byte ∈ blanks, byte ∈ [0x20, 0x0a, 0x09, 0x0d]) :
    ∃ text, Blanks text ∧ Utf8.encode text = blanks := by
  induction blanks with
  | nil => exact ⟨[], by decide, rfl⟩
  | cons byte blanks others =>
    obtain ⟨text, blank, encoded⟩ := others fun b member => only b (List.mem_cons_of_mem byte member)
    have single : ∃ c ∈ [' ', '\n', '\t', '\r'], String.utf8EncodeChar c = [byte] := by
      have kind := only byte List.mem_cons_self
      simp only [List.mem_cons, List.not_mem_nil, or_false] at kind
      rcases kind with rfl | rfl | rfl | rfl
      · exact ⟨' ', by decide, rfl⟩
      · exact ⟨'\n', by decide, rfl⟩
      · exact ⟨'\t', by decide, rfl⟩
      · exact ⟨'\r', by decide, rfl⟩
    obtain ⟨c, space, first⟩ := single
    refine ⟨c :: text, List.forall_mem_cons.mpr ⟨space, blank⟩, ?_⟩
    rw [← encoded]
    simp [Utf8.encode, first]

theorem ofBytes_isObject {body : List UInt8} (opens : Opens body) :
    (Document.ofBytes body).root.IsObject := by
  obtain ⟨blanks, rest, only, rfl⟩ := opens
  obtain ⟨text, blank, encoded⟩ := encode_blanks only
  have symbols : Utf8.symbols (blanks ++ 0x7b :: rest) =
      text.map some ++ some '\x7b' :: Utf8.symbols rest := by
    have brace : String.utf8EncodeChar '\x7b' = [0x7b] := by decide
    have split := symbols_encode (text ++ ['\x7b']) rest
    simpa [Utf8.encode, ← encoded, brace] using split
  unfold Document.ofBytes Document.ofSymbols
  rw [symbols, readFrom_blanks blank, readFrom_step (by decide)]
  exact readFrom_isObject (rooted_object [] none) _

end BoardRules.Json
