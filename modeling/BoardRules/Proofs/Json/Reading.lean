import BoardRules.Proofs.Json.Scanning

/-!
# Reading JSON texts

Every text that the grammar allows is read as the tree that it was written for. The induction is on the
grammar: each part of a text takes the reader from where the part is expected to where it is over,
whatever frames are open around it and whatever comes after it.
-/
namespace BoardRules.Json

open Text

/-! ## Steps -/

/-- What becomes of a text after a step of reading. -/
def Step.document : Step → Document
  | .done document => document
  | .more expected frames rest => readFrom expected frames rest

theorem readFrom_step {c : Char} (visible : isSpace c = false) (expected : Expected)
    (frames : List Frame) (rest : List Symbol) :
    readFrom expected frames (some c :: rest) = (readNext expected frames c rest).document := by
  rw [readFrom, if_neg (by simp [visible])]
  split <;> (rename_i stepped; rw [stepped]; rfl)

theorem readFrom_blanks {blanks : List Char} (only : Blanks blanks) (expected : Expected)
    (frames : List Frame) (rest : List Symbol) :
    readFrom expected frames (blanks.map some ++ rest) = readFrom expected frames rest := by
  induction blanks with
  | nil => rfl
  | cons c blanks others =>
    have blank : isSpace c = true := (isSpace_iff c).mpr (only c List.mem_cons_self)
    rw [List.map_cons, List.cons_append, readFrom, if_pos blank]
    exact others fun d member => only d (List.mem_cons_of_mem c member)

/-- Blanks after a value make no difference. -/
theorem finishValue_blanks {blanks : List Char} (only : Blanks blanks) (node : Node)
    (frames : List Frame) (rest : List Symbol) :
    (finishValue node frames (blanks.map some ++ rest)).document =
      (finishValue node frames rest).document := by
  cases frames with
  | nil =>
    unfold finishValue
    dsimp only
    rw [skipSpace_blanks only]
  | cons frame frames => exact readFrom_blanks only .separator _ rest

/-! ## Values -/

/-- How a part of a text is read when the text goes on with `rest`. -/
def Piece.Read : Piece → List Char → Prop
  | .value node, text => ∃ c more, text = c :: more ∧ isSpace c = false ∧ c ≠ ']' ∧
      ∀ frames rest, Stops extendsNumeral rest →
        (readValue frames c (more.map some ++ rest)).document =
          (finishValue node frames rest).document
  | .padded node, text => ∀ frames rest, Stops extendsNumeral rest →
      readFrom .value frames (text.map some ++ rest) = (finishValue node frames rest).document ∧
      ∀ frame, readFrom .firstItem (frame :: frames) (text.map some ++ rest) =
        (finishValue node (frame :: frames) rest).document
  | .items nodes, text => ∀ before frames rest expected, expected ∈ [.value, .firstItem] →
      readFrom expected (.array before :: frames) (text.map some ++ some ']' :: rest) =
        (finishValue (.array (before.reverse ++ nodes) true) frames rest).document
  | .member key node, text => ∀ before last frames rest expected,
      expected ∈ [Expected.key, .firstKey] → Stops extendsNumeral rest →
      readFrom expected (.object before last :: frames) (text.map some ++ rest) =
        readFrom .separator (.object ((key, node) :: before) none :: frames) rest
  | .members entries, text => ∀ before last frames rest expected,
      expected ∈ [Expected.key, .firstKey] →
      readFrom expected (.object before last :: frames) (text.map some ++ some '\x7d' :: rest) =
        (finishValue (.object (before.reverse ++ entries) true) frames rest).document

theorem stops_blanks {p : Char → Bool} {blanks : List Char} {rest : List Symbol}
    (only : Blanks blanks) (other : ∀ c, isSpace c = true → p c = false) (stops : Stops p rest) :
    Stops p (blanks.map some ++ rest) := by
  cases blanks with
  | nil => exact stops
  | cons c blanks =>
    rintro d same
    cases same
    exact other c ((isSpace_iff c).mpr (only c List.mem_cons_self))

theorem extendsNumeral_of_isSpace (c : Char) (blank : isSpace c = true) :
    extendsNumeral c = false := by
  have blank := (isSpace_iff c).mp blank
  simp only [List.mem_cons, List.not_mem_nil, or_false] at blank
  rcases blank with rfl | rfl | rfl | rfl <;> rfl

theorem read_number {n : Numeral} {text : List Char} (written : NumeralText n text) :
    (Piece.value (.number n)).Read text := by
  obtain ⟨c, more, rfl, first⟩ := written.first
  have start : isSpace c = false ∧ c ≠ ']' := by
    constructor
    · refine Bool.eq_false_iff.mpr fun blank => ?_
      have blank := (isSpace_iff c).mp blank
      simp only [List.mem_cons, List.not_mem_nil, or_false] at blank
      rcases blank with rfl | rfl | rfl | rfl <;> exact absurd first (by decide)
    · rintro rfl
      exact absurd first (by decide)
  refine ⟨c, more, rfl, start.1, start.2, ?_⟩
  intro frames rest stops
  have scanned := scanNumeral?_numeralText written stops
  rw [List.map_cons, List.cons_append] at scanned
  unfold readValue
  split
  case h_7 => rw [scanned]
  all_goals simp at first

theorem read_string {value : Option String} {text : List Char} (written : StringText value text) :
    (Piece.value (.string value)).Read text := by
  obtain ⟨more, rfl, scan⟩ := written.scan
  refine ⟨'\x22', more, rfl, by decide, by decide, ?_⟩
  intro frames rest _
  obtain ⟨parts, scanned, spelt⟩ := scan rest
  rw [readValue, scanned]
  dsimp only
  rw [spelt]

theorem read_padded {node : Node} {before text after : List Char} (front : Blanks before)
    (back : Blanks after) (value : (Piece.value node).Read text) :
    (Piece.padded node).Read (before ++ (text ++ after)) := by
  obtain ⟨c, more, rfl, visible, other, read⟩ := value
  intro frames rest stops
  have behind := stops_blanks back extendsNumeral_of_isSpace stops
  simp only [List.map_append, List.append_assoc, List.map_cons, List.cons_append]
  constructor
  · rw [readFrom_blanks front, readFrom_step visible]
    exact (read frames _ behind).trans (finishValue_blanks back node frames rest)
  · intro frame
    rw [readFrom_blanks front, readFrom_step visible]
    have step : readNext .firstItem (frame :: frames) c (more.map some ++ (after.map some ++ rest)) =
        readValue (frame :: frames) c (more.map some ++ (after.map some ++ rest)) := if_neg other
    rw [step]
    exact (read _ _ behind).trans (finishValue_blanks back node _ rest)

/-- An item is read into the array around it. -/
theorem read_item {node : Node} {text : List Char} (padded : (Piece.padded node).Read text)
    (before : List Node) (frames : List Frame) (rest : List Symbol) {expected : Expected}
    (next : expected ∈ [.value, .firstItem]) (stops : Stops extendsNumeral rest) :
    readFrom expected (.array before :: frames) (text.map some ++ rest) =
      readFrom .separator (.array (node :: before) :: frames) rest := by
  simp only [List.mem_cons, List.not_mem_nil, or_false] at next
  rcases next with rfl | rfl
  · exact (padded _ rest stops).1
  · exact (padded frames rest stops).2 _

theorem read_member {key : Option String} {node : Node} {before name after text : List Char}
    (front : Blanks before) (named : StringText key name) (back : Blanks after)
    (padded : (Piece.padded node).Read text) :
    (Piece.member key node).Read (before ++ (name ++ (after ++ ':' :: text))) := by
  obtain ⟨more, rfl, scan⟩ := named.scan
  intro members last frames rest expected next stops
  simp only [List.map_append, List.append_assoc, List.map_cons, List.cons_append]
  rw [readFrom_blanks front, readFrom_step (by decide)]
  have step (tail : List Symbol) : readNext expected (.object members last :: frames) '\x22' tail =
      readKey members frames tail := by
    simp only [List.mem_cons, List.not_mem_nil, or_false] at next
    rcases next with rfl | rfl <;> rfl
  obtain ⟨parts, scanned, spelt⟩ := scan (after.map some ++ some ':' :: (text.map some ++ rest))
  rw [step, readKey, scanned]
  dsimp only
  rw [skipSpace_blanks back, skipSpace_cons (by decide), spelt]
  exact (padded _ rest stops).1

theorem Written.read {piece : Piece} {text : List Char} (written : Written piece text) :
    piece.Read text := by
  induction written with
  | nullWord => exact ⟨'n', _, rfl, by decide, by decide, fun _ _ _ => rfl⟩
  | trueWord => exact ⟨'t', _, rfl, by decide, by decide, fun _ _ _ => rfl⟩
  | falseWord => exact ⟨'f', _, rfl, by decide, by decide, fun _ _ _ => rfl⟩
  | number written => exact read_number written
  | string written => exact read_string written
  | @emptyArray blanks only =>
    refine ⟨'[', _, rfl, by decide, by decide, ?_⟩
    intro frames rest _
    change readFrom .firstItem (.array [] :: frames) ((blanks ++ [']']).map some ++ rest) = _
    rw [List.map_append, List.append_assoc, readFrom_blanks only]
    exact readFrom_step (by decide) _ _ _
  | @array nodes text _ items =>
    refine ⟨'[', _, rfl, by decide, by decide, ?_⟩
    intro frames rest _
    change readFrom .firstItem (.array [] :: frames) ((text ++ [']']).map some ++ rest) = _
    rw [List.map_append, List.append_assoc]
    exact items [] frames rest .firstItem (by decide)
  | @emptyObject blanks only =>
    refine ⟨'\x7b', _, rfl, by decide, by decide, ?_⟩
    intro frames rest _
    change readFrom .firstKey (.object [] none :: frames) ((blanks ++ ['\x7d']).map some ++ rest) = _
    rw [List.map_append, List.append_assoc, readFrom_blanks only]
    exact readFrom_step (by decide) _ _ _
  | @object entries text _ members =>
    refine ⟨'\x7b', _, rfl, by decide, by decide, ?_⟩
    intro frames rest _
    change readFrom .firstKey (.object [] none :: frames) ((text ++ ['\x7d']).map some ++ rest) = _
    rw [List.map_append, List.append_assoc]
    exact members [] none frames rest .firstKey (by decide)
  | padded front _ back value => exact read_padded front back value
  | @lastItem node text _ padded =>
    intro before frames rest expected next
    rw [read_item padded before frames _ next (fun c same => by cases same; rfl),
      readFrom_step (by decide)]
    change (finishValue (.array (node :: before).reverse true) frames rest).document = _
    rw [List.reverse_cons]
  | @item node nodes text more _ _ padded items =>
    intro before frames rest expected next
    rw [List.map_append, List.map_cons, List.append_assoc, List.cons_append,
      read_item padded before frames _ next (fun c same => by cases same; rfl),
      readFrom_step (by decide)]
    change readFrom .value (.array (node :: before) :: frames) _ = _
    rw [items (node :: before) frames rest .value (by decide), List.reverse_cons, List.append_assoc]
    rfl
  | member front named back _ padded => exact read_member front named back padded
  | @lastMember key node text _ member =>
    intro before last frames rest expected next
    rw [member before last frames _ expected next (fun c same => by cases same; rfl),
      readFrom_step (by decide)]
    change (finishValue (.object ((key, node) :: before).reverse true) frames rest).document = _
    rw [List.reverse_cons]
  | @nextMember key node entries text more _ _ member members =>
    intro before last frames rest expected next
    rw [List.map_append, List.map_cons, List.append_assoc, List.cons_append,
      member before last frames _ expected next (fun c same => by cases same; rfl),
      readFrom_step (by decide)]
    change readFrom .key (.object ((key, node) :: before) none :: frames) _ = _
    rw [members ((key, node) :: before) none frames rest .key (by decide), List.reverse_cons,
      List.append_assoc]
    rfl

/-- A JSON text is read as the tree that it was written for. -/
theorem ofBytes_encode {node : Node} {text : List Char} (written : TextOf node text) :
    Document.ofBytes (Utf8.encode text) = ⟨node, false⟩ := by
  have symbols : Utf8.symbols (Utf8.encode text) = text.map some := by
    simpa [Utf8.symbols] using symbols_encode text []
  have read := (written.read [] [] (fun c same => by cases same)).1
  rw [List.append_nil] at read
  unfold Document.ofBytes Document.ofSymbols
  rw [symbols, read]
  rfl

end BoardRules.Json
