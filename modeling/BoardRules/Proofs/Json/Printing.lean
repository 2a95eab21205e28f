import BoardRules.Json.Printer
import BoardRules.Proofs.Json.Forms

/-!
# Printed values

A value is written as a JSON text of its tree. Of its strings the characters that JSON wants escaped are
escaped, and of its numbers only those have a text that have digits wherever JSON wants some.
-/
namespace BoardRules.Json

open Text

/-! ## Trees of values -/

mutual

def Value.node : Value → Node
  | .null => .null
  | .bool b => .bool b
  | .number n => .number n
  | .string s => .string (some s)
  | .array items => .array (itemNodes items) true
  | .object members => .object (memberNodes members) true

def itemNodes : List Value → List Node
  | [] => []
  | item :: items => item.node :: itemNodes items

def memberNodes : List (String × Value) → List (Option String × Node)
  | [] => []
  | (key, value) :: members => (some key, value.node) :: memberNodes members

end

/-- The number has digits wherever JSON wants some. -/
def Numeral.Proper (n : Numeral) : Prop :=
  WholeText n.whole ∧ (∀ digits ∈ n.fraction, Digits digits) ∧
    ∀ exponent ∈ n.exponent, Digits exponent.2

theorem Numeral.proper_digit {c : Char} (digit : c.isDigit = true) :
    Numeral.Proper ⟨false, [c], none, none⟩ :=
  ⟨⟨⟨nofun, by simpa using digit⟩, fun _ same => (List.cons.inj same).2.symm⟩, nofun, nofun⟩

mutual

/-- All numbers of the value are proper. -/
def Value.Proper : Value → Prop
  | .number n => n.Proper
  | .array items => ProperItems items
  | .object members => ProperMembers members
  | _ => True

def ProperItems : List Value → Prop
  | [] => True
  | item :: items => item.Proper ∧ ProperItems items

def ProperMembers : List (String × Value) → Prop
  | [] => True
  | member :: members => member.2.Proper ∧ ProperMembers members

end

/-! ## Strings -/

/-- A character that is written in short is the one that the short form means. -/
theorem mem_shortEscapes {c letter : Char} (short : escapeLetter? c = some letter) :
    (letter, c) ∈ shortEscapes := by
  unfold escapeLetter? at short
  split at short <;> cases short <;> decide

/-- A character that stands for itself is no quote and no backslash. -/
theorem ne_of_escapeLetter?_eq_none {c : Char} (long : escapeLetter? c = none) :
    c ≠ '\x22' ∧ c ≠ '\\' := by
  constructor
  · rintro rfl
    cases long
  · rintro rfl
    cases long

/-- A control character is written by its number, which two digits are enough for. -/
theorem quotedText_control {c : Char} (control : c.toNat < 0x20) {parts : List Quoted}
    {text : List Char} (quoted : QuotedText parts text) :
    QuotedText (.unit c.toNat :: parts)
      ("\\u00".toList ++ Hex.byteDigits (UInt8.ofNat c.toNat) ++ text) := by
  have number : (UInt8.ofNat c.toNat).toNat = c.toNat := by
    rw [UInt8.toNat_ofNat']
    omega
  have zero : HexDigit '0' 0 := ⟨by decide, .inl rfl⟩
  have high : HexDigit (Nat.digitChar (c.toNat / 16)) (c.toNat / 16) := ⟨by omega, .inl rfl⟩
  have low : HexDigit (Nat.digitChar (c.toNat % 16)) (c.toNat % 16) := ⟨by omega, .inl rfl⟩
  have units : ((0 * 16 + 0) * 16 + c.toNat / 16) * 16 + c.toNat % 16 = c.toNat := by omega
  have written := QuotedText.unit zero zero high low quoted
  rw [units] at written
  simpa [Hex.byteDigits, number] using written

/-- By induction on the characters, each of which is written in short, by its number, or as it is. -/
theorem quotedText_write (cs : List Char) :
    ∃ parts, QuotedText parts (cs.flatMap writeChar) ∧ Denotes parts cs := by
  induction cs with
  | nil => exact ⟨[], .nil, .nil⟩
  | cons c cs ih =>
    obtain ⟨parts, quoted, means⟩ := ih
    rw [List.flatMap_cons]
    unfold writeChar
    cases letter : escapeLetter? c with
    | some letter => exact ⟨.char c :: parts, .short (mem_shortEscapes letter) quoted, .char c means⟩
    | none =>
      by_cases control : c.toNat < 0x20
      · simp only [if_pos control]
        exact ⟨.unit c.toNat :: parts, quotedText_control control quoted, .unit c (by omega) means⟩
      · obtain ⟨quote, backslash⟩ := ne_of_escapeLetter?_eq_none letter
        simp only [if_neg control]
        exact ⟨.char c :: parts, .raw (Nat.not_lt.mp control) quote backslash quoted, .char c means⟩

theorem stringText_write (s : String) : StringText (some s) (writeString s) := by
  obtain ⟨parts, quoted, means⟩ := quotedText_write s.toList
  exact stringText_of_denotes quoted means

/-! ## Numbers -/

theorem exponentText_write (negative : Bool) {digits : List Char} (all : Digits digits) :
    ExponentText (some (negative, digits)) ('e' :: (if negative then ['-'] else []) ++ digits) := by
  refine .present (by decide) ?_ all
  cases negative <;> decide

theorem Numeral.Proper.numeralText {n : Numeral} (proper : n.Proper) : NumeralText n n.write := by
  obtain ⟨negative, whole, fraction, exponent⟩ := n
  obtain ⟨text, fraction_digits, exponent_digits⟩ := proper
  cases fraction with
  | none =>
    cases exponent with
    | none => exact ⟨text, _, _, .absent, .absent, by simp [Numeral.write]⟩
    | some exponent =>
      have shown := exponentText_write exponent.1 (exponent_digits exponent rfl)
      exact ⟨text, _, _, .absent, shown, by simp [Numeral.write]⟩
  | some digits =>
    have point : FractionText (some digits) ('.' :: digits) := .present (fraction_digits digits rfl)
    cases exponent with
    | none => exact ⟨text, _, _, point, .absent, by simp [Numeral.write]⟩
    | some exponent =>
      have shown := exponentText_write exponent.1 (exponent_digits exponent rfl)
      exact ⟨text, _, _, point, shown, by simp [Numeral.write]⟩

/-! ## Values -/

theorem written_member (key : String) {node : Node} {text : List Char}
    (written : Written (.value node) text) :
    Written (.member (some key) node) (writeString key ++ ':' :: text) := by
  have none : Blanks [] := by decide
  exact .member none (stringText_write key) none written.plain

theorem intercalate_cons_cons (first second : List Char) (rest : List (List Char)) :
    List.intercalate [','] (first :: second :: rest) =
      first ++ ',' :: List.intercalate [','] (second :: rest) := by
  simp [List.intercalate]

mutual

theorem Value.written_write : ∀ value : Value, value.Proper → Written (.value value.node) value.write
  | .null, _ => .nullWord
  | .bool true, _ => .trueWord
  | .bool false, _ => .falseWord
  | .number _, proper => .number (Numeral.Proper.numeralText proper)
  | .string s, _ => .string (stringText_write s)
  | .array [], _ => .emptyArray (List.forall_mem_nil _)
  | .array (item :: items), proper => .array (written_writeItems (item :: items) nofun proper)
  | .object [], _ => .emptyObject (List.forall_mem_nil _)
  | .object (member :: members), proper =>
    .object (written_writeMembers (member :: members) nofun proper)

theorem written_writeItems : ∀ items : List Value, items ≠ [] → ProperItems items →
    Written (.items (itemNodes items)) (List.intercalate [','] (writeItems items))
  | [], some_, _ => absurd rfl some_
  | [item], _, proper => by
    have only := (Value.written_write item proper.1).plain
    simpa [itemNodes, writeItems, List.intercalate] using Written.lastItem only
  | item :: next :: items, _, proper => by
    have first := (Value.written_write item proper.1).plain
    have rest := written_writeItems (next :: items) nofun proper.2
    rw [writeItems, writeItems, intercalate_cons_cons]
    exact .item first rest

theorem written_writeMembers : ∀ members : List (String × Value), members ≠ [] →
    ProperMembers members →
    Written (.members (memberNodes members)) (List.intercalate [','] (writeMembers members))
  | [], some_, _ => absurd rfl some_
  | [(key, value)], _, proper => by
    have only := written_member key (Value.written_write value proper.1)
    simpa [memberNodes, writeMembers, List.intercalate] using Written.lastMember only
  | (key, value) :: next :: members, _, proper => by
    have first := written_member key (Value.written_write value proper.1)
    have rest := written_writeMembers (next :: members) nofun proper.2
    rw [writeMembers, writeMembers, intercalate_cons_cons]
    exact .nextMember first rest

end

/-- What is written for a value is a JSON text of its tree. -/
theorem Value.textOf_write {value : Value} (proper : value.Proper) : TextOf value.node value.write :=
  (value.written_write proper).plain

/-! ## Forms -/

/-- An object that is written has the form of its entries if it has each of them. -/
theorem object_node {entries : List Entry} {members : List (String × Value)}
    (held : entries.Forall (·.In (memberNodes members))) :
    Form.object entries (Value.object members).node := by
  refine ⟨memberNodes members, rfl, ?_, List.forall_iff_forall_mem.mp held⟩
  clear held
  induction members with
  | nil => exact nofun
  | cons member members ih => exact List.forall_mem_cons.mpr ⟨rfl, ih⟩

end BoardRules.Json
