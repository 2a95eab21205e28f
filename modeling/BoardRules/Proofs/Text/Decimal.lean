import BoardRules.Text.Alphanumeric
import BoardRules.Text.Decimal
import Mathlib.Algebra.Group.Nat.Defs

/-!
# Reading decimal numbers

A number may be spelled with a plus sign and with zeros in front. `word?_eq_some_iff` says that
these spellings and no others are read, as long as the number fits into 64 bits. The plain text of a
number is one of them.
-/
namespace BoardRules.Text

/-- A digit is none of the characters outside the digits. -/
theorem ne_of_isDigit {c d : Char} (digit : c.isDigit = true) (other : d.isDigit = false) :
    c ≠ d := by
  intro same
  rw [same, other] at digit
  cases digit

theorem isBlank_of_isDigit {c : Char} (digit : c.isDigit = true) : isBlank c = false :=
  isBlank_of_isAlphanum (by simp [Char.isAlphanum, digit])

namespace Decimal

/-- One or more digits of the given value. -/
structure Digits (digits : List Char) (number : Nat) : Prop where
  nonempty : digits ≠ []
  decimal : ∀ c ∈ digits, c.isDigit = true
  value : Decimal.value digits = number

/-- Digits, with one plus sign allowed in front. -/
def Spells (text : List Char) (number : Nat) : Prop :=
  ∃ digits, Digits digits number ∧ (text = digits ∨ text = '+' :: digits)

theorem isDigit_render {number : Nat} {c : Char} (member : c ∈ render number) :
    c.isDigit = true := Nat.isDigit_of_mem_toDigits (by decide) (by decide) member

theorem value_render (number : Nat) : value (render number) = number :=
  Nat.ofDigitChars_toDigits (by decide) (by decide)

theorem digits_render (number : Nat) : Digits (render number) number :=
  ⟨Nat.toDigits_ne_nil, fun _ => isDigit_render, value_render number⟩

theorem ofDigits?_eq_some_iff {digits : List Char} {number : Nat} :
    ofDigits? digits = some number ↔ Digits digits number := by
  constructor
  · intro reads
    rw [ofDigits?] at reads
    split at reads
    · next decimal =>
      simp only [Bool.and_eq_true, Bool.not_eq_true', List.isEmpty_eq_false_iff,
        List.all_eq_true] at decimal
      exact ⟨decimal.1, decimal.2, Option.some.inj reads⟩
    · cases reads
  · intro spelled
    have decimal := spelled.decimal
    rw [ofDigits?, if_pos (by simpa [spelled.nonempty] using decimal), spelled.value]

theorem Digits.ne_plus {digits : List Char} {number : Nat} (spelled : Digits digits number)
    (rest : List Char) : digits ≠ '+' :: rest := by
  rintro rfl
  exact absurd (spelled.decimal '+' List.mem_cons_self) (by decide)

theorem word?_plus (digits : List Char) :
    word? ('+' :: digits) = (ofDigits? digits).filter (· < wordBound) := by
  simp only [word?]
  cases ofDigits? digits with
  | none => rfl
  | some n => simp only [Option.filter_some, decide_eq_true_eq]

theorem word?_of_ne {text : List Char} (unsigned : ∀ digits, text ≠ '+' :: digits) :
    word? text = (ofDigits? text).filter (· < wordBound) := by
  simp only [word?]
  cases ofDigits? text with
  | none => rfl
  | some n => simp only [Option.filter_some, decide_eq_true_eq]

theorem word?_eq_some_iff {text : List Char} {number : Nat} :
    word? text = some number ↔ Spells text number ∧ number < wordBound := by
  by_cases signed : ∃ digits, text = '+' :: digits
  · obtain ⟨digits, rfl⟩ := signed
    rw [word?_plus, Option.filter_eq_some_iff, ofDigits?_eq_some_iff, decide_eq_true_eq]
    refine and_congr_left fun _ => ⟨fun spelled => ⟨digits, spelled, Or.inr rfl⟩, ?_⟩
    rintro ⟨others, spelled, rfl | same⟩
    · exact absurd rfl (spelled.ne_plus digits)
    · exact (List.cons.inj same).2 ▸ spelled
  · have unsigned : ∀ digits, text ≠ '+' :: digits := not_exists.mp signed
    rw [word?_of_ne unsigned, Option.filter_eq_some_iff, ofDigits?_eq_some_iff, decide_eq_true_eq]
    refine and_congr_left fun _ => ⟨fun spelled => ⟨text, spelled, Or.inl rfl⟩, ?_⟩
    rintro ⟨digits, spelled, rfl | same⟩
    · exact spelled
    · exact absurd same (unsigned digits)

/-- What spells a number ends in a digit. -/
theorem Spells.getLast? {text : List Char} {number : Nat} (spells : Spells text number) :
    ∃ c, text.getLast? = some c ∧ c.isDigit = true := by
  obtain ⟨digits, spelled, same⟩ := spells
  refine ⟨digits.getLast spelled.nonempty, ?_, spelled.decimal _ (List.getLast_mem _)⟩
  rcases same with rfl | rfl
  · exact List.getLast?_eq_some_getLast spelled.nonempty
  · rw [List.getLast?_cons_of_ne_nil spelled.nonempty,
      List.getLast?_eq_some_getLast spelled.nonempty]

theorem Spells.not_mem {text : List Char} {number : Nat} (spells : Spells text number) {c : Char}
    (noDigit : c.isDigit = false) (noPlus : c ≠ '+') : c ∉ text := by
  obtain ⟨digits, spelled, same⟩ := spells
  have absent : c ∉ digits := by
    intro member
    rw [spelled.decimal c member] at noDigit
    cases noDigit
  rcases same with rfl | rfl
  · exact absent
  · exact List.not_mem_cons_of_ne_of_not_mem noPlus absent

end Decimal

end BoardRules.Text
