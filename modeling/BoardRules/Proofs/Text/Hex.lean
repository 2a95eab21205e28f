import BoardRules.Text.Blank
import BoardRules.Text.Hex

/-!
# Reading hexadecimal text

Digits spell bytes if there are two of them for each byte, the high half first, each in either case.
`decode?_eq_some_iff` says that these texts and no others are read. The text that is written for
bytes is one of them.
-/
namespace BoardRules.Text.Hex

/-- A digit of that value, as a small or as a capital letter. -/
def IsDigit (c : Char) (value : Nat) : Prop :=
  "0123456789abcdef".toList[value]? = some c ∨ "0123456789ABCDEF".toList[value]? = some c

instance (c : Char) (value : Nat) : Decidable (IsDigit c value) :=
  inferInstanceAs (Decidable (_ ∨ _))

inductive Spells : List Char → List UInt8 → Prop where
  | nil : Spells [] []
  | cons {high low : Char} {byte : UInt8} {digits : List Char} {bytes : List UInt8}
      (upper : IsDigit high (byte.toNat / 16)) (lower : IsDigit low (byte.toNat % 16))
      (rest : Spells digits bytes) : Spells (high :: low :: digits) (byte :: bytes)

/-! ## Digits -/

theorem IsDigit.lt {c : Char} {value : Nat} (digit : IsDigit c value) : value < 16 := by
  rcases digit with small | capital
  · exact (List.getElem?_eq_some_iff.mp small).1
  · exact (List.getElem?_eq_some_iff.mp capital).1

theorem IsDigit.isBlank_eq_false {c : Char} {value : Nat} (digit : IsDigit c value) :
    isBlank c = false := by
  have visible : ("0123456789abcdef".toList ++ "0123456789ABCDEF".toList).all (!isBlank ·) = true := by
    decide
  have listed : c ∈ "0123456789abcdef".toList ++ "0123456789ABCDEF".toList :=
    List.mem_append.mpr (digit.imp List.mem_of_getElem? List.mem_of_getElem?)
  simpa using List.all_eq_true.mp visible c listed

theorem isAscii_of_digitValue? {c : Char} {value : Nat} (read : digitValue? c = some value) :
    c.toNat < 128 := by
  unfold digitValue? at read
  split at read
  · next digit =>
    simp only [Char.isDigit, Bool.and_eq_true, decide_eq_true_eq] at digit
    exact Nat.lt_of_le_of_lt (UInt32.le_iff_toNat_le.mp digit.2) (by decide)
  · split at read
    · next small => exact Nat.lt_of_le_of_lt (UInt32.le_iff_toNat_le.mp small.2) (by decide)
    · split at read
      · next capital => exact Nat.lt_of_le_of_lt (UInt32.le_iff_toNat_le.mp capital.2) (by decide)
      · cases read

theorem digitValue?_eq_some_iff {c : Char} {value : Nat} :
    digitValue? c = some value ↔ IsDigit c value := by
  constructor
  · intro read
    have all : ∀ n : Fin 128, ∀ v ∈ digitValue? (Char.ofNat n), IsDigit (Char.ofNat n) v := by decide
    have digit := all ⟨c.toNat, isAscii_of_digitValue? read⟩ value
    rw [Char.ofNat_toNat] at digit
    exact digit read
  · intro digit
    have small : ∀ v : Fin 16, "0123456789abcdef".toList[v.val]?.bind digitValue? = some v.val := by
      decide
    have capital : ∀ v : Fin 16, "0123456789ABCDEF".toList[v.val]?.bind digitValue? = some v.val := by
      decide
    have bound := digit.lt
    rcases digit with listed | listed
    · have read := small ⟨value, bound⟩
      rwa [listed] at read
    · have read := capital ⟨value, bound⟩
      rwa [listed] at read

/-! ## Texts -/

variable {digits : List Char} {bytes : List UInt8}

/-- Two halves make a byte. -/
theorem toNat_ofNat_halves {high low : Nat} (upper : high < 16) (lower : low < 16) :
    (UInt8.ofNat (16 * high + low)).toNat / 16 = high ∧
      (UInt8.ofNat (16 * high + low)).toNat % 16 = low := by
  rw [UInt8.toNat_ofNat_of_lt' (show 16 * high + low < 256 by omega)]
  omega

theorem decode?_eq_some_iff : decode? digits = some bytes ↔ Spells digits bytes := by
  constructor
  · intro read
    fun_induction decode? digits generalizing bytes with
    | case1 =>
      cases read
      exact .nil
    | case2 => cases read
    | case3 high low rest ih =>
      simp only [bind, Option.bind_eq_some_iff, Option.some.injEq] at read
      obtain ⟨upper, highRead, lower, lowRead, others, restRead, rfl⟩ := read
      have highDigit := digitValue?_eq_some_iff.mp highRead
      have lowDigit := digitValue?_eq_some_iff.mp lowRead
      obtain ⟨highHalf, lowHalf⟩ := toNat_ofNat_halves highDigit.lt lowDigit.lt
      exact .cons (highHalf.symm ▸ highDigit) (lowHalf.symm ▸ lowDigit) (ih restRead)
  · intro spells
    induction spells with
    | nil => rfl
    | @cons high low byte digits bytes upper lower rest ih =>
      rw [decode?, digitValue?_eq_some_iff.mpr upper, digitValue?_eq_some_iff.mpr lower, ih]
      simp only [Option.bind_eq_bind, Option.bind_some, Nat.div_add_mod, UInt8.ofNat_toNat]

theorem Spells.length_eq (spells : Spells digits bytes) : digits.length = 2 * bytes.length := by
  induction spells with
  | nil => rfl
  | cons upper lower rest ih =>
    simp only [List.length_cons]
    omega

theorem Spells.isBlank_eq_false (spells : Spells digits bytes) :
    ∀ c ∈ digits, isBlank c = false := by
  induction spells with
  | nil => exact List.forall_mem_nil _
  | cons upper lower rest ih =>
    exact List.forall_mem_cons.mpr ⟨upper.isBlank_eq_false,
      List.forall_mem_cons.mpr ⟨lower.isBlank_eq_false, ih⟩⟩

theorem spells_encode (bytes : List UInt8) : Spells (encode bytes) bytes :=
  decode?_eq_some_iff.mp (decode?_encode bytes)

end BoardRules.Text.Hex
