/-!
# Hexadecimal text

Bytes are written as two lower-case digits each and read in either case.
-/
namespace BoardRules.Text.Hex

def digitValue? (c : Char) : Option Nat :=
  if c.isDigit then some (c.toNat - '0'.toNat)
  else if 'a' ≤ c ∧ c ≤ 'f' then some (c.toNat - 'a'.toNat + 10)
  else if 'A' ≤ c ∧ c ≤ 'F' then some (c.toNat - 'A'.toNat + 10)
  else none

def byteDigits (b : UInt8) : List Char :=
  [Nat.digitChar (b.toNat / 16), Nat.digitChar (b.toNat % 16)]

def encode (bytes : List UInt8) : List Char := bytes.flatMap byteDigits

/-- Every byte takes two digits, so an odd number of them is no text of bytes. -/
def decode? : List Char → Option (List UInt8)
  | [] => some []
  | [_] => none
  | high :: low :: rest => do
    some (UInt8.ofNat (16 * (← digitValue? high) + (← digitValue? low)) :: (← decode? rest))

theorem digitValue?_digitChar {n : Nat} (h : n < 16) : digitValue? (Nat.digitChar n) = some n := by
  have all : ∀ m : Fin 16, digitValue? (Nat.digitChar m.val) = some m.val := by decide
  exact all ⟨n, h⟩

theorem decode?_encode (bytes : List UInt8) : decode? (encode bytes) = some bytes := by
  induction bytes with
  | nil => rfl
  | cons b bytes ih =>
    have high : b.toNat / 16 < 16 := by have := b.toNat_lt; omega
    have low : b.toNat % 16 < 16 := Nat.mod_lt _ (by decide)
    simp only [encode, List.flatMap_cons, byteDigits, List.cons_append, List.nil_append] at ih ⊢
    rw [decode?, digitValue?_digitChar high, digitValue?_digitChar low, ih]
    simp only [Option.bind_eq_bind, Option.bind_some, Nat.div_add_mod, UInt8.ofNat_toNat]

end BoardRules.Text.Hex
