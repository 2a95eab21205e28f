import BoardRules.Text.Decimal
import BoardRules.Text.Utf8

/-!
# Numerals

A number as it is written, and what it can be read as: an integer without point and exponent, or a
double-precision value. A numeral beyond the range of a double cannot be read at all.
-/
namespace BoardRules.Json

open Text

structure Numeral where
  negative : Bool
  whole : List Char
  /-- The digits after the point, if there is one. -/
  fraction : Option (List Char)
  /-- Sign and digits of the exponent; `true` stands for minus. -/
  exponent : Option (Bool × List Char)
  deriving DecidableEq, Repr

/-! ## Scanning -/

def isDigitSymbol : Symbol → Bool
  | some c => c.isDigit
  | none => false

/-- The digits that the text begins with, and the rest. -/
def spanDigits (s : List Symbol) : List Char × List Symbol :=
  ((s.takeWhile isDigitSymbol).filterMap id, s.dropWhile isDigitSymbol)

/-- At least one digit, and no second one after a leading zero. -/
def scanWhole? (s : List Symbol) : Option (List Char × List Symbol) :=
  match spanDigits s with
  | ([], _) => none
  | ('0' :: _ :: _, _) => none
  | (digits, rest) => some (digits, rest)

def scanFraction? : List Symbol → Option (Option (List Char) × List Symbol)
  | some '.' :: rest =>
    match spanDigits rest with
    | ([], _) => none
    | (digits, rest) => some (some digits, rest)
  | s => some (none, s)

/-- The sign in front of the digits of an exponent. -/
def scanSign : List Symbol → Bool × List Symbol
  | some '+' :: rest => (false, rest)
  | some '-' :: rest => (true, rest)
  | s => (false, s)

def scanExponent? : List Symbol → Option (Option (Bool × List Char) × List Symbol)
  | [] => some (none, [])
  | first :: rest =>
    if first = some 'e' ∨ first = some 'E' then
      match spanDigits (scanSign rest).2 with
      | ([], _) => none
      | (digits, after) => some (some ((scanSign rest).1, digits), after)
    else some (none, first :: rest)

/-- The numeral without its sign. -/
def scanUnsigned? (negative : Bool) (s : List Symbol) : Option (Numeral × List Symbol) := do
  let (whole, s) ← scanWhole? s
  let (fraction, s) ← scanFraction? s
  let (exponent, s) ← scanExponent? s
  some (⟨negative, whole, fraction, exponent⟩, s)

def scanNumeral? : List Symbol → Option (Numeral × List Symbol)
  | some '-' :: rest => scanUnsigned? true rest
  | s => scanUnsigned? false s

theorem length_spanDigits_le (s : List Symbol) : (spanDigits s).2.length ≤ s.length :=
  (List.dropWhile_sublist _).length_le

theorem length_spanDigits_lt {s : List Symbol} (h : (spanDigits s).1 ≠ []) :
    (spanDigits s).2.length < s.length := by
  cases s with
  | nil => simp [spanDigits] at h
  | cons first rest =>
    cases digit : isDigitSymbol first with
    | false => simp [spanDigits, digit] at h
    | true =>
      simp only [spanDigits, List.dropWhile_cons, digit, if_true]
      exact Nat.lt_succ_of_le (List.dropWhile_sublist _).length_le

theorem length_scanWhole_lt {s rest : List Symbol} {digits : List Char}
    (h : scanWhole? s = some (digits, rest)) : rest.length < s.length := by
  have shorter := @length_spanDigits_lt s
  unfold scanWhole? at h
  split at h <;> simp_all

theorem length_scanFraction_le {s rest : List Symbol} {digits : Option (List Char)}
    (h : scanFraction? s = some (digits, rest)) : rest.length ≤ s.length := by
  unfold scanFraction? at h
  split at h
  · next tail =>
    have shorter := length_spanDigits_le tail
    split at h
    · simp at h
    · next after scanned =>
      simp only [Option.some.injEq, Prod.mk.injEq] at h
      rw [scanned, h.2] at shorter
      exact Nat.le_succ_of_le shorter
  · simp only [Option.some.injEq, Prod.mk.injEq] at h
    exact h.2 ▸ Nat.le_refl _

theorem length_scanSign_le (s : List Symbol) : (scanSign s).2.length ≤ s.length := by
  unfold scanSign
  split <;> simp

theorem length_scanExponent_le {s rest : List Symbol} {exponent : Option (Bool × List Char)}
    (h : scanExponent? s = some (exponent, rest)) : rest.length ≤ s.length := by
  unfold scanExponent? at h
  split at h
  · simp only [Option.some.injEq, Prod.mk.injEq] at h
    simp [← h.2]
  · next first tail =>
    split at h
    · have signed := length_scanSign_le tail
      have shorter := length_spanDigits_le (scanSign tail).2
      split at h
      · simp at h
      · next after scanned =>
        simp only [Option.some.injEq, Prod.mk.injEq] at h
        rw [scanned, h.2] at shorter
        exact Nat.le_succ_of_le (Nat.le_trans shorter signed)
    · simp only [Option.some.injEq, Prod.mk.injEq] at h
      exact h.2 ▸ Nat.le_refl _

theorem length_scanUnsigned_lt {negative : Bool} {s rest : List Symbol} {n : Numeral}
    (h : scanUnsigned? negative s = some (n, rest)) : rest.length < s.length := by
  unfold scanUnsigned? at h
  simp only [Option.bind_eq_bind, Option.bind_eq_some_iff, Prod.exists, Option.some.injEq,
    Prod.mk.injEq] at h
  obtain ⟨whole, s₁, hwhole, fraction, s₂, hfraction, exponent, s₃, hexponent, _, rfl⟩ := h
  exact Nat.lt_of_le_of_lt (length_scanExponent_le hexponent)
    (Nat.lt_of_le_of_lt (length_scanFraction_le hfraction) (length_scanWhole_lt hwhole))

/-! ## Range -/

/-- Takes digits into a significand as long as it stays below the bound of 64 bits. -/
def absorb (significand : Nat) : List Char → Nat × List Char
  | [] => (significand, [])
  | d :: rest =>
    let next := 10 * significand + Decimal.digitValue d
    if next < Decimal.wordBound then absorb next rest else (significand, d :: rest)

/-- The nearest number with 53 significant binary digits, ties to even. -/
def roundToDouble (n : Nat) : Nat :=
  if n < Nat.pow 2 53 then n
  else
    let unit := Nat.pow 2 (n.log2 - 52)
    let quotient := n / unit
    let excess := 2 * (n % unit)
    if unit < excess ∨ (excess = unit ∧ quotient % 2 = 1) then (quotient + 1) * unit
    else quotient * unit

/-- From here on a number rounds beyond the largest double. -/
def doubleBound : Nat := Nat.pow 2 1024 - Nat.pow 2 970

/-- No power of ten above this one is a double. -/
def maxPowerOfTen : Int := 308

namespace Numeral

def isInteger (n : Numeral) : Bool := n.fraction.isNone && n.exponent.isNone

/-- The significand that is kept, and the digits of the whole part that no longer fit. -/
def significand (n : Numeral) : Nat × Int :=
  let (whole, dropped) := absorb 0 n.whole
  let fraction := n.fraction.getD []
  let (kept, rest) := absorb whole fraction
  (kept, (dropped.length : Int) - ((fraction.length - rest.length : Nat) : Int))

def exponentValue (n : Numeral) : Int :=
  match n.exponent with
  | none => 0
  | some (true, digits) => -(Decimal.value digits : Int)
  | some (false, digits) => Decimal.value digits

/-- Whether the numeral lies within the range of a double: the rounded significand is multiplied
by the rounded power of ten, and the product must round to a double. -/
def isFinite (n : Numeral) : Bool :=
  let (significand, shift) := n.significand
  let power := shift + n.exponentValue
  significand == 0 || power < 0 ||
    (power ≤ maxPowerOfTen &&
      roundToDouble significand * roundToDouble (Nat.pow 10 power.toNat) < doubleBound)

/-- A 64-bit natural number. -/
def word? (n : Numeral) : Option Nat :=
  let value := Decimal.value n.whole
  if n.isInteger && !n.negative && value < Decimal.wordBound then some value else none

/-- A negative integer that 64 bits hold. -/
def isNegativeWord (n : Numeral) : Bool :=
  let value := Decimal.value n.whole
  n.isInteger && n.negative && 0 < value && value ≤ Nat.pow 2 63

end Numeral

end BoardRules.Json
