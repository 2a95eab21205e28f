/-!
# Decimal numbers

Reading of natural numbers below a bound, and their plain decimal text.
-/
namespace BoardRules.Text.Decimal

def digitValue (c : Char) : Nat := c.toNat - '0'.toNat

/-- The value of a run of digits, most significant first. -/
def value (digits : List Char) : Nat :=
  digits.foldl (fun n c => 10 * n + digitValue c) 0

/-- Reads a nonempty run of ASCII digits. -/
def ofDigits? (cs : List Char) : Option Nat :=
  if !cs.isEmpty && cs.all Char.isDigit then some (value cs) else none

/-- The numbers that fit into 64 bits lie below this bound. -/
def wordBound : Nat := Nat.pow 2 64

/-- Reads a 64-bit number: digits, with one plus sign allowed in front. -/
def word? (cs : List Char) : Option Nat :=
  match ofDigits? (match cs with | '+' :: rest => rest | _ => cs) with
  | some n => if n < wordBound then some n else none
  | none => none

def render (n : Nat) : List Char := Nat.toDigits 10 n

end BoardRules.Text.Decimal
