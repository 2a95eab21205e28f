import BoardRules.Text.Decimal
import BoardRules.Text.Hex
import BoardRules.Text.Pieces

/-!
# Socket addresses

What a server listens on: an IP address and the number of a service there. Addresses of version 6
stand in brackets; their groups can end in an address of version 4, and two colons stand for the
zeros that are missing.
-/
namespace BoardRules

structure Ipv4 where
  a : Nat
  b : Nat
  c : Nat
  d : Nat
  deriving DecidableEq, Repr

inductive SocketAddress where
  | v4 (ip : Ipv4) (portNumber : Nat)
  /-- Eight groups of 16 bits; a scope of zero is none. -/
  | v6 (groups : List Nat) (scope portNumber : Nat)
  deriving DecidableEq, Repr

namespace SocketAddress

open Text

/-! ## Reading

A reader takes a part that the text begins with and gives the rest of the text with it. -/

/-- A decimal number below the bound; leading zeros do not count. -/
def decimalBelow? (bound : Nat) (cs : List Char) : Option (Nat × List Char) :=
  let digits := cs.takeWhile Char.isDigit
  let n := Decimal.value digits
  if digits.isEmpty || bound ≤ n then none else some (n, cs.dropWhile Char.isDigit)

/-- A leading zero could be taken for the mark of an octal number and is refused. -/
def octet? (cs : List Char) : Option (Nat × List Char) :=
  let digits := cs.takeWhile Char.isDigit
  if 3 < digits.length || (1 < digits.length && digits.head? == some '0') then none
  else decimalBelow? 256 cs

def ipv4? (cs : List Char) : Option (Ipv4 × List Char) := do
  let (a, cs) ← octet? cs
  let (b, cs) ← octet? (← after? ['.'] cs)
  let (c, cs) ← octet? (← after? ['.'] cs)
  let (d, cs) ← octet? (← after? ['.'] cs)
  some (⟨a, b, c, d⟩, cs)

def isHexDigit (c : Char) : Bool := (Hex.digitValue? c).isSome

/-- Up to four hexadecimal digits. -/
def group? (cs : List Char) : Option (Nat × List Char) :=
  let digits := cs.takeWhile isHexDigit
  if digits.isEmpty || 4 < digits.length then none
  else
    some ((digits.filterMap Hex.digitValue?).foldl (fun n digit => 16 * n + digit) 0,
      cs.dropWhile isHexDigit)

def ipv4Groups (ip : Ipv4) : List Nat := [256 * ip.a + ip.b, 256 * ip.c + ip.d]

/-- Groups with colons between them, and whether an address of version 4 is the last of them. -/
structure GroupRun where
  groups : List Nat
  embedded : Bool
  rest : List Char
  deriving DecidableEq, Repr

/-- Reads as many groups as there are, but no more than `n`. -/
def groupRun : (isFirst : Bool) → (n : Nat) → List Char → GroupRun
  | _, 0, cs => ⟨[], false, cs⟩
  | isFirst, n + 1, cs =>
    match if isFirst then some cs else after? [':'] cs with
    | none => ⟨[], false, cs⟩
    | some body =>
      match if n = 0 then none else ipv4? body with
      | some (ip, rest) => ⟨ipv4Groups ip, true, rest⟩
      | none =>
        match group? body with
        | none => ⟨[], false, cs⟩
        | some (group, rest) =>
          let run := groupRun false n rest
          ⟨group :: run.groups, run.embedded, run.rest⟩

/-- Two colons stand for at least one group. -/
def ipv6? (cs : List Char) : Option (List Nat × List Char) :=
  let head := groupRun true 8 cs
  if head.groups.length = 8 then some (head.groups, head.rest)
  else if head.embedded then none
  else do
    let tail := groupRun true (7 - head.groups.length) (← after? [':', ':'] head.rest)
    let zeros := 8 - head.groups.length - tail.groups.length
    some (head.groups ++ List.replicate zeros 0 ++ tail.groups, tail.rest)

def portNumber? (cs : List Char) : Option (Nat × List Char) := do
  decimalBelow? (Nat.pow 2 16) (← after? [':'] cs)

def scope? (cs : List Char) : Option (Nat × List Char) := do
  decimalBelow? (Nat.pow 2 32) (← after? ['%'] cs)

def v4? (cs : List Char) : Option (SocketAddress × List Char) := do
  let (ip, cs) ← ipv4? cs
  let (portNumber, cs) ← portNumber? cs
  some (.v4 ip portNumber, cs)

def v6? (cs : List Char) : Option (SocketAddress × List Char) := do
  let (groups, cs) ← ipv6? (← after? ['['] cs)
  let (scope, cs) := (scope? cs).getD (0, cs)
  let (portNumber, cs) ← portNumber? (← after? [']'] cs)
  some (.v6 groups scope portNumber, cs)

def ofText? (cs : List Char) : Option SocketAddress :=
  match v4? cs <|> v6? cs with
  | some (address, []) => some address
  | _ => none

/-! ## Writing -/

def writeIpv4 (ip : Ipv4) : List Char :=
  List.intercalate ['.'] ([ip.a, ip.b, ip.c, ip.d].map Decimal.render)

def writeGroups (groups : List Nat) : List Char :=
  List.intercalate [':'] (groups.map (Nat.toDigits 16))

/-- Start and length of the longest run of zeros; of several, of the first. -/
def longestZeros : List Nat → Nat × Nat
  | [] => (0, 0)
  | group :: groups =>
    let here := ((group :: groups).takeWhile (· == 0)).length
    let (start, length) := longestZeros groups
    if length ≤ here then (0, here) else (start + 1, length)

/-- An address that maps one of version 4 shows it; otherwise the longest run of zeros is left
out if that saves anything. -/
def writeIpv6 : List Nat → List Char
  | [0, 0, 0, 0, 0, 0xffff, high, low] =>
    "::ffff:".toList ++ writeIpv4 ⟨high / 256, high % 256, low / 256, low % 256⟩
  | groups =>
    let (start, length) := longestZeros groups
    if 1 < length then
      writeGroups (groups.take start) ++ [':', ':'] ++ writeGroups (groups.drop (start + length))
    else writeGroups groups

def render : SocketAddress → String
  | .v4 ip portNumber => String.ofList (writeIpv4 ip ++ ':' :: Decimal.render portNumber)
  | .v6 groups scope portNumber =>
    let scopeText := if scope = 0 then [] else '%' :: Decimal.render scope
    String.ofList ('[' :: writeIpv6 groups ++ scopeText ++ [']', ':'] ++ Decimal.render portNumber)

end SocketAddress

end BoardRules
