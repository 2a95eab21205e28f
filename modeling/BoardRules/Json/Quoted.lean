import BoardRules.Text.Hex
import BoardRules.Text.Utf8

/-!
# Quoted strings

A string is well formed if its quotes match, its escapes are known and it holds no control
character. It can still fail to be a sequence of characters: an escape may name half of a surrogate
pair, and a byte may belong to no character.
-/
namespace BoardRules.Json

open Text

/-- What one place of a string stands for. -/
inductive Quoted where
  | char (c : Char)
  /-- A UTF-16 unit given by its number. -/
  | unit (n : Nat)
  | gap
  deriving DecidableEq, Repr

/-- The escapes of one letter. -/
def escape? : Char → Option Char
  | '\x22' => some '\x22'
  | '\\' => some '\\'
  | '/' => some '/'
  | 'b' => some '\x08'
  | 'f' => some '\x0c'
  | 'n' => some '\n'
  | 'r' => some '\r'
  | 't' => some '\t'
  | _ => none

/-- The number of a unit written with four hexadecimal digits. -/
def unit? (a b c d : Char) : Option Nat := do
  some (((← Hex.digitValue? a) * 16 + (← Hex.digitValue? b)) * 256 +
    ((← Hex.digitValue? c) * 16 + (← Hex.digitValue? d)))

/-- Reads up to the closing quote, which is not part of the result. -/
def scanQuoted? : List Symbol → Option (List Quoted × List Symbol)
  | [] => none
  | none :: rest => (scanQuoted? rest).map fun (parts, rest) => (.gap :: parts, rest)
  | some '\x22' :: rest => some ([], rest)
  | some '\\' :: some 'u' :: some a :: some b :: some c :: some d :: rest =>
    match unit? a b c d with
    | some n => (scanQuoted? rest).map fun (parts, rest) => (.unit n :: parts, rest)
    | none => none
  | some '\\' :: some e :: rest =>
    match escape? e with
    | some c => (scanQuoted? rest).map fun (parts, rest) => (.char c :: parts, rest)
    | none => none
  | some c :: rest =>
    if c = '\\' ∨ c.toNat < 0x20 then none
    else (scanQuoted? rest).map fun (parts, rest) => (.char c :: parts, rest)

theorem length_lt_of_map {result : Option (List Quoted × List Symbol)} {part : Quoted}
    {parts : List Quoted} {rest : List Symbol} {bound : Nat}
    (h : result.map (fun (parts, rest) => (part :: parts, rest)) = some (parts, rest))
    (shorter : ∀ parts, result = some (parts, rest) → rest.length < bound) :
    rest.length < bound := by
  simp only [Option.map_eq_some_iff, Prod.exists, Prod.mk.injEq] at h
  obtain ⟨parts', rest', found, _, rfl⟩ := h
  exact shorter parts' found

theorem length_scanQuoted_lt {s rest : List Symbol} {parts : List Quoted}
    (h : scanQuoted? s = some (parts, rest)) : rest.length < s.length := by
  fun_induction scanQuoted? s generalizing parts with
  | case1 => simp at h
  | case2 tail ih => exact length_lt_of_map h fun _ found => Nat.lt_succ_of_lt (ih found)
  | case3 tail =>
    simp only [Option.some.injEq, Prod.mk.injEq] at h
    simp [h.2]
  | case4 a b c d tail n _ ih =>
    refine length_lt_of_map h fun _ found => Nat.lt_of_lt_of_le (ih found) ?_
    simp only [List.length_cons]; omega
  | case5 => simp at h
  | case6 e tail _ c _ ih =>
    refine length_lt_of_map h fun _ found => Nat.lt_of_lt_of_le (ih found) ?_
    simp only [List.length_cons]; omega
  | case7 => simp at h
  | case8 => simp at h
  | case9 c tail _ _ _ _ ih => exact length_lt_of_map h fun _ found => Nat.lt_succ_of_lt (ih found)

def isHighSurrogate (n : Nat) : Bool := 0xD800 ≤ n && n < 0xDC00

def isLowSurrogate (n : Nat) : Bool := 0xDC00 ≤ n && n < 0xE000

/-- The characters of a string, if every unit is a character or one half of a surrogate pair. -/
def characters? : List Quoted → Option (List Char)
  | [] => some []
  | .char c :: rest => (characters? rest).map (c :: ·)
  | .gap :: _ => none
  | .unit high :: .unit low :: rest =>
    if isHighSurrogate high && isLowSurrogate low then
      (characters? rest).map
        (Char.ofNat (0x10000 + (high - 0xD800) * 0x400 + (low - 0xDC00)) :: ·)
    else if isHighSurrogate high || isLowSurrogate high then none
    else (characters? (.unit low :: rest)).map (Char.ofNat high :: ·)
  | .unit n :: rest =>
    if isHighSurrogate n || isLowSurrogate n then none
    else (characters? rest).map (Char.ofNat n :: ·)

end BoardRules.Json
