import BoardRules.Json.Value

/-!
# Writing JSON

Values are written without blanks. A string escapes quotes, backslashes and control characters, and
holds all other characters as they are.
-/
namespace BoardRules.Json

open Text

/-- The letter that stands behind the backslash of an escaped character. -/
def escapeLetter? : Char → Option Char
  | '\x22' => some '\x22'
  | '\\' => some '\\'
  | '\x08' => some 'b'
  | '\x0c' => some 'f'
  | '\n' => some 'n'
  | '\r' => some 'r'
  | '\t' => some 't'
  | _ => none

def writeChar (c : Char) : List Char :=
  match escapeLetter? c with
  | some letter => ['\\', letter]
  | none => if c.toNat < 0x20 then "\\u00".toList ++ Hex.byteDigits (UInt8.ofNat c.toNat) else [c]

def writeString (s : String) : List Char := '\x22' :: s.toList.flatMap writeChar ++ ['\x22']

def Numeral.write (n : Numeral) : List Char :=
  (if n.negative then ['-'] else []) ++ n.whole ++
    (match n.fraction with
      | none => []
      | some digits => '.' :: digits) ++
    match n.exponent with
    | none => []
    | some (negative, digits) => 'e' :: (if negative then ['-'] else []) ++ digits

/-- The parts with commas between them, in brackets. -/
def bracketed (opening closing : Char) (parts : List (List Char)) : List Char :=
  opening :: (List.intercalate [','] parts ++ [closing])

mutual

def Value.write : Value → List Char
  | .null => "null".toList
  | .bool true => "true".toList
  | .bool false => "false".toList
  | .number n => n.write
  | .string s => writeString s
  | .array items => bracketed '[' ']' (writeItems items)
  | .object members => bracketed '\x7b' '\x7d' (writeMembers members)

def writeItems : List Value → List (List Char)
  | [] => []
  | item :: items => item.write :: writeItems items

def writeMembers : List (String × Value) → List (List Char)
  | [] => []
  | (key, value) :: members => (writeString key ++ ':' :: value.write) :: writeMembers members

end

end BoardRules.Json
