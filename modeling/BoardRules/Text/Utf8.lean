/-!
# UTF-8

A body of bytes is read as a sequence of symbols: the characters that it encodes and, where it
encodes none, one gap for every byte.
-/
namespace BoardRules.Text

/-- A character, or a byte that belongs to none. -/
abbrev Symbol := Option Char

namespace Utf8

/-- The character whose encoding the bytes begin with. No encoding is longer than four bytes. -/
def first? (bytes : List UInt8) : Option Char :=
  (bytes.take 4).toByteArray.utf8DecodeChar? 0

def symbols : List UInt8 → List Symbol
  | [] => []
  | byte :: rest =>
    match first? (byte :: rest) with
    | some c => some c :: symbols (rest.drop (c.utf8Size - 1))
    | none => none :: symbols rest
termination_by bytes => bytes.length
decreasing_by
  · simp only [List.length_drop, List.length_cons]; omega
  · simp

def encode (text : List Char) : List UInt8 := text.flatMap String.utf8EncodeChar

end Utf8

end BoardRules.Text
