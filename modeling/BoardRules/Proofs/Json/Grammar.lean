import BoardRules.Json.Node

/-!
# JSON texts

The texts that a tree can be written as, by the grammar of JSON and without regard to how they are
read. Blanks may stand around every value and every mark, and each character of a string may be written as
it is or by any escape that means it.
-/
namespace BoardRules.Json

open Text

/-- White space that means nothing. -/
def Blanks (text : List Char) : Prop := ∀ c ∈ text, c ∈ [' ', '\n', '\t', '\r']

instance (text : List Char) : Decidable (Blanks text) := List.decidableBAll _ text

/-! ## Strings -/

/-- A hexadecimal digit in either case. -/
def HexDigit (c : Char) (value : Nat) : Prop :=
  value < 16 ∧ (c = Nat.digitChar value ∨ c = (Nat.digitChar value).toUpper)

/-- The characters that a letter behind a backslash can mean. -/
def shortEscapes : List (Char × Char) :=
  [('\x22', '\x22'), ('\\', '\\'), ('/', '/'), ('b', '\x08'), ('f', '\x0c'), ('n', '\n'),
    ('r', '\r'), ('t', '\t')]

/-- What stands between the quotes of a string, place by place. -/
inductive QuotedText : List Quoted → List Char → Prop where
  | nil : QuotedText [] []
  | raw {c : Char} {parts : List Quoted} {text : List Char} :
      0x20 ≤ c.toNat → c ≠ '\x22' → c ≠ '\\' → QuotedText parts text →
      QuotedText (.char c :: parts) (c :: text)
  | short {letter c : Char} {parts : List Quoted} {text : List Char} :
      (letter, c) ∈ shortEscapes → QuotedText parts text →
      QuotedText (.char c :: parts) ('\\' :: letter :: text)
  | unit {a b c d : Char} {h i j k : Nat} {parts : List Quoted} {text : List Char} :
      HexDigit a h → HexDigit b i → HexDigit c j → HexDigit d k → QuotedText parts text →
      QuotedText (.unit (((h * 16 + i) * 16 + j) * 16 + k) :: parts)
        ('\\' :: 'u' :: a :: b :: c :: d :: text)

/-- The characters that the places of a string stand for. A character beyond the first 65536 takes two
units, a high surrogate and a low one. -/
inductive Denotes : List Quoted → List Char → Prop where
  | nil : Denotes [] []
  | char (c : Char) {parts : List Quoted} {cs : List Char} :
      Denotes parts cs → Denotes (.char c :: parts) (c :: cs)
  | unit (c : Char) {parts : List Quoted} {cs : List Char} :
      c.toNat < 0x10000 → Denotes parts cs → Denotes (.unit c.toNat :: parts) (c :: cs)
  | pair (c : Char) {parts : List Quoted} {cs : List Char} :
      0x10000 ≤ c.toNat → Denotes parts cs →
      Denotes (.unit (0xD800 + (c.toNat - 0x10000) / 0x400) ::
        .unit (0xDC00 + (c.toNat - 0x10000) % 0x400) :: parts) (c :: cs)

/-- A text in quotes, and the string that it spells, if it spells one: units that are half a pair stand
for no character. -/
def StringText (value : Option String) (text : List Char) : Prop :=
  ∃ parts body, QuotedText parts body ∧ text = '\x22' :: (body ++ ['\x22']) ∧
    ∀ s, value = some s ↔ Denotes parts s.toList

/-! ## Numerals -/

def Digits (text : List Char) : Prop := text ≠ [] ∧ ∀ c ∈ text, c.isDigit = true

instance (text : List Char) : Decidable (Digits text) :=
  @instDecidableAnd _ _ _ (List.decidableBAll (fun c => c.isDigit = true) text)

inductive FractionText : Option (List Char) → List Char → Prop where
  | absent : FractionText none []
  | present {digits : List Char} : Digits digits → FractionText (some digits) ('.' :: digits)

inductive ExponentText : Option (Bool × List Char) → List Char → Prop where
  | absent : ExponentText none []
  | present {mark : Char} {negative : Bool} {sign digits : List Char} :
      mark ∈ ['e', 'E'] → (negative, sign) ∈ [(false, []), (false, ['+']), (true, ['-'])] →
      Digits digits → ExponentText (some (negative, digits)) (mark :: (sign ++ digits))

/-- No digit follows a zero in front. -/
def WholeText (whole : List Char) : Prop :=
  Digits whole ∧ ∀ rest, whole = '0' :: rest → rest = []

def NumeralText (n : Numeral) (text : List Char) : Prop :=
  WholeText n.whole ∧ ∃ fraction exponent, FractionText n.fraction fraction ∧
    ExponentText n.exponent exponent ∧
    text = (if n.negative then ['-'] else []) ++ (n.whole ++ (fraction ++ exponent))

/-! ## Values -/

/-- The parts of a text that trees and lists of trees are written as. -/
inductive Piece where
  | value (node : Node)
  /-- A value with blanks around it. -/
  | padded (node : Node)
  | items (nodes : List Node)
  | member (key : Option String) (node : Node)
  | members (entries : List (Option String × Node))

inductive Written : Piece → List Char → Prop where
  | nullWord : Written (.value .null) ['n', 'u', 'l', 'l']
  | trueWord : Written (.value (.bool true)) ['t', 'r', 'u', 'e']
  | falseWord : Written (.value (.bool false)) ['f', 'a', 'l', 's', 'e']
  | number {n : Numeral} {text : List Char} :
      NumeralText n text → Written (.value (.number n)) text
  | string {value : Option String} {text : List Char} :
      StringText value text → Written (.value (.string value)) text
  | emptyArray {blanks : List Char} :
      Blanks blanks → Written (.value (.array [] true)) ('[' :: (blanks ++ [']']))
  | array {nodes : List Node} {text : List Char} :
      Written (.items nodes) text → Written (.value (.array nodes true)) ('[' :: (text ++ [']']))
  | emptyObject {blanks : List Char} :
      Blanks blanks → Written (.value (.object [] true)) ('\x7b' :: (blanks ++ ['\x7d']))
  | object {entries : List (Option String × Node)} {text : List Char} :
      Written (.members entries) text →
      Written (.value (.object entries true)) ('\x7b' :: (text ++ ['\x7d']))
  | padded {node : Node} {before text after : List Char} :
      Blanks before → Written (.value node) text → Blanks after →
      Written (.padded node) (before ++ (text ++ after))
  | lastItem {node : Node} {text : List Char} :
      Written (.padded node) text → Written (.items [node]) text
  | item {node : Node} {nodes : List Node} {text rest : List Char} :
      Written (.padded node) text → Written (.items nodes) rest →
      Written (.items (node :: nodes)) (text ++ ',' :: rest)
  | member {key : Option String} {node : Node} {before name after text : List Char} :
      Blanks before → StringText key name → Blanks after → Written (.padded node) text →
      Written (.member key node) (before ++ (name ++ (after ++ ':' :: text)))
  | lastMember {key : Option String} {node : Node} {text : List Char} :
      Written (.member key node) text → Written (.members [(key, node)]) text
  | nextMember {key : Option String} {node : Node} {entries : List (Option String × Node)}
      {text rest : List Char} :
      Written (.member key node) text → Written (.members entries) rest →
      Written (.members ((key, node) :: entries)) (text ++ ',' :: rest)

/-- A JSON text is a value with blanks around it. -/
def TextOf (node : Node) (text : List Char) : Prop := Written (.padded node) text

theorem Written.plain {node : Node} {text : List Char} (written : Written (.value node) text) :
    TextOf node text := by
  have none : Blanks [] := by decide
  simpa [TextOf] using Written.padded none written none

end BoardRules.Json
