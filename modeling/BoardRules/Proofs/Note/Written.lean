import BoardRules.Note.Declaration
import Mathlib.Data.List.Chain

/-!
# Written rules

How a note is written that declares given rules. Every rule is a list item of one line: its name in
a code span, and after it the arguments, each between marks of its own. The types admit exactly the
names and arguments that can be written this way.
-/
namespace BoardRules.Note

open Text

/-! ## Names -/

/-- The length of the longest run of `c` in a text. -/
def longestRun (c : Char) : List Char → Nat
  | [] => 0
  | d :: rest => if d = c then max (runLength c rest) (longestRun c rest) else longestRun c rest

/-- One backtick more than stand in a row in the name. -/
def codeFence (name : List Char) : List Char :=
  List.replicate (longestRun backtick name + 1) backtick

/-- A name that is more than spaces gets a space on each side. -/
def codeContent (name : List Char) : List Char :=
  if name.all (· == ' ') then name else ' ' :: (name ++ [' '])

def codeSpan (name : List Char) : List Char := codeFence name ++ (codeContent name ++ codeFence name)

/-! ## Arguments -/

/-- What an argument stands between. -/
inductive Marks where
  | doubleStar
  | doubleLowLine
  | star
  | lowLine
  deriving DecidableEq, Repr

def Marks.mark : Marks → Char
  | doubleStar => '*'
  | doubleLowLine => '_'
  | star => '*'
  | lowLine => '_'

def Marks.count : Marks → Nat
  | doubleStar => 2
  | doubleLowLine => 2
  | star => 1
  | lowLine => 1

def Marks.text (marks : Marks) : List Char := List.replicate marks.count marks.mark

/-- All ASCII punctuation gets a backslash in front. -/
def escape (text : List Char) : List Char :=
  text.flatMap fun c => if isAsciiPunctuation c then ['\\', c] else [c]

structure WrittenArgument where
  text : String
  marks : Marks
  nonempty : text.toList ≠ []
  oneLine : '\n' ∉ text.toList
  startsVisible : ∀ c ∈ text.toList.head?, isBlank c = false
  endsVisible : ∀ c ∈ text.toList.getLast?, isBlank c = false

/-- A space comes before every argument. -/
def WrittenArgument.written (argument : WrittenArgument) : List Char :=
  ' ' :: (argument.marks.text ++ (escape argument.text.toList ++ argument.marks.text))

/-! ## Rules -/

structure WrittenRule where
  /-- How many list items the rule's own item stands in. -/
  depth : Nat
  name : String
  arguments : List WrittenArgument
  nonempty : name.toList ≠ []
  oneLine : '\n' ∉ name.toList

namespace WrittenRule

/-- The paragraph of the rule's list item. -/
def content (rule : WrittenRule) : List Char :=
  codeSpan rule.name.toList ++ rule.arguments.flatMap WrittenArgument.written

def line (rule : WrittenRule) : List Char :=
  List.replicate (2 * rule.depth) ' ' ++ '-' :: ' ' :: rule.content

/-- What the rule declares once it is read. -/
def declaration (rule : WrittenRule) : Declaration :=
  ⟨rule.name, rule.arguments.map (·.text)⟩

/-- The first rule stands in no other item, and every other one at most one item deeper than the
rule above it. -/
def Nested (rules : List WrittenRule) : Prop :=
  (∀ rule ∈ rules.head?, rule.depth = 0) ∧
    rules.IsChain fun above below => below.depth ≤ above.depth + 1

end WrittenRule

/-! ## Notes -/

inductive LineEnding where
  | lineFeed
  | carriageReturnLineFeed
  deriving DecidableEq, Repr

def LineEnding.text : LineEnding → List Char
  | lineFeed => ['\n']
  | carriageReturnLineFeed => ['\r', '\n']

/-- The note with one line for each rule, without a line ending after the last. -/
def write (ending : LineEnding) (rules : List WrittenRule) : String :=
  String.ofList (ending.text.intercalate (rules.map WrittenRule.line))

end BoardRules.Note
