import BoardRules.Json.Numeral
import BoardRules.Json.Quoted
import BoardRules.Text.Pieces

/-!
# JSON texts as trees

A text is read into a tree without regard to what it is decoded into. Where the text stops being
JSON the tree ends: the value at that place is `broken`, and every array or object around it is left
open. So a decoder that walks the tree in order meets the first failure of the text where the text
has it. The brackets that are open while reading are kept in a list, so that no depth of nesting is
too deep.
-/
namespace BoardRules.Json

open Text

inductive Node where
  | null
  | bool (b : Bool)
  | number (n : Numeral)
  /-- A well-formed string; `none` if it is no sequence of characters. -/
  | string (value : Option String)
  | array (items : List Node) (closed : Bool)
  | object (members : List (Option String × Node)) (closed : Bool)
  /-- Here the text is no JSON. -/
  | broken
  deriving Repr

/-- A tree, and whether anything but blanks follows its text. -/
structure Document where
  root : Node
  trailing : Bool
  deriving Repr

/-- An array or object whose end has not been read; what it holds is kept last first. -/
inductive Frame where
  | array (items : List Node)
  /-- The key is that of the member to come. -/
  | object (members : List (Option String × Node)) (key : Option String)
  deriving Repr

/-- What must come next in the text. -/
inductive Expected where
  | value
  | firstItem
  | firstKey
  | key
  | separator
  deriving DecidableEq, Repr

def Frame.put (node : Node) : Frame → Frame
  | .array items => .array (node :: items)
  | .object members key => .object ((key, node) :: members) none

def Frame.node (closed : Bool) : Frame → Node
  | .array items => .array items.reverse closed
  | .object members _ => .object members.reverse closed

def Frame.closing : Frame → Char
  | .array _ => ']'
  | .object _ _ => '\x7d'

/-- The tree when the text ends inside the open frames, innermost first, right after a value. -/
def leaveOpen (node : Node) (frames : List Frame) : Node :=
  frames.foldl (fun node frame => (frame.put node).node false) node

/-- The tree when the text fails where something is expected. -/
def failAt (expected : Expected) (frames : List Frame) : Document :=
  match expected, frames with
  | .value, frames => ⟨leaveOpen .broken frames, false⟩
  | _, frame :: frames => ⟨leaveOpen (frame.node false) frames, false⟩
  | _, [] => ⟨.broken, false⟩

def isSpace (c : Char) : Bool := c == ' ' || c == '\n' || c == '\t' || c == '\r'

def isSpaceSymbol : Symbol → Bool
  | some c => isSpace c
  | none => false

def skipSpace (s : List Symbol) : List Symbol := s.dropWhile isSpaceSymbol

/-- One step of reading: the text is over, or reading goes on with the rest. -/
inductive Step where
  | done (document : Document)
  | more (expected : Expected) (frames : List Frame) (rest : List Symbol)

/-- A value has been read and goes into the innermost frame. -/
def finishValue (node : Node) (frames : List Frame) (rest : List Symbol) : Step :=
  match frames with
  | [] => .done ⟨node, !(skipSpace rest).isEmpty⟩
  | frame :: frames => .more .separator (frame.put node :: frames) rest

def finishLiteral (word : List Char) (node : Node) (frames : List Frame) (rest : List Symbol) :
    Step :=
  match after? (word.map some) rest with
  | some rest => finishValue node frames rest
  | none => .done (failAt .value frames)

/-- Reads a key together with the colon after it. -/
def readKey (members : List (Option String × Node)) (frames : List Frame) (rest : List Symbol) :
    Step :=
  match scanQuoted? rest with
  | none => .done (failAt .key (.object members none :: frames))
  | some (parts, rest) =>
    let frames := .object members ((characters? parts).map String.ofList) :: frames
    match skipSpace rest with
    | some ':' :: rest => .more .value frames rest
    | _ => .done (failAt .value frames)

/-- Reads the beginning of a value that starts with `c`. -/
def readValue (frames : List Frame) (c : Char) (rest : List Symbol) : Step :=
  match c with
  | '\x22' =>
    match scanQuoted? rest with
    | some (parts, rest) =>
      finishValue (.string ((characters? parts).map String.ofList)) frames rest
    | none => .done (failAt .value frames)
  | '[' => .more .firstItem (.array [] :: frames) rest
  | '\x7b' => .more .firstKey (.object [] none :: frames) rest
  | 'n' => finishLiteral ['u', 'l', 'l'] .null frames rest
  | 't' => finishLiteral ['r', 'u', 'e'] (.bool true) frames rest
  | 'f' => finishLiteral ['a', 'l', 's', 'e'] (.bool false) frames rest
  | c =>
    match scanNumeral? (some c :: rest) with
    | some (n, rest) => finishValue (.number n) frames rest
    | none => .done (failAt .value frames)

/-- Reads on from the character `c`, which is no blank. -/
def readNext (expected : Expected) (frames : List Frame) (c : Char) (rest : List Symbol) : Step :=
  match expected, frames with
  | .value, frames => readValue frames c rest
  | .firstItem, frame :: frames =>
    if c = ']' then finishValue (frame.node true) frames rest
    else readValue (frame :: frames) c rest
  | .firstKey, .object members key :: frames =>
    if c = '\x7d' then finishValue (.object members.reverse true) frames rest
    else if c = '\x22' then readKey members frames rest
    else .done (failAt .firstKey (.object members key :: frames))
  | .key, .object members key :: frames =>
    if c = '\x22' then readKey members frames rest
    else .done (failAt .key (.object members key :: frames))
  | .separator, frame :: frames =>
    if c = frame.closing then finishValue (frame.node true) frames rest
    else if c = ',' then
      match frame with
      | .array items => .more .value (.array items :: frames) rest
      | .object members key => .more .key (.object members key :: frames) rest
    else .done (failAt .separator (frame :: frames))
  | expected, frames => .done (failAt expected frames)

theorem length_skipSpace_le (s : List Symbol) : (skipSpace s).length ≤ s.length :=
  (List.dropWhile_sublist _).length_le

theorem finishValue_length {node : Node} {frames frames' : List Frame} {rest rest' : List Symbol}
    {expected : Expected} (h : finishValue node frames rest = .more expected frames' rest') :
    rest' = rest := by
  unfold finishValue at h
  split at h
  · simp at h
  · simp only [Step.more.injEq] at h; exact h.2.2.symm

theorem finishLiteral_length {word : List Char} {node : Node} {frames frames' : List Frame}
    {rest rest' : List Symbol} {expected : Expected}
    (h : finishLiteral word node frames rest = .more expected frames' rest') :
    rest'.length ≤ rest.length := by
  unfold finishLiteral at h
  split at h
  · next found =>
    rw [finishValue_length h, length_after? found]; omega
  · simp at h

theorem readKey_length {members : List (Option String × Node)} {frames frames' : List Frame}
    {rest rest' : List Symbol} {expected : Expected}
    (h : readKey members frames rest = .more expected frames' rest') :
    rest'.length ≤ rest.length := by
  unfold readKey at h
  split at h
  · simp at h
  · next parts after found =>
    simp only at h
    split at h
    · next tail skipped =>
      simp only [Step.more.injEq] at h
      have bound := length_skipSpace_le after
      have scanned := length_scanQuoted_lt found
      rw [skipped, List.length_cons, h.2.2] at bound
      omega
    · simp at h

theorem length_scanNumeral_lt {s rest : List Symbol} {n : Numeral}
    (h : scanNumeral? s = some (n, rest)) : rest.length < s.length := by
  unfold scanNumeral? at h
  split at h
  · exact Nat.lt_succ_of_lt (length_scanUnsigned_lt h)
  · exact length_scanUnsigned_lt h

theorem readValue_length {frames frames' : List Frame} {c : Char} {rest rest' : List Symbol}
    {expected : Expected} (h : readValue frames c rest = .more expected frames' rest') :
    rest'.length ≤ rest.length := by
  unfold readValue at h
  split at h
  · split at h
    · next found =>
      rw [finishValue_length h]
      exact Nat.le_of_lt (length_scanQuoted_lt found)
    · simp at h
  · simp only [Step.more.injEq] at h; exact Nat.le_of_eq (congrArg List.length h.2.2.symm)
  · simp only [Step.more.injEq] at h; exact Nat.le_of_eq (congrArg List.length h.2.2.symm)
  · exact finishLiteral_length h
  · exact finishLiteral_length h
  · exact finishLiteral_length h
  · split at h
    · next found =>
      rw [finishValue_length h]
      exact Nat.le_of_lt_succ (length_scanNumeral_lt found)
    · simp at h

theorem readNext_length {expected expected' : Expected} {frames frames' : List Frame} {c : Char}
    {rest rest' : List Symbol}
    (h : readNext expected frames c rest = .more expected' frames' rest') :
    rest'.length ≤ rest.length := by
  unfold readNext at h
  split at h
  · exact readValue_length h
  · split at h
    · exact Nat.le_of_eq (congrArg List.length (finishValue_length h))
    · exact readValue_length h
  · split at h
    · exact Nat.le_of_eq (congrArg List.length (finishValue_length h))
    · split at h
      · exact readKey_length h
      · simp at h
  · split at h
    · exact readKey_length h
    · simp at h
  · split at h
    · exact Nat.le_of_eq (congrArg List.length (finishValue_length h))
    · split at h
      · split at h <;>
          (simp only [Step.more.injEq] at h; exact Nat.le_of_eq (congrArg List.length h.2.2.symm))
      · simp at h
  · simp at h

/-- Reads on in the middle of a text. -/
def readFrom (expected : Expected) (frames : List Frame) : List Symbol → Document
  | [] => failAt expected frames
  | none :: _ => failAt expected frames
  | some c :: rest =>
    if isSpace c then readFrom expected frames rest
    else match _step : readNext expected frames c rest with
      | .done document => document
      | .more expected frames rest => readFrom expected frames rest
termination_by s => s.length
decreasing_by
  · exact Nat.lt_succ_self _
  · exact Nat.lt_succ_of_le (readNext_length _step)

/-- The tree of a text. -/
def Document.ofSymbols (text : List Symbol) : Document := readFrom .value [] text

def Document.ofBytes (body : List UInt8) : Document := .ofSymbols (Utf8.symbols body)

end BoardRules.Json
