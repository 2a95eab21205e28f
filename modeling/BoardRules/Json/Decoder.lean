import BoardRules.Json.Failure
import BoardRules.Json.Node

/-!
# Decoders

A decoder takes a tree to a value or to the first failure in it, in reading order. Objects are
decoded by records of named fields, which an array of the fields in their order can stand for.
-/
namespace BoardRules.Json

abbrev Decoder (α : Type) := Node → Except Failure α

namespace Node

/-- Why a tree is not a value of another type. A scalar is read to its end before its type
counts. -/
def mismatch : Node → Failure
  | .broken => .malformed
  | .string none => .malformed
  | .number n => if n.isFinite then .invalidType else .malformed
  | _ => .invalidType

/-- Whether the text of the tree is well-formed JSON. -/
def isWellFormed : Node → Bool
  | .broken => false
  | .array _ closed => closed
  | .object _ closed => closed
  | _ => true

end Node

/-- Passes over a value of any shape. -/
def skip (node : Node) : Except Failure Unit :=
  if node.isWellFormed then .ok () else .error .malformed

def string : Decoder String
  | .string (some value) => .ok value
  | node => .error node.mismatch

def bool : Decoder Bool
  | .bool b => .ok b
  | node => .error node.mismatch

/-- A natural number of 64 bits. -/
def word : Decoder Nat
  | .number n =>
    match n.word? with
    | some value => .ok value
    | none => .error (if n.isNegativeWord then .invalidValue else (Node.number n).mismatch)
  | node => .error node.mismatch

/-- Null stands for an absent value. -/
def optional (decode : Decoder α) : Decoder (Option α)
  | .null => .ok none
  | node => some <$> decode node

/-- An array can only end if its text closes it. -/
def atEnd (closed : Bool) (value : α) : Except Failure α :=
  if closed then .ok value else .error .malformed

def list (decode : Decoder α) : Decoder (List α)
  | .array items closed => do atEnd closed (← items.mapM decode)
  | node => .error node.mismatch

/-! ## Records -/

/-- The fields of a record. `Slots` holds the fields that have been met in an object. -/
structure Fields (α : Type) where
  Slots : Type
  empty : Slots
  /-- Takes the member of an object; `none` if the key names no field. -/
  put : String → Node → Slots → Option (Except Failure Slots)
  /-- The record when the object has ended. -/
  finish : Slots → Except Failure α
  /-- The record from the items of an array, and the items after it. -/
  take : (closed : Bool) → List Node → Except Failure (α × List Node)

namespace Fields

/-- One field. Two values can stand in for it, one when an object does not hold it and one when an
array ends before it. -/
def single (name : String) (decode : Decoder α) (absent short : Option α) : Fields α where
  Slots := Option α
  empty := none
  put key node slot :=
    if key = name then
      match slot with
      | some _ => some (.error (.duplicateField name))
      | none => some (some <$> decode node)
    else none
  finish
    | some value => .ok value
    | none =>
      match absent with
      | some value => .ok value
      | none => .error (.missingField name)
  take
    | _, item :: rest => do return (← decode item, rest)
    | true, [] =>
      match short with
      | some value => .ok (value, [])
      | none => .error .invalidLength
    | false, [] => .error .malformed

/-- A field that must be there. -/
def required (name : String) (decode : Decoder α) : Fields α := single name decode none none

/-- A field that an object may leave out. -/
def maybe (name : String) (decode : Decoder α) : Fields (Option α) :=
  single name (optional decode) (some none) none

/-- A field that may be left out in both forms and has the value `fallback` then. -/
def withDefault (name : String) (decode : Decoder α) (fallback : α) : Fields α :=
  single name decode (some fallback) (some fallback)

def nothing (value : α) : Fields α where
  Slots := Unit
  empty := ()
  put _ _ _ := none
  finish _ := .ok value
  take _ items := .ok (value, items)

/-- The fields of `F` followed by those of `G`. -/
def both (F : Fields (α → β)) (G : Fields α) : Fields β where
  Slots := F.Slots × G.Slots
  empty := (F.empty, G.empty)
  put key node slots :=
    match F.put key node slots.1 with
    | some result => some (result.map fun first => (first, slots.2))
    | none => (G.put key node slots.2).map fun result => result.map fun second => (slots.1, second)
  finish slots := do return (← F.finish slots.1) (← G.finish slots.2)
  take closed items := do
    let (f, items) ← F.take closed items
    let (a, items) ← G.take closed items
    return (f a, items)

instance : Applicative Fields where
  pure := nothing
  seq F G := both F (G ())

/-- Meets one member of an object. Unknown keys are passed over. -/
def meet (F : Fields α) (slots : F.Slots) : Option String × Node → Except Failure F.Slots
  | (none, _) => .error .malformed
  | (some key, node) =>
    match F.put key node slots with
    | some result => result
    | none => do skip node; return slots

/-- The decoder of an object with these fields, or of an array that lists them. -/
def record (F : Fields α) : Decoder α
  | .object members closed => do
    let slots ← members.foldlM F.meet F.empty
    F.finish (← atEnd closed slots)
  | .array items closed => do
    match ← F.take closed items with
    | (value, []) => atEnd closed value
    | (_, _ :: _) => .error .malformed
  | node => .error node.mismatch

end Fields

/-- Decodes a whole text; nothing but blanks may follow the value. -/
def Document.decode (decoder : Decoder α) (document : Document) : Except Failure α := do
  let value ← decoder document.root
  if document.trailing then .error .malformed else .ok value

end BoardRules.Json
