import BoardRules.Json.Decoder

/-!
# Values of any shape

JSON values that are kept as they are, nested up to a limit.
-/
namespace BoardRules.Json

inductive Value where
  | null
  | bool (b : Bool)
  | number (n : Numeral)
  | string (s : String)
  | array (items : List Value)
  | object (members : List (String × Value))
  deriving Repr

/-- Sets a member; a key keeps its first place. -/
def setMember (key : String) (value : Value) : List (String × Value) → List (String × Value)
  | [] => [(key, value)]
  | (k, v) :: rest => if k = key then (k, value) :: rest else (k, v) :: setMember key value rest

/-- How many arrays and objects may lie inside one another. -/
def maxNesting : Nat := 127

/-- Decodes a value that nests at most `levels` deep. Of repeated keys the last counts. -/
def value (levels : Nat) : Decoder Value
  | .null => .ok .null
  | .bool b => .ok (.bool b)
  | .number n => if n.isFinite then .ok (.number n) else .error .malformed
  | .string (some s) => .ok (.string s)
  | .array items closed =>
    match levels with
    | 0 => .error .malformed
    | levels + 1 => do return .array (← atEnd closed (← items.mapM (value levels)))
  | .object members closed =>
    match levels with
    | 0 => .error .malformed
    | levels + 1 => do
      let members ← members.mapM fun (key, node) =>
        match key with
        | none => .error .malformed
        | some key => do return (key, ← value levels node)
      return .object ((← atEnd closed members).foldl (fun all (key, v) => setMember key v all) [])
  | node => .error node.mismatch
termination_by structural levels

end BoardRules.Json
