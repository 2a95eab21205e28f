import BoardRules.Text.Pieces
import BoardRules.Text.Utf8

/-!
# Requests and responses

The parts of an HTTP exchange that matter here, in both directions.
-/
namespace BoardRules

/-- Names and values, in the order in which they came. -/
abbrev Headers := List (String × String)

namespace Headers

/-- A value is readable if it consists of printable ASCII characters and tabs. -/
def isReadable (value : String) : Bool :=
  value.toList.all fun c => c = '\t' || (' ' ≤ c && c ≤ '~')

/-- The value of a header whose name is given in lower case. Only its first occurrence counts. -/
def find? (headers : Headers) (name : String) : Option String :=
  match List.find? (fun header => header.1.toLower = name) headers with
  | some (_, value) => if isReadable value then some value else none
  | none => none

end Headers

structure Request where
  method : String
  /-- A path or a URL, possibly with a query or a fragment behind it. -/
  target : String
  headers : Headers
  body : List UInt8
  deriving DecidableEq, Repr

namespace Request

/-- What follows the host of a URL. -/
def afterHost (cs : List Char) : List Char :=
  cs.dropWhile fun c => c ≠ '/' ∧ c ≠ '?' ∧ c ≠ '#'

/-- The target without scheme and host. One that begins with a slash has neither. -/
def resource (request : Request) : List Char :=
  match request.target.toList with
  | '/' :: rest => '/' :: rest
  | target =>
    match Text.cutAt? "://".toList target with
    | some (_, rest) => afterHost rest
    | none => target

/-- Ends where a query or a fragment begins. -/
def path (request : Request) : List Char :=
  request.resource.takeWhile fun c => c ≠ '?' ∧ c ≠ '#'

end Request

structure Response where
  status : Nat
  body : List UInt8
  deriving DecidableEq, Repr

namespace Response

def ofText (status : Nat) (text : String) : Response := ⟨status, Text.Utf8.encode text.toList⟩

/-- Whether the status says that the request failed, by whoever's fault. -/
def isFailure (response : Response) : Bool := 400 ≤ response.status && response.status < 600

end Response

end BoardRules
