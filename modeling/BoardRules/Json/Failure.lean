/-!
# Failures of decoding

The causes for which a JSON text is not accepted as a value of the expected shape.
-/
namespace BoardRules.Json

inductive Failure where
  | missingField (name : String)
  | duplicateField (name : String)
  | invalidType
  | invalidValue
  | invalidLength
  /-- The text is no JSON, or a string, a number or the nesting is beyond what can be held. -/
  | malformed
  deriving DecidableEq, Repr

def Failure.message : Failure → String
  | .missingField name => "missing field `" ++ name ++ "`"
  | .duplicateField name => "duplicate field `" ++ name ++ "`"
  | .invalidType => "invalid type"
  | .invalidValue => "invalid value"
  | .invalidLength => "invalid length"
  | .malformed => "syntax"

end BoardRules.Json
