import BoardRules.Json.Failure

/-!
# Errors of input

What can be wrong with the texts that events are made of.
-/
namespace BoardRules

inductive InputError where
  | unknownTrigger (key : String)
  | invalidEntityUrl (text : String)
  | malformedPayload (event : String) (reason : Json.Failure)
  deriving DecidableEq, Repr

def InputError.message : InputError → String
  | .unknownTrigger key => "unsupported trigger event '" ++ key ++ "'"
  | .invalidEntityUrl text =>
    "invalid entity url '" ++ text ++
      "', expected <host>/<owner>/<repo>/(issues|pull)/<number>"
  | .malformedPayload event reason =>
    "malformed webhook payload for '" ++ event ++ "': " ++ reason.message

end BoardRules
