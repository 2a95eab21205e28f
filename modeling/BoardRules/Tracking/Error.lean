/-!
# Errors of the tracking service
-/
namespace BoardRules

inductive TrackingError where
  /-- The service could not be reached or refused to answer. -/
  | transport (cause : String)
  /-- The service answered that it rejects the call. -/
  | query (reason : String)
  | notFound (what : String)
  /-- The answer could not be understood. -/
  | decode (reason : String)
  deriving DecidableEq, Repr

def TrackingError.message : TrackingError → String
  | .transport cause => "tracking service transport error: " ++ cause
  | .query reason => "tracking service rejected the query: " ++ reason
  | .notFound what => "not found: " ++ what
  | .decode reason => "could not decode tracking service response: " ++ reason

end BoardRules
