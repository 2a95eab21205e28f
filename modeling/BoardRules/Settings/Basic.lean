import BoardRules.GitHub.Client
import BoardRules.Settings.SocketAddress
import BoardRules.Tracking.Retry
import BoardRules.Webhook.Receiver

/-!
# Settings

What a running receiver needs to know. Values that cannot work are refused, in a fixed order.
-/
namespace BoardRules

/-- Values as they were given. -/
structure RawSettings where
  listen : SocketAddress
  githubToken : String
  webhookSecret : Option String
  graphqlUrl : String
  apiUrl : String
  /-- In milliseconds. -/
  retryDelay : Nat
  deriving DecidableEq, Repr

inductive SettingsError where
  | emptyToken
  | emptySecret
  | invalidEndpoint (name value : String)
  deriving DecidableEq, Repr

def SettingsError.message : SettingsError → String
  | .emptyToken => "the GitHub token must not be empty"
  | .emptySecret => "the webhook secret must not be empty when set"
  | .invalidEndpoint name value => name ++ " must be an http(s) URL, got " ++ value

structure Settings where
  listen : SocketAddress
  githubToken : String
  webhookSecret : Option String
  graphqlUrl : String
  apiUrl : String
  retryDelay : Nat
  deriving DecidableEq, Repr

namespace Settings

open Text

def isHttpUrl (cs : List Char) : Bool :=
  (after? "https://".toList cs).isSome || (after? "http://".toList cs).isSome

/-- The URL of a service without the slashes at its end. -/
def endpoint (name value : String) : Except SettingsError String :=
  if isHttpUrl value.toList then .ok (String.ofList (dropEndWhile (· == '/') value.toList))
  else .error (.invalidEndpoint name value)

/-- A secret can be blank, but not empty. -/
def ofRaw (raw : RawSettings) : Except SettingsError Settings :=
  if (trim raw.githubToken.toList).isEmpty then .error .emptyToken
  else if raw.webhookSecret.any String.isEmpty then .error .emptySecret
  else do
    return {
      listen := raw.listen
      githubToken := raw.githubToken
      webhookSecret := raw.webhookSecret
      graphqlUrl := ← endpoint "graphql-url" raw.graphqlUrl
      apiUrl := ← endpoint "api-url" raw.apiUrl
      retryDelay := raw.retryDelay }

/-- Failed reads are tried once more. -/
def policy (settings : Settings) : RetryPolicy := .ofDelay settings.retryDelay

def verifiesSignatures (settings : Settings) : Bool :=
  settings.webhookSecret.any fun secret => !secret.isEmpty

def client (settings : Settings) : GitHub.Client :=
  ⟨settings.graphqlUrl, settings.apiUrl, settings.githubToken⟩

/-- A receiver for the rules of a catalog. -/
def receiver (settings : Settings) (catalog : Catalog) : Receiver :=
  ⟨Router.ofCatalog settings.policy catalog, settings.webhookSecret⟩

end Settings

end BoardRules
