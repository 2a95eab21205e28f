import BoardRules.Settings.Basic

/-!
# The command line

Settings are given as options or as environment variables; the command line wins. An option takes
one value, behind an equals sign or as the next argument. The value of an option is looked at when
the next option comes, so an argument that is no option at all is refused before a bad value.
-/
namespace BoardRules

inductive Setting where
  | listen
  | githubToken
  | webhookSecret
  | graphqlUrl
  | apiUrl
  | retryDelay
  deriving DecidableEq, Repr

namespace Setting

def all : List Setting := [listen, githubToken, webhookSecret, graphqlUrl, apiUrl, retryDelay]

/-- The name of the option, without its dashes. -/
def name : Setting → String
  | listen => "listen"
  | githubToken => "github-token"
  | webhookSecret => "webhook-secret"
  | graphqlUrl => "graphql-url"
  | apiUrl => "api-url"
  | retryDelay => "retry-delay-ms"

/-- The environment variable. -/
def variableName : Setting → String
  | listen => "BOARDWRIGHT_LISTEN"
  | githubToken => "GITHUB_TOKEN"
  | webhookSecret => "WEBHOOK_SECRET"
  | graphqlUrl => "BOARDWRIGHT_GRAPHQL_URL"
  | apiUrl => "BOARDWRIGHT_API_URL"
  | retryDelay => "BOARDWRIGHT_RETRY_DELAY_MS"

end Setting

/-- Why the command line gives no settings. -/
inductive UsageError where
  /-- The user asked for help, which is no fault. -/
  | helpRequested
  | versionRequested
  | unknownArgument (argument : String)
  /-- A value at an option that takes none. -/
  | unexpectedValue (argument : String)
  | missingValue (setting : Setting)
  | repeated (setting : Setting)
  | invalidValue (setting : Setting) (value : String)
  | missingSetting (setting : Setting)
  deriving DecidableEq, Repr

namespace UsageError

def usage : String :=
  "options: --github-token TOKEN [--webhook-secret SECRET] [--listen ADDRESS] " ++
    "[--graphql-url URL] [--api-url URL] [--retry-delay-ms N]"

def message : UsageError → String
  | helpRequested => usage
  | versionRequested => "0.1.0"
  | unknownArgument argument => "unexpected argument '" ++ argument ++ "'"
  | unexpectedValue argument => "unexpected value in '" ++ argument ++ "'"
  | missingValue setting => "--" ++ setting.name ++ " needs a value"
  | repeated setting => "--" ++ setting.name ++ " cannot be given twice"
  | invalidValue setting value => "invalid value '" ++ value ++ "' for --" ++ setting.name
  | missingSetting setting => "--" ++ setting.name ++ " is required"

end UsageError

/-! ## Values -/

/-- The settings that have been given so far. -/
structure Arguments where
  listen : Option SocketAddress
  githubToken : Option String
  webhookSecret : Option String
  graphqlUrl : Option String
  apiUrl : Option String
  retryDelay : Option Nat
  deriving DecidableEq, Repr

namespace Arguments

def empty : Arguments := ⟨none, none, none, none, none, none⟩

def has (arguments : Arguments) : Setting → Bool
  | .listen => arguments.listen.isSome
  | .githubToken => arguments.githubToken.isSome
  | .webhookSecret => arguments.webhookSecret.isSome
  | .graphqlUrl => arguments.graphqlUrl.isSome
  | .apiUrl => arguments.apiUrl.isSome
  | .retryDelay => arguments.retryDelay.isSome

/-- Reads the value of a setting that has not been given yet. -/
def setNew (arguments : Arguments) (setting : Setting) (value : String) : Option Arguments :=
  match setting with
  | .listen => (SocketAddress.ofText? value.toList).map fun listen =>
    { arguments with listen := some listen }
  | .githubToken => some { arguments with githubToken := some value }
  | .webhookSecret => some { arguments with webhookSecret := some value }
  | .graphqlUrl => some { arguments with graphqlUrl := some value }
  | .apiUrl => some { arguments with apiUrl := some value }
  | .retryDelay => (Text.Decimal.word? value.toList).map fun retryDelay =>
    { arguments with retryDelay := some retryDelay }

def set (arguments : Arguments) (setting : Setting) (value : String) :
    Except UsageError Arguments :=
  if arguments.has setting then .error (.repeated setting)
  else match arguments.setNew setting value with
    | some arguments => .ok arguments
    | none => .error (.invalidValue setting value)

/-- Takes settings that are not given from the environment. -/
def fill (environment : String → Option String) (arguments : Arguments) :
    Except UsageError Arguments :=
  Setting.all.foldlM
    (fun arguments setting =>
      match arguments.has setting, environment setting.variableName with
      | false, some value => arguments.set setting value
      | _, _ => .ok arguments)
    arguments

/-- All addresses of the host. -/
def defaultListen : SocketAddress := .v4 ⟨0, 0, 0, 0⟩ 3000

/-- Only the token has no default. -/
def complete (arguments : Arguments) : Except UsageError RawSettings :=
  match arguments.githubToken with
  | none => .error (.missingSetting .githubToken)
  | some token =>
    .ok { listen := arguments.listen.getD defaultListen
          githubToken := token
          webhookSecret := arguments.webhookSecret
          graphqlUrl := arguments.graphqlUrl.getD "https://api.github.com/graphql"
          apiUrl := arguments.apiUrl.getD "https://api.github.com"
          retryDelay := arguments.retryDelay.getD RetryPolicy.default.delay }

end Arguments

/-! ## Arguments -/

/-- The forms of an argument. A single dash is a plain text. -/
inductive ArgumentForm where
  /-- What follows it is no option. -/
  | separator
  | long (name : List Char) (value : Option (List Char))
  | short (letters : List Char)
  | plain
  deriving DecidableEq, Repr

/-- The first equals sign ends the name of a long option. -/
def ArgumentForm.ofText : List Char → ArgumentForm
  | ['-', '-'] => .separator
  | '-' :: '-' :: text =>
    match Text.cutAt? ['='] text with
    | some (name, value) => .long name (some value)
    | none => .long text none
  | ['-'] => .plain
  | '-' :: letters => .short letters
  | _ => .plain

/-- What has been read, and the latest option as long as its value is not settled. -/
structure ArgumentScan where
  arguments : Arguments
  latest : Option (Setting × Option String)
  deriving DecidableEq, Repr

namespace ArgumentScan

/-- Gives the latest option its value. -/
def settle (scan : ArgumentScan) : Except UsageError Arguments :=
  match scan.latest with
  | none => .ok scan.arguments
  | some (setting, none) => .error (.missingValue setting)
  | some (setting, some value) => scan.arguments.set setting value

/-- An option that only asks for information. Nothing after it is read. -/
def inform (scan : ArgumentScan) (information : UsageError) : Except UsageError ArgumentScan := do
  let _ ← scan.settle
  throw information

def information? : String → Option UsageError
  | "help" => some .helpRequested
  | "version" => some .versionRequested
  | _ => none

def long (scan : ArgumentScan) (argument name : String) (value : Option String) :
    Except UsageError ArgumentScan :=
  match Setting.all.find? fun setting => setting.name = name with
  | some setting => do
    let arguments ← scan.settle
    match value with
    | none => return ⟨arguments, some (setting, none)⟩
    | some value => return ⟨← arguments.set setting value, none⟩
  | none =>
    match information? name, value with
    | some information, none => scan.inform information
    | some _, some _ => throw (.unexpectedValue argument)
    | none, _ => throw (.unknownArgument argument)

def short (scan : ArgumentScan) (argument : String) (letters : List Char) :
    Except UsageError ArgumentScan :=
  match letters.head? with
  | some 'h' => scan.inform .helpRequested
  | some 'V' => scan.inform .versionRequested
  | _ => throw (.unknownArgument argument)

/-- A plain text can only be the value of the latest option. -/
def plain (scan : ArgumentScan) (argument : String) : Except UsageError ArgumentScan :=
  match scan.latest with
  | some (setting, none) => return { scan with latest := some (setting, some argument) }
  | _ => throw (.unknownArgument argument)

def step (scan : ArgumentScan) (argument : String) : ArgumentForm → Except UsageError ArgumentScan
  | .long name value => scan.long argument (String.ofList name) (value.map String.ofList)
  | .short letters => scan.short argument letters
  | .plain => scan.plain argument
  | .separator => return scan

/-- Reads all arguments. After a separator there can be none. -/
def run (scan : ArgumentScan) : List String → Except UsageError Arguments
  | [] => scan.settle
  | argument :: rest =>
    match ArgumentForm.ofText argument.toList, rest with
    | .separator, extra :: _ => throw (.unknownArgument extra)
    | form, rest => do (← scan.step argument form).run rest

end ArgumentScan

/-- The settings that the arguments of the program and its environment give. -/
def RawSettings.ofCommandLine (arguments : List String) (environment : String → Option String) :
    Except UsageError RawSettings := do
  let given ← ArgumentScan.run ⟨.empty, none⟩ arguments
  (← given.fill environment).complete

end BoardRules
