import BoardRules.Settings.CommandLine

/-!
# The program

Reads the settings from the command line and the environment, and reports what a receiver with
these settings listens to.
-/
namespace BoardRules.Program

/-- The lines that describe a receiver. -/
def describe (settings : Settings) : List String :=
  let receiver := settings.receiver Catalog.builtin
  [ "listening on " ++ settings.listen.render,
    "signatures: " ++ (if settings.verifiesSignatures then "verified" else "not verified"),
    "triggers: " ++ " ".intercalate (receiver.router.triggers.map Trigger.key) ]

def readEnvironment : IO (List (String × String)) :=
  Setting.all.filterMapM fun setting => do
    return (← IO.getEnv setting.variableName).map fun value => (setting.variableName, value)

/-- Exits with 2 if the command line cannot be read, and with 1 if its settings cannot work. -/
def run (arguments : List String) : IO UInt32 := do
  let environment ← readEnvironment
  match RawSettings.ofCommandLine arguments (List.lookup · environment) with
  | .error .helpRequested => IO.println UsageError.helpRequested.message; return 0
  | .error .versionRequested => IO.println UsageError.versionRequested.message; return 0
  | .error error => IO.eprintln error.message; return 2
  | .ok raw =>
    match Settings.ofRaw raw with
    | .error error => IO.eprintln error.message; return 1
    | .ok settings => (describe settings).forM IO.println; return 0

end BoardRules.Program

def main (arguments : List String) : IO UInt32 := BoardRules.Program.run arguments
