/-!
# Companion notes

The note of a card that declares the rule `close_issue` for some repositories.
-/
namespace BoardRules

def companionNote (repositories : List String) : String :=
  "###### Automation Rules\r\n\r\n" ++
    "<!-- Documentation: https://github.com/philschatz/project-bot -->\r\n\r\n" ++
    "- `close_issue` " ++ " ".intercalate (repositories.map fun name => "**" ++ name ++ "**")

end BoardRules
