import BoardRules.Note.Emphasis
import BoardRules.Note.Paragraph

/-!
# Rule declarations

A code span in a paragraph of a list item declares a rule. Its arguments are the emphasised texts
that follow it in the paragraph or, if there are none, the words right after it.
-/
namespace BoardRules

open Text

/-- A rule as a note declares it. -/
structure Declaration where
  name : String
  arguments : List String
  deriving DecidableEq, Repr

namespace Note

/-- The text that emphasis begins with. -/
def Inline.argument? : Inline → Option (List Char)
  | .strong (.text cs :: _) => some (trim cs)
  | .emphasis (.text cs :: _) => some (trim cs)
  | _ => none

/-- The arguments in the text after a rule's name. -/
def arguments (following : List Inline) : List (List Char) :=
  match following.filterMap Inline.argument? with
  | [] =>
    match following with
    | .text cs :: _ => words cs
    | _ => []
  | emphasised => emphasised

/-- The rules of one paragraph. -/
def declarations : List Inline → List Declaration
  | [] => []
  | .code name :: following =>
    ⟨String.ofList name, (arguments following).map String.ofList⟩ :: declarations following
  | _ :: following => declarations following

/-- All rules that a note declares, in order. -/
def rules (note : String) : List Declaration :=
  (itemParagraphs note.toList).flatMap fun paragraph => declarations (Inline.ofText paragraph)

end Note

end BoardRules
