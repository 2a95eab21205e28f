import BoardRules.Entity.Url

/-!
# Closing references

A pull request says in its description which issue it closes: a closing keyword, blanks and a
reference. Only the first such place counts. Letter case does not, and it is folded the way Unicode
folds single characters, by which two characters outside ASCII become letters.
-/
namespace BoardRules

open Text

namespace ClosingReference

def keywords : List (List Char) :=
  ["close", "closes", "closed", "fix", "fixes", "fixed", "resolve", "resolves", "resolved"].map
    String.toList

/-- Simple case folding, as far as it leads to an ASCII letter: the long s and the sign for kelvin
fold to letters too. -/
def fold (c : Char) : Char :=
  if c = '\u017f' then 's' else if c = '\u212a' then 'k' else c.toLower

def isReferenceChar (c : Char) : Bool :=
  (fold c).isAlphanum || c == '/' || c == '-' || c == ':' || c == '.' || c == '_' || c == '#'

/-- What follows the keyword, if the text begins with it in any letter case. -/
def afterKeyword? : (keyword text : List Char) → Option (List Char)
  | [], text => some text
  | _ :: _, [] => none
  | k :: keyword, c :: text => if k = fold c then afterKeyword? keyword text else none

/-- The reference after a keyword that the text begins with. -/
def referenceAt? (text : List Char) : Option (List Char) :=
  keywords.findSome? fun keyword =>
    match afterKeyword? keyword text with
    | some (gap :: rest) =>
      let reference := (rest.dropWhile isBlank).takeWhile isReferenceChar
      if isBlank gap && !reference.isEmpty then some reference else none
    | _ => none

/-- The first reference in a text. -/
def first? : List Char → Option (List Char)
  | [] => none
  | c :: rest =>
    match referenceAt? (c :: rest) with
    | some reference => some reference
    | none => first? rest

/-- A sentence may go on after the reference. -/
def isSentenceMark (c : Char) : Bool := c == '.' || c == ':'

def isFullUrl (reference : List Char) : Bool :=
  (after? "http://".toList reference).isSome || (after? "https://".toList reference).isSome

/-- The issue that a reference in the description of `pullRequest` names: a URL, a number in the
same repository, or a number in a repository on the same host. -/
def resolve? (pullRequest : EntityUrl) (reference : List Char) : Option EntityUrl :=
  if isFullUrl reference then EntityUrl.ofText? reference
  else do
    let (path, number) ← cutAt? ['#'] reference
    let number ← positive? number
    if path.isEmpty then
      some (pullRequest.siblingIssue pullRequest.owner pullRequest.repository number)
    else
      let (owner, repository) ← cutAt? ['/'] path
      if owner.isEmpty || repository.isEmpty || repository.contains '/' then none
      else
        some (pullRequest.siblingIssue (String.ofList owner) (String.ofList repository) number)

end ClosingReference

namespace EntityUrl

/-- The issue that the description says the pull request closes. -/
def referencedIssue? (pullRequest : EntityUrl) (description : String) : Option EntityUrl := do
  let reference ← ClosingReference.first? description.toList
  ClosingReference.resolve? pullRequest (dropEndWhile ClosingReference.isSentenceMark reference)

/-- The issue under which boards know the pull request: the one it closes, or else the issue of
its own number. -/
def linkedIssue (pullRequest : EntityUrl) (description : Option String) : EntityUrl :=
  (description.bind pullRequest.referencedIssue?).getD pullRequest.toIssue

end EntityUrl

end BoardRules
