/-!
# Queries

The documents that are sent with the calls. The windows of the columns and the limits of the lists
are part of them.
-/
namespace BoardRules.GitHub.Query

/-- A selection of fields below a head. -/
def select (head : String) (fields : List String) : String :=
  head ++ " \x7b " ++ " ".intercalate fields ++ " \x7d"

def query (name parameters : String) (fields : List String) : String :=
  select ("query " ++ name ++ "(" ++ parameters ++ ")") fields

def mutation (name parameters : String) (fields : List String) : String :=
  select ("mutation " ++ name ++ "(" ++ parameters ++ ")") fields

/-- Cards of a column that have not been archived. -/
def cards (name window : String) : String :=
  select (name ++ ": cards(" ++ window ++ ", archivedStates: NOT_ARCHIVED)")
    [select "nodes" ["url", "id", "note"]]

def columnFields : List String :=
  ["id", "name", "url", cards "firstCards" "first: 1", cards "lastCards" "last: 2"]

def boardFields : List String :=
  ["name", "id", select "columns(first: 50)" [select "nodes" columnFields]]

def openBoards : String :=
  select "projects(first: 10, states: [OPEN])" [select "nodes" boardFields]

def entityBoards : String :=
  query "entityBoards" "$url: URI!"
    [select "resource(url: $url)"
      [select "... on Issue"
        ["id",
          select "repository"
            [select "owner" [select "... on Organization" [openBoards]], openBoards]]]]

def cardMemberships : String :=
  query "cardMemberships" "$url: URI!"
    [select "resource(url: $url)"
      [select "... on Issue"
        ["id",
          select "projectCards(first: 10)"
            [select "nodes"
              ["id", "url", select "column" ["id", "name"], select "project" boardFields]]]]]

def cardContext : String :=
  query "cardContext" "$cardId: ID!"
    [select "node(id: $cardId)"
      [select "... on ProjectCard"
        [select "content" [select "... on Issue" ["id", "closed", "number"]],
          select "column" columnFields]]]

def pullRequestBody : String :=
  query "pullRequestBody" "$url: URI!"
    [select "resource(url: $url)" [select "... on PullRequest" ["body"]]]

/-- An input object of a mutation. -/
def input (fields : String) : String := "(input: \x7b" ++ fields ++ "\x7d)"

def addContentCard : String :=
  mutation "addContentCard" "$contentId: ID!, $columnId: ID!"
    [select ("addProjectCard" ++ input "contentId: $contentId, projectColumnId: $columnId")
      [select "cardEdge" [select "node" ["id"]]]]

def addNoteCard : String :=
  mutation "addNoteCard" "$note: String!, $columnId: ID!"
    [select ("addProjectCard" ++ input "note: $note, projectColumnId: $columnId")
      [select "cardEdge" [select "node" ["id"]]]]

def moveCard : String :=
  mutation "moveCard" "$cardId: ID!, $columnId: ID!, $afterId: ID"
    [select ("moveProjectCard" ++
        input "cardId: $cardId, columnId: $columnId, afterCardId: $afterId")
      ["clientMutationId"]]

def closeIssue : String :=
  mutation "closeIssue" "$issueId: ID!"
    [select ("closeIssue" ++ input "issueId: $issueId") ["clientMutationId"]]

end BoardRules.GitHub.Query
