import BoardRules.Catalog.Matcher
import BoardRules.Catalog.SideEffect

/-!
# The catalog

The automations that notes can ask for by name. One name can stand for automations of several
triggers.
-/
namespace BoardRules

structure Automation where
  name : String
  trigger : Trigger
  matcher : Matcher
  /-- Creates a card for a new entity instead of moving the cards that it has. -/
  createsCard : Bool
  sideEffect : Option SideEffect
  deriving DecidableEq, Repr

abbrev Catalog := List Automation

namespace Automation

def moving (name : String) (trigger : Trigger) (test : PayloadTest) : Automation :=
  ⟨name, trigger, .payload test, false, none⟩

def creating (name : String) (trigger : Trigger) (test : PayloadTest) : Automation :=
  ⟨name, trigger, .payload test, true, none⟩

end Automation

namespace Catalog

def builtin : Catalog :=
  [.moving "edited_issue" .issueEdited .always,
    .moving "demilestoned_issue" .issueDemilestoned .always,
    .moving "milestoned_issue" .issueMilestoned .always,
    .moving "reopened_pullrequest" .pullRequestReopened .always,
    .moving "reopened_issue" .issueReopened .always,
    .moving "added_reviewer" .reviewRequested .always,
    .creating "new_issue" .issueOpened .repositoryFilter,
    { name := "close_issue", trigger := .cardMoved, matcher := .payload .always,
      createsCard := false, sideEffect := some .closeIssue },
    .creating "new_pullrequest" .pullRequestOpened .repositoryFilter,
    .moving "merged_pullrequest" .pullRequestClosed .merged,
    .moving "closed_pullrequest" .pullRequestClosed .merged,
    .moving "assigned_to_issue" .issueAssigned .assigneeIs,
    .moving "assigned_issue" .issueAssigned (.issueAssigneeCount 1),
    .moving "unassigned_issue" .issueUnassigned (.issueAssigneeCount 0),
    .moving "assigned_pullrequest" .pullRequestAssigned (.pullRequestAssigneeCount 1),
    .moving "unassigned_pullrequest" .pullRequestUnassigned (.pullRequestAssigneeCount 0),
    .moving "added_label" .issueLabeled .labelIs,
    { name := "add_close_issue", trigger := .issueLabeled, matcher := .payload .always,
      createsCard := false, sideEffect := some .addCloseIssueRule },
    .moving "added_label" .pullRequestLabeled .labelIs,
    .moving "removed_label" .issueUnlabeled .labelIs,
    .moving "removed_label" .pullRequestUnlabeled .labelIs,
    { name := "accepted_pullrequest", trigger := .reviewSubmitted, matcher := .reviewAccepted,
      createsCard := false, sideEffect := none }]

/-- The automations that listen to a trigger, in catalog order. -/
def listeners (catalog : Catalog) (trigger : Trigger) : List Automation :=
  catalog.filter fun automation => automation.trigger == trigger

/-- Adds an automation to the group of its trigger. -/
def addToGroup (automation : Automation) :
    List (Trigger × List Automation) → List (Trigger × List Automation)
  | [] => [(automation.trigger, [automation])]
  | (trigger, group) :: rest =>
    if trigger = automation.trigger then (trigger, group ++ [automation]) :: rest
    else (trigger, group) :: addToGroup automation rest

/-- The automations by trigger, every group in catalog order. -/
def groups (catalog : Catalog) : List (Trigger × List Automation) :=
  catalog.foldl (fun groups automation => addToGroup automation groups) []

end Catalog

end BoardRules
