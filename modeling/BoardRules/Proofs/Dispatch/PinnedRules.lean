import BoardRules.Proofs.Dispatch.Triple
import BoardRules.Proofs.Store.Extraction

/-!
# Dispatches keep rules pinned

Every call of a dispatch spares the rule cards, whatever was read before and however it ends, unless
an automation adds companion cards.
-/
namespace BoardRules

open Dialogue (Either)
open Store (SameRules)

section

variable {s₀ : Store}

/-- The card of the rule can be put back to the bottom without disturbing other rules. -/
def PlacedRule.Repositionable (s₀ : Store) (rule : PlacedRule) : Prop :=
  ∀ anchor, rule.anchor = some anchor →
    s₀.SparesRules (.moveCard rule.card rule.column.id (some anchor))

theorem Dialogue.triple_call_kept (call : Call) (spares : s₀.SparesRules call) :
    Dialogue.Triple Store.service (SameRules s₀) (Dialogue.call call) fun _ => SameRules s₀ :=
  fun _ same => same.service call spares

namespace RuleRun

theorem triple_change_kept (call : Call) (spares : s₀.SparesRules call) :
    Triple Store.service (fun _ => SameRules s₀) (change call) (fun _ _ => SameRules s₀)
      fun _ _ => SameRules s₀ := by
  apply triple_change
  intro actions
  exact Dialogue.triple_weaken (Dialogue.triple_call_kept call spares) (fun _ before => before)
    fun _ _ => Dialogue.either_of_both

theorem triple_moveBehind_kept (card : CardId) (column : ColumnId) (anchor : Option CardId)
    (spares : ∀ last, anchor = some last → s₀.SparesRules (.moveCard card column (some last))) :
    Triple Store.service (fun _ => SameRules s₀) (moveBehind card column anchor)
      (fun _ _ => SameRules s₀) fun _ _ => SameRules s₀ := by
  cases anchor with
  | none => exact triple_pure fun _ _ same => same
  | some anchor =>
    apply triple_bind (triple_change_kept _ (spares anchor rfl))
    intro _
    exact triple_note fun _ _ same => same

/-- What a read tells of the store as it is then, with the rules that it has had all along. -/
theorem triple_read_kept {policy : RetryPolicy} {call : Call} {fact : call.Answer → Prop}
    (spares : s₀.SparesRules call)
    (tells : ∀ s answer, SameRules s₀ s → (Store.service call s).1 = .ok answer → fact answer) :
    Triple Store.service (fun _ => SameRules s₀) (read policy call)
      (fun answer _ s => SameRules s₀ s ∧ fact answer) fun _ _ => SameRules s₀ := by
  apply triple_read policy
  intro actions s same
  have after := same.service call spares
  change Either _ _ (Store.service call s).1 (Store.service call s).2
  cases result : (Store.service call s).1 with
  | ok answer => exact ⟨after, tells s answer same result⟩
  | error error => exact after

/-- To close the issue of a moved card leaves all cards where they are. -/
theorem triple_carryOut_kept (effect : SideEffect) (plain : effect ≠ .addCloseIssueRule)
    (subject : EffectSubject) (rule : PlacedRule) :
    Triple Store.service (fun _ => SameRules s₀) (carryOut effect subject rule)
      (fun _ _ => SameRules s₀) fun _ _ => SameRules s₀ := by
  have applied : Triple Store.service (fun _ => SameRules s₀)
      (attempt .rule (effect.apply subject rule.declaration.arguments))
      (fun settled _ s => SameRules s₀ s ∧
        ∀ placement, settled ≠ some (.companionCardAdded placement))
      fun _ _ => SameRules s₀ := by
    apply triple_attempt
    intro actions
    cases effect with
    | addCloseIssueRule => exact absurd rfl plain
    | closeIssue =>
      rcases subject with ⟨_ | issue⟩ | memberships
      · exact Dialogue.triple_pure fun _ same => ⟨same, nofun⟩
      · change Dialogue.Triple Store.service _ (if issue.closed then _ else _) _
        split
        · exact Dialogue.triple_pure fun _ same => ⟨same, nofun⟩
        · refine Dialogue.triple_bind (Dialogue.triple_call_kept _ trivial) ?_
          intro answer
          cases answer with
          | ok _ => exact Dialogue.triple_pure fun _ same => ⟨same, nofun⟩
          | error error => exact Dialogue.triple_pure fun _ same => same
      · exact Dialogue.triple_pure fun _ same => ⟨same, nofun⟩
  apply triple_bind applied
  intro settled
  apply triple_given
  intro harmless
  rcases settled with _ | _ | placement
  · exact triple_pure fun _ _ same => same
  · exact triple_note fun _ _ same => same
  · exact absurd rfl (harmless placement)

end RuleRun

namespace Automation

variable (policy : RetryPolicy) (event : Event)

theorem triple_fires_kept (automation : Automation) (rule : PlacedRule) :
    RuleRun.Triple Store.service (fun _ => SameRules s₀) (automation.fires policy event rule)
      (fun _ _ => SameRules s₀) fun _ _ => SameRules s₀ :=
  triple_fires fun _ _ => Dialogue.triple_call_kept _ trivial

/-- The rules of a moved card's column. -/
theorem triple_cardContext_kept (card : CardId) :
    RuleRun.Triple Store.service (fun _ => SameRules s₀) (RuleRun.read policy (.cardContext card))
      (fun context _ s => SameRules s₀ s ∧
        ∀ rule ∈ PlacedRule.ofColumn context.column, rule.Repositionable s₀)
      fun _ _ => SameRules s₀ := by
  refine RuleRun.triple_read_kept trivial ?_
  intro s context same success rule extracted anchor anchored
  obtain ⟨column, member, _, rfl⟩ := Store.cardContext_ok (Store.read_ok success)
  have viewed : rule ∈ PlacedRule.ofColumns [] ([column].map s.columnView) := extracted
  have shown := same.wellFormed.shows (by simpa using member) viewed
  exact same.spares_reposition shown anchored

theorem triple_boardsForEntity_kept (url : EntityUrl) :
    RuleRun.Triple Store.service (fun _ => SameRules s₀) (RuleRun.read policy (.boardsForEntity url))
      (fun found _ s => SameRules s₀ s ∧
        ∀ rule ∈ PlacedRule.ofBoards found.boards, rule.Repositionable s₀)
      fun _ _ => SameRules s₀ := by
  refine RuleRun.triple_read_kept trivial ?_
  intro s found same success rule extracted anchor anchored
  obtain ⟨boards, stored, views⟩ := Store.boardsForEntity_ok (Store.read_ok success)
  rw [views] at extracted
  exact same.spares_reposition (same.wellFormed.shows_ofBoards stored extracted) anchored

/-- The cards of an entity declare no rules, so they may move wherever they like. -/
theorem triple_cardMemberships_kept (url : EntityUrl) :
    RuleRun.Triple Store.service (fun _ => SameRules s₀) (RuleRun.read policy (.cardMemberships url))
      (fun found _ s => SameRules s₀ s ∧ ∀ membership ∈ found.cards.getD [],
        s₀.declares membership.card = false ∧
          ∀ rule ∈ PlacedRule.ofBoards [membership.board], rule.Repositionable s₀)
      fun _ _ => SameRules s₀ := by
  refine RuleRun.triple_read_kept trivial ?_
  intro s found same success membership member
  obtain ⟨entity, _, memberships⟩ := Store.cardMemberships_ok (Store.read_ok success)
  obtain ⟨board, stored, _, _, _, belongs, view⟩ := memberships membership member
  constructor
  · rw [← same.declares]
    unfold Store.declares Store.declarations
    rw [same.wellFormed.cardNote?_of_isCardOf belongs]
    rfl
  · intro rule extracted anchor anchored
    rw [view] at extracted
    have viewed : rule ∈ PlacedRule.ofBoards ([board].map s.boardView) := extracted
    have shown := same.wellFormed.shows_ofBoards (by simpa using stored) viewed
    exact same.spares_reposition shown anchored

theorem triple_correctMovedCard_kept (automation : Automation)
    (plain : automation.sideEffect ≠ some .addCloseIssueRule) (card : CardId) :
    RuleRun.Triple Store.service (fun _ => SameRules s₀)
      (automation.correctMovedCard policy event card)
      (fun _ _ => SameRules s₀) fun _ _ => SameRules s₀ := by
  apply RuleRun.triple_bind (triple_cardContext_kept policy card)
  intro context
  apply RuleRun.triple_given
  intro repositionable
  apply RuleRun.triple_forM
  intro rule member
  have back := RuleRun.triple_moveBehind_kept rule.card rule.column.id rule.anchor
    (repositionable rule (PlacedRule.mem_named.mp member).1)
  apply RuleRun.triple_bind (triple_fires_kept policy event automation rule)
  intro fired
  split
  · split
    · rename_i effect named
      have harmless : effect ≠ .addCloseIssueRule := by
        intro same
        subst same
        exact plain named
      apply RuleRun.triple_bind (RuleRun.triple_carryOut_kept effect harmless _ _)
      intro _
      exact back
    · exact back
  · exact RuleRun.triple_pure fun _ _ same => same

theorem triple_createCards_kept (automation : Automation) (url : EntityUrl) :
    RuleRun.Triple Store.service (fun _ => SameRules s₀) (automation.createCards policy event url)
      (fun _ _ => SameRules s₀) fun _ _ => SameRules s₀ := by
  apply RuleRun.triple_bind (triple_boardsForEntity_kept policy url)
  intro found
  apply RuleRun.triple_given
  intro repositionable
  apply RuleRun.triple_forM
  intro rule member
  apply RuleRun.triple_bind (triple_fires_kept policy event automation rule)
  intro fired
  split
  · refine RuleRun.triple_bind (RuleRun.triple_change_kept _ rfl) ?_
    intro card
    refine RuleRun.triple_bind (Q := fun _ _ => SameRules s₀)
      (RuleRun.triple_note fun _ _ same => same) ?_
    intro _
    exact RuleRun.triple_moveBehind_kept rule.card rule.column.id rule.anchor
      (repositionable rule (PlacedRule.mem_named.mp member).1)
  · exact RuleRun.triple_pure fun _ _ same => same

theorem triple_moveCards_kept (automation : Automation)
    (plain : automation.sideEffect ≠ some .addCloseIssueRule) (url : EntityUrl) :
    RuleRun.Triple Store.service (fun _ => SameRules s₀) (automation.moveCards policy event url)
      (fun _ _ => SameRules s₀) fun _ _ => SameRules s₀ := by
  apply RuleRun.triple_bind (triple_cardMemberships_kept policy url)
  intro found
  apply RuleRun.triple_given
  intro facts
  apply RuleRun.triple_forM
  intro pair candidate
  obtain ⟨membership, rule⟩ := pair
  obtain ⟨source, listed, paired⟩ := List.mem_flatMap.mp candidate
  obtain ⟨other, named, same⟩ := List.mem_map.mp paired
  cases same
  obtain ⟨unmarked, repositionable⟩ := facts membership listed
  apply RuleRun.triple_bind (triple_fires_kept policy event automation rule)
  intro fired
  split
  · split
    · rename_i effect present
      refine RuleRun.triple_carryOut_kept effect ?_ _ _
      intro same
      subst same
      exact plain present
    · refine RuleRun.triple_bind (RuleRun.triple_change_kept _ unmarked) ?_
      intro _
      refine RuleRun.triple_bind (Q := fun _ _ => SameRules s₀)
        (RuleRun.triple_note fun _ _ same => same) ?_
      intro _
      exact RuleRun.triple_moveBehind_kept rule.card rule.column.id rule.anchor
        (repositionable rule (PlacedRule.mem_named.mp named).1)
  · exact RuleRun.triple_pure fun _ _ same => same

theorem triple_work_kept (automation : Automation)
    (plain : automation.sideEffect ≠ some .addCloseIssueRule) (target : Target) :
    RuleRun.Triple Store.service (fun _ => SameRules s₀) (automation.work policy event target)
      (fun _ _ => SameRules s₀) fun _ _ => SameRules s₀ := by
  unfold work
  split
  · exact triple_correctMovedCard_kept policy event automation plain _
  · split
    · exact triple_createCards_kept policy event automation _
    · exact triple_moveCards_kept policy event automation plain _

end Automation

theorem Dispatcher.triple_dispatch_kept (dispatcher : Dispatcher) (event : Event)
    (plain : ∀ automation ∈ dispatcher.automations,
      automation.sideEffect ≠ some .addCloseIssueRule) :
    Dialogue.Triple Store.service (SameRules s₀) (dispatcher.dispatch event)
      fun _ => SameRules s₀ := by
  have dispatched := Dispatcher.triple_dispatch (P := SameRules s₀) (J := fun _ => SameRules s₀)
    (fun url => Dialogue.triple_call_kept (.pullRequestBody url) trivial) (fun _ same => same)
    fun automation member target done => Automation.triple_outcome
      (Automation.triple_work_kept dispatcher.policy event automation (plain automation member) target)
  exact Dialogue.triple_weaken dispatched (fun _ same => same) fun _ _ => Dialogue.both_of_either

end

/-- A dispatch leaves pinned rules pinned, each in its column, and so it leaves the rules that are
extracted from any boards as they were, up to their order inside a column. Neither failures nor
an early end of the dispatch matter. -/
theorem Dispatcher.keeps_rules_pinned (dispatcher : Dispatcher) (event : Event) (s : Store)
    (reachable : s.Reachable) (pinned : s.RulesPinned)
    (plain : ∀ automation ∈ dispatcher.automations,
      automation.sideEffect ≠ some .addCloseIssueRule) :
    let after := ((dispatcher.dispatch event).run Store.service s).2
    after.RulesPinned ∧ (∀ column, (after.ruleCards column).Perm (s.ruleCards column)) ∧
      ∀ boards, Store.SameInColumns (after.extracted boards) (s.extracted boards) := by
  have wellFormed := reachable.wellFormed
  have same := triple_dispatch_kept dispatcher event plain s (SameRules.refl wellFormed pinned)
  exact ⟨same.pinned pinned, same.rules, same.extracted pinned wellFormed⟩

/-- An issue in one column, and another column with two rules at the bottom. -/
def assignment : Store :=
  [.addBoard (.owner "octo") "Plan", .addColumn ⟨"board-1"⟩ "To do",
    .addColumn ⟨"board-1"⟩ "Doing",
    .addEntity ⟨.https, "github.com", "octo", "demo", .issue, 7⟩,
    .appendCard ⟨"column-2"⟩ (.entity ⟨"entity-4"⟩),
    .appendCard ⟨"column-3"⟩ (.note "nothing"),
    .appendCard ⟨"column-3"⟩ (.note "- `assigned_issue`"),
    .appendCard ⟨"column-3"⟩ (.note "- `edited_issue`"),
    .failNextReads 1].foldl Store.perform .empty

/-- Somebody is assigned to the issue. -/
def Event.ofAssignment : Event :=
  ⟨.issueAssigned, ⟨some "assigned",
    some ⟨"https://github.com/octo/demo/issues/7", 7, [⟨"hub"⟩]⟩, none, none, none, none, none⟩⟩

/-- The issue moves and the two rules change places. -/
theorem Dispatcher.keeps_rules_pinned_assignment :
    let after := ((Dispatcher.dispatch
      ⟨.issueAssigned, Catalog.builtin.listeners .issueAssigned, .default⟩
      .ofAssignment).run Store.service assignment).2
    after.cardsIn ⟨"column-3"⟩ = [⟨"card-5"⟩, ⟨"card-6"⟩, ⟨"card-8"⟩, ⟨"card-7"⟩] ∧
      after.RulesPinned ∧ (∀ column, (after.ruleCards column).Perm (assignment.ruleCards column)) ∧
      ∀ boards, Store.SameInColumns (after.extracted boards) (assignment.extracted boards) := by
  have reachable : assignment.Reachable := Store.Reachable.foldl _ _ .empty
  have pinned : assignment.RulesPinned :=
    reachable.wellFormed.rulesPinned_iff.mpr (by decide +kernel)
  exact ⟨by decide +kernel, keeps_rules_pinned _ _ _ reachable pinned (by decide)⟩

end BoardRules
