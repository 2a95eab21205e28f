import BoardRules.Proofs.Dispatch.ActionLog
import BoardRules.Proofs.Store.Extraction
import BoardRules.Proofs.Store.Sinking

/-!
# Self-correction

When a card has been moved, the cards of its column that declare `close_issue` are put behind the
card that was last when the dispatch began, and its issue is closed if there is any such card.
-/
namespace BoardRules

open Dialogue (Either)

/-- The automation that listens to moved cards. -/
def Automation.closing : Automation where
  name := "close_issue"
  trigger := .cardMoved
  matcher := .payload .always
  createsCard := false
  sideEffect := some .closeIssue

theorem Catalog.listeners_cardMoved :
    builtin.groups.find? (fun group => group.1 == .cardMoved) = some (.cardMoved, [.closing]) := by
  decide +kernel

namespace Store

/-- Whether the note of a card declares a rule of that name. -/
def declaresNamed (s : Store) (name : String) (card : CardId) : Bool :=
  (s.declarations card).any fun declaration => declaration.name == name

/-- How many rules of that name the note of a card declares. -/
def countNamed (s : Store) (name : String) (card : CardId) : Nat :=
  ((s.declarations card).filter fun declaration => declaration.name == name).length

/-- The rules of that name that are found in a column. -/
def rulesNamed (s : Store) (name : String) (column : StoredColumn) : List PlacedRule :=
  PlacedRule.named name (PlacedRule.ofColumn (s.columnView column))

/-- The cards of the rules that are found in a column, once for every rule. -/
theorem cards_named (s : Store) (name : String) (column : StoredColumn) :
    (s.rulesNamed name column).map (·.card) =
      ((s.counted [] column).filter s.declares).flatMap fun card =>
        List.replicate (s.countNamed name card) card := by
  have contents := s.content_ofColumns_cons [] column []
  have rest (seen : List CardId) : (PlacedRule.ofColumns seen []).map PlacedRule.content = [] := rfl
  rw [rest, List.append_nil] at contents
  have found : (s.rulesNamed name column).map (·.card) =
      (((PlacedRule.ofColumns [] [s.columnView column]).map PlacedRule.content).filter
        fun rule => rule.1.name == name).map (·.2.2) := by
    rw [List.filter_map, List.map_map]
    rfl
  rw [found, contents, List.filter_flatMap, List.map_flatMap]
  apply List.flatMap_congr
  intro card _
  unfold rulesOn countNamed
  rw [List.filter_map, List.map_map]
  exact List.map_const'

theorem countNamed_pos (s : Store) (name : String) (card : CardId) :
    0 < s.countNamed name card ↔ s.declaresNamed name card = true := by
  unfold countNamed declaresNamed
  rw [List.length_filter_pos_iff, List.any_eq_true]

/-- The cards with a rule of that name, each counted once. -/
theorem mem_counted_named (s : Store) (name : String) (column : StoredColumn) (card : CardId) :
    card ∈ ((s.counted [] column).filter s.declares).filter (fun card => 0 < s.countNamed name card) ↔
      card ∈ windowOf column.cards ∧ s.declaresNamed name card = true := by
  rw [List.mem_filter, List.mem_filter, mem_counted, decide_eq_true_iff, countNamed_pos]
  constructor
  · intro found
    obtain ⟨⟨⟨_, shown⟩, _⟩, named⟩ := found
    exact ⟨shown, named⟩
  · intro found
    obtain ⟨shown, named⟩ := found
    have declares : s.declares card = true := by
      obtain ⟨declaration, member, _⟩ := List.any_eq_true.mp named
      unfold Store.declares
      rw [List.isEmpty_eq_false_iff.mpr (List.ne_nil_of_mem member)]
      rfl
    exact ⟨⟨⟨List.not_mem_nil, shown⟩, declares⟩, named⟩

theorem mem_named_cards (s : Store) (name : String) (column : StoredColumn) (card : CardId) :
    card ∈ (s.rulesNamed name column).map PlacedRule.card ↔
      card ∈ windowOf column.cards ∧ s.declaresNamed name card = true := by
  rw [← s.mem_counted_named name column card, List.mem_filter, decide_eq_true_iff]
  have cards := s.cards_named name column
  rw [cards, List.mem_flatMap]
  constructor
  · intro found
    obtain ⟨other, member, copied⟩ := found
    obtain ⟨nonempty, rfl⟩ := List.mem_replicate.mp copied
    exact ⟨member, Nat.pos_of_ne_zero nonempty⟩
  · intro found
    obtain ⟨member, nonempty⟩ := found
    exact ⟨card, member, List.mem_replicate.mpr ⟨by omega, rfl⟩⟩

end Store

/-! ## One round -/

/-- What holds while the rules of the column of a moved card are carried out: the given cards have
sunk, and if any rule was carried out the linked issue is closed. -/
structure Correcting (s₀ : Store) (moved : CardId) (id : ColumnId) (last : CardId)
    (sunk : List CardId) (visited : Bool) (actions : List Action) (s : Store) : Prop where
  wellFormed : s.WellFormed
  cards : s.cards = s₀.cards
  failingReads : s.failingReads = s₀.failingReads
  contents : s.cardsIn id = sunk.foldl (Store.sink last) (s₀.cardsIn id)
  perm : (s.cardsIn id).Perm (s₀.cardsIn id)
  linked : s.linkedEntity? moved =
    (s₀.linkedEntity? moved).map fun issue => { issue with closed := issue.closed || visited }
  /-- Nothing has been done if nothing had to be done. -/
  idle : sunk = [] → visited = false ∨ (∀ issue ∈ s₀.linkedEntity? moved, issue.closed = true) →
    actions = [] ∧ s = s₀
  busy : sunk ≠ [] → actions ≠ []

namespace Correcting

variable {s₀ s : Store} {moved : CardId} {id : ColumnId} {last : CardId} {sunk : List CardId}
  {visited : Bool} {actions : List Action}

theorem start (wellFormed : s₀.WellFormed) : Correcting s₀ moved id last [] false [] s₀ := by
  refine ⟨wellFormed, rfl, rfl, rfl, List.Perm.refl _, ?_, fun _ _ => ⟨rfl, rfl⟩, ?_⟩
  · simp
  · intro nonempty
    exact absurd rfl nonempty

/-- A rule has nothing to close if there is no open issue. -/
theorem visit (before : Correcting s₀ moved id last sunk visited actions s)
    (closed : ∀ issue ∈ s₀.linkedEntity? moved, issue.closed = true) :
    Correcting s₀ moved id last sunk true actions s := by
  refine ⟨before.wellFormed, before.cards, before.failingReads, before.contents, before.perm, ?_,
    fun none _ => before.idle none (.inr closed), before.busy⟩
  rw [before.linked]
  apply Option.map_congr
  intro issue linked
  rw [closed issue linked]
  rfl

theorem congr (before : Correcting s₀ moved id last sunk visited actions s)
    {raised : List CardId} (empty : sunk = [] ↔ raised = [])
    (same : sunk.foldl (Store.sink last) (s₀.cardsIn id) =
      raised.foldl (Store.sink last) (s₀.cardsIn id)) :
    Correcting s₀ moved id last raised visited actions s :=
  ⟨before.wellFormed, before.cards, before.failingReads, before.contents.trans same, before.perm,
    before.linked, fun none => before.idle (empty.mpr none),
    fun nonempty => before.busy fun none => nonempty (empty.mp none)⟩

/-- An open issue is closed, which is noted. -/
theorem close (before : Correcting s₀ moved id last sunk visited actions s) {issue : LinkedEntity}
    (linked : s₀.linkedEntity? moved = some issue) (opened : issue.closed = false) :
    ∃ s', s.closeIssue issue.id = (.ok (), s') ∧
      Correcting s₀ moved id last sunk true (actions ++ [.issueClosed issue.id]) s' := by
  have current : s.linkedEntity? moved = some { issue with closed := issue.closed || visited } := by
    rw [before.linked, linked]
    rfl
  have wellFormed := before.wellFormed.closeIssue issue.id
  rw [s.closeIssue_known (Store.entityById?_of_linked current)] at wellFormed ⊢
  refine ⟨_, rfl, wellFormed, before.cards, before.failingReads, before.contents, before.perm, ?_,
    ?_, ?_⟩
  · rw [Store.linkedEntity?_close, current, linked]
    simp
  · intro _ either
    rcases either with never | closed
    · cases never
    · rw [closed issue linked] at opened
      cases opened
  · simp

/-- A rule card that is not the last card sinks, which is noted. -/
theorem sinkCard (before : Correcting s₀ moved id last sunk visited actions s) {card : CardId}
    (there : last ∈ s₀.cardsIn id) (member : card ∈ s₀.cardsIn id) (different : card ≠ last) :
    ∃ s', s.moveCard card id (some last) = (.ok (), s') ∧
      Correcting s₀ moved id last (sunk ++ [card]) visited
        (actions ++ [.ruleCardRepositioned card id last]) s' := by
  have there' := before.perm.mem_iff.mpr there
  have member' := before.perm.mem_iff.mpr member
  obtain ⟨s', success, contents, frame⟩ :=
    before.wellFormed.moveCard_sink there' member' different
  have wellFormed := before.wellFormed.moveCard card id (some last)
  rw [success] at wellFormed
  have sinks := Store.sink_perm (before.wellFormed.nodup_cardsIn id) there' member' different
  refine ⟨s', success, wellFormed, ?_, ?_, ?_, ?_, ?_, ?_, ?_⟩
  · rw [frame]
    exact before.cards
  · rw [frame]
    exact before.failingReads
  · rw [contents, before.contents, List.foldl_append]
    rfl
  · rw [contents]
    exact sinks.trans before.perm
  · rw [frame]
    exact before.linked
  · intro none
    simp at none
  · simp

end Correcting

namespace RuleRun

variable {s₀ : Store} {moved : CardId} {id : ColumnId} {last : CardId} {sunk : List CardId}
  {visited : Bool}

theorem closeLinkedIssue_open {issue : LinkedEntity} (opened : ¬ issue.closed = true) :
    closeLinkedIssue (some issue) = (do
      let answer ← Dialogue.call (.closeIssue issue.id)
      return answer.map fun _ => some (.issueClosed issue.id)) :=
  if_neg opened

theorem triple_closeLinked_correcting (rule : PlacedRule) :
    Triple Store.service (Correcting s₀ moved id last sunk visited)
      (carryOut .closeIssue (.linked (s₀.linkedEntity? moved)) rule)
      (fun _ => Correcting s₀ moved id last sunk true) fun _ _ _ => False := by
  have nothing (closed : ∀ issue ∈ s₀.linkedEntity? moved, issue.closed = true)
      (skipped : closeLinkedIssue (s₀.linkedEntity? moved) = pure (.ok none)) :
      Triple Store.service (Correcting s₀ moved id last sunk visited)
        (carryOut .closeIssue (.linked (s₀.linkedEntity? moved)) rule)
        (fun _ => Correcting s₀ moved id last sunk true) fun _ _ _ => False := by
    change Triple Store.service _
      (attempt .rule (closeLinkedIssue (s₀.linkedEntity? moved)) >>= settleEffect) _ _
    rw [skipped]
    refine triple_bind (Q := fun settled actions s =>
      Correcting s₀ moved id last sunk true actions s ∧ settled = none) ?_ ?_
    · exact triple_attempt fun actions => Dialogue.triple_pure fun s before =>
        ⟨before.visit closed, rfl⟩
    · intro settled
      apply triple_given
      intro same
      subst same
      exact triple_pure fun _ _ after => after
  cases linked : s₀.linkedEntity? moved with
  | none =>
    rw [linked] at nothing
    exact nothing (by simp) rfl
  | some issue =>
    by_cases closed : issue.closed = true
    · rw [linked] at nothing
      refine nothing ?_ ?_
      · intro other same
        cases same
        exact closed
      · unfold closeLinkedIssue
        exact if_pos closed
    · have opened : issue.closed = false := by simpa using closed
      refine triple_bind (Q := fun settled actions s => Correcting s₀ moved id last sunk true
        (actions ++ [.issueClosed issue.id]) s ∧ settled = some (.issueClosed issue.id)) ?_ ?_
      · apply triple_attempt
        intro actions s before
        obtain ⟨s', success, after⟩ := before.close linked opened
        have called : (Dialogue.call (.closeIssue issue.id)).run Store.service s = (.ok (), s') :=
          success
        have asked : (closeLinkedIssue (some issue)).run Store.service s =
            (.ok (some (.issueClosed issue.id)), s') := by
          rw [closeLinkedIssue_open closed, Dialogue.run_bind, called]
          rfl
        change Either _ _ ((closeLinkedIssue (some issue)).run Store.service s).1
          ((closeLinkedIssue (some issue)).run Store.service s).2
        rw [asked]
        exact ⟨after, rfl⟩
      · intro settled
        apply triple_given
        intro same
        subst same
        exact triple_note fun _ _ after => after

theorem triple_reposition_correcting (rule : PlacedRule) (column : rule.column.id = id)
    (there : last ∈ s₀.cardsIn id) (member : rule.card ∈ s₀.cardsIn id)
    (anchored : rule.anchor = (some last).filter (· ≠ rule.card)) :
    Triple Store.service (Correcting s₀ moved id last sunk visited) (reposition rule)
      (fun _ => Correcting s₀ moved id last (sunk ++ [rule.card].filter (· ≠ last)) visited)
      fun _ _ _ => False := by
  unfold reposition
  rw [anchored, column]
  by_cases same : rule.card = last
  · have resting : (some last).filter (· ≠ rule.card) = none := by simp [Option.filter, same]
    rw [resting]
    apply triple_pure
    intro actions s before
    simpa [same] using before
  · have moves : (some last).filter (· ≠ rule.card) = some last := by
      simp [Option.filter, Ne.symm same]
    have lifted : [rule.card].filter (· ≠ last) = [rule.card] := by simp [same]
    rw [moves, lifted]
    refine triple_bind (Q := fun _ actions s => Correcting s₀ moved id last (sunk ++ [rule.card])
      visited (actions ++ [.ruleCardRepositioned rule.card id last]) s) ?_ ?_
    · apply triple_change
      intro actions s before
      obtain ⟨s', success, after⟩ := before.sinkCard there member same
      have called : (Dialogue.call (.moveCard rule.card id (some last))).run Store.service s =
          (.ok (), s') := success
      rw [called]
      exact after
    · intro _
      exact triple_note fun _ _ after => after

end RuleRun

namespace Automation

variable {s₀ : Store} {column : StoredColumn} {moved last : CardId}

/-- The rule cards of a column that have to sink for the given rules. -/
def sinking (last : CardId) (rules : List PlacedRule) : List CardId :=
  (rules.map PlacedRule.card).filter (· ≠ last)

/-- What is done for one rule of the column of a moved card. -/
def closeAndSink (policy : RetryPolicy) (event : Event) (issue : Option LinkedEntity)
    (rule : PlacedRule) : RuleRun Unit := do
  if ← closing.fires policy event rule then
    RuleRun.carryOut .closeIssue (.linked issue) rule
    RuleRun.reposition rule

theorem triple_closeAndSink_correcting (policy : RetryPolicy) (event : Event) {id : ColumnId}
    {sunk : List CardId} {visited : Bool} (rule : PlacedRule) (here : rule.column.id = id)
    (there : last ∈ s₀.cardsIn id) (placed : rule.card ∈ s₀.cardsIn id)
    (anchored : rule.anchor = (some last).filter (· ≠ rule.card)) :
    RuleRun.Triple Store.service (Correcting s₀ moved id last sunk visited)
      (closeAndSink policy event (s₀.linkedEntity? moved) rule)
      (fun _ => Correcting s₀ moved id last (sunk ++ [rule.card].filter (· ≠ last)) true)
      fun _ _ _ => False := by
  have fires : RuleRun.Triple Store.service (Correcting s₀ moved id last sunk visited)
      (closing.fires policy event rule)
      (fun fired actions s => Correcting s₀ moved id last sunk visited actions s ∧ fired = true)
      fun _ _ _ => False :=
    RuleRun.triple_attempt fun _ => Dialogue.triple_pure fun _ before => ⟨before, rfl⟩
  apply RuleRun.triple_bind fires
  intro fired
  refine RuleRun.triple_given ?_
  intro same
  subst same
  rw [if_pos rfl]
  refine RuleRun.triple_bind (RuleRun.triple_closeLinked_correcting rule) ?_
  intro _
  exact RuleRun.triple_reposition_correcting rule here there placed anchored

/-- The rules of the column of a moved card are carried out one after the other. -/
theorem triple_rules_correcting (policy : RetryPolicy) (event : Event) (moved : CardId)
    (wellFormed : s₀.WellFormed) (stored : column ∈ s₀.columns)
    (final : column.cards.getLast? = some last) (rules : List PlacedRule)
    (found : ∀ rule ∈ rules, rule ∈ PlacedRule.ofColumn (s₀.columnView column)) :
    RuleRun.Triple Store.service (Correcting s₀ moved column.id last [] false)
      (rules.forM (closeAndSink policy event (s₀.linkedEntity? moved)))
      (fun _ => Correcting s₀ moved column.id last (sinking last rules) (!rules.isEmpty))
      fun _ _ _ => False := by
  refine RuleRun.triple_forM_done
    (I := fun done => Correcting s₀ moved column.id last (sinking last done) (!done.isEmpty)) ?_
  intro done rule rest split
  have extracted : rule ∈ PlacedRule.ofColumns [] ([column].map s₀.columnView) :=
    found rule (by rw [split]; simp)
  obtain ⟨other, member, here, placed, _, anchored⟩ := Store.column_of_extracted extracted
  have cards := wellFormed.cardsIn_eq stored
  rw [List.mem_singleton.mp member] at here placed anchored
  rw [final] at anchored
  rw [← cards] at placed
  have there : last ∈ s₀.cardsIn column.id := by
    rw [cards]
    exact List.mem_of_getLast? final
  have next : sinking last (done ++ [rule]) = sinking last done ++ [rule.card].filter (· ≠ last) := by
    unfold sinking
    rw [List.map_append, List.filter_append]
    rfl
  have nonempty : (!(done ++ [rule]).isEmpty) = true := by simp
  rw [next, nonempty]
  exact triple_closeAndSink_correcting policy event rule (by rw [here]) there placed anchored

/-- The cards that sink are the raised ones, each at least once. -/
theorem sinking_raised {s : Store} (wellFormed : s.WellFormed) (stored : column ∈ s.columns)
    (name : String) (final : column.cards.getLast? = some last) :
    ∃ raised, Store.Raised (s.declaresNamed name) column.cards raised ∧
      (sinking last (s.rulesNamed name column) = [] ↔ raised = []) ∧
      (sinking last (s.rulesNamed name column)).foldl (Store.sink last) column.cards =
        raised.foldl (Store.sink last) column.cards := by
  have nodup : column.cards.Nodup := by
    rw [← wellFormed.cardsIn_eq stored]
    exact wellFormed.nodup_cardsIn column.id
  have members : ∀ card ∈ (s.counted [] column).filter s.declares, card ∈ column.cards := by
    intro card counted
    have shown := ((s.mem_counted [] column card).mp (List.mem_of_mem_filter counted)).2
    exact Store.mem_of_mem_windowOf shown
  have sunk := Store.foldl_sink_copies (s.countNamed name) _ nodup (List.mem_of_getLast? final) members
  rw [← s.cards_named name column] at sunk
  refine ⟨_, ⟨?_, ?_⟩, ?_, sunk⟩
  · exact (((PlacedRule.nodup_firstSeen _ _).filter _).filter _).filter _
  · intro card
    rw [List.mem_filter, s.mem_counted_named, final, decide_eq_true_iff, and_assoc]
    refine and_congr_right fun _ => and_congr_right fun _ => not_congr ?_
    exact ⟨fun same => congrArg some same.symm, fun same => (Option.some.inj same).symm⟩
  · unfold sinking
    rw [List.filter_eq_nil_iff, List.filter_eq_nil_iff]
    refine forall_congr' fun card => imp_congr_left ?_
    rw [s.mem_named_cards, s.mem_counted_named]

/-- What a dispatch of a moved card does when reads do not fail. -/
theorem closing_pass {s : Store} (policy : RetryPolicy) (event : Event) (wellFormed : s.WellFormed)
    (reads : s.failingReads = 0) (found : s.columnOf? moved = some column)
    (final : column.cards.getLast? = some last) :
    ∃ actions s' raised visited,
      (closing.outcome policy event (.movedCard moved)).run Store.service s =
        (⟨"close_issue", actions, none⟩, s') ∧
      Store.Raised (s.declaresNamed "close_issue") column.cards raised ∧
      (visited = true ↔
        ∃ card ∈ Store.windowOf column.cards, s.declaresNamed "close_issue" card = true) ∧
      Correcting s moved column.id last raised visited actions s' := by
  have stored : column ∈ s.columns := List.mem_of_find?_eq_some found
  have answer : Store.service (.cardContext moved) s =
      (.ok ⟨s.linkedEntity? moved, s.columnView column⟩, s) := by
    change s.read (Store.cardContext moved) = _
    unfold Store.read Store.cardContext
    rw [reads, found]
  have done := triple_rules_correcting policy event moved wellFormed stored final
    (s.rulesNamed "close_issue" column)
    (fun rule member => (PlacedRule.mem_named.mp member).1) [] s (Correcting.start wellFormed)
  have work : (closing.work policy event (.movedCard moved)).perform Store.service [] s =
      RuleRun.perform Store.service ((s.rulesNamed "close_issue" column).forM
        (closeAndSink policy event (s.linkedEntity? moved))) [] s := by
    change RuleRun.perform Store.service
      (RuleRun.attempt .tracking (Dialogue.read policy (.cardContext moved)) >>= _) [] s = _
    rw [RuleRun.perform_bind, RuleRun.perform_attempt, Dialogue.run_read_ok answer]
    rfl
  rcases performed : (closing.work policy event (.movedCard moved)).perform Store.service [] s with
    ⟨⟨result, actions⟩, s'⟩
  rw [← work, performed] at done
  cases result with
  | error error => exact done.elim
  | ok _ =>
    obtain ⟨raised, exactly, empty, same⟩ :=
      sinking_raised wellFormed stored "close_issue" final
    rw [← wellFormed.cardsIn_eq stored] at same
    refine ⟨actions, s', raised, !(s.rulesNamed "close_issue" column).isEmpty,
      run_outcome performed, exactly, ?_, done.congr empty same⟩
    have shown : (∃ card, card ∈ (s.rulesNamed "close_issue" column).map PlacedRule.card) ↔
        ∃ card ∈ Store.windowOf column.cards, s.declaresNamed "close_issue" card = true :=
      exists_congr fun card => s.mem_named_cards "close_issue" column card
    rw [← shown, ← List.length_pos_iff_exists_mem, List.length_map, List.length_pos_iff]
    simp

end Automation

/-! ## The dispatch of a moved card -/

/-- An event that tells that a card has been moved. -/
structure Event.Moves (event : Event) (card : CardId) : Prop where
  trigger : event.trigger = .cardMoved
  subject : event.subject = .projectCard ⟨card.text⟩

theorem Event.moves_ofMovedCard (card : CardId) : (ofMovedCard card).Moves card := ⟨rfl, rfl⟩

theorem Dispatcher.resolve_projectCard (dispatcher : Dispatcher) {event : Event}
    {card : Payload.ProjectCard} (about : event.subject = .projectCard card) :
    dispatcher.resolve event = pure (.ok (.movedCard ⟨card.nodeId⟩)) := by
  unfold resolve
  rw [about]

theorem Router.route_moved {policy : RetryPolicy} {event : Event} {card : CardId} {s s' : Store}
    {outcome : Outcome} (moves : event.Moves card)
    (ran : (Automation.closing.outcome policy event (.movedCard card)).run Store.service s =
      (outcome, s')) :
    ((ofCatalog policy .builtin).route event).run Store.service s =
      (.ok (some ⟨.cardMoved, [outcome]⟩), s') := by
  have dispatcher : (ofCatalog policy .builtin).dispatcher? event.trigger =
      some ⟨.cardMoved, [.closing], policy⟩ := by
    have listeners := Catalog.listeners_cardMoved
    unfold dispatcher? ofCatalog
    rw [moves.trigger, List.find?_map]
    change (Catalog.builtin.groups.find? fun group => group.1 == .cardMoved).map _ = _
    rw [listeners]
    rfl
  have matching : ¬ event.trigger ≠ .cardMoved := not_not_intro moves.trigger
  have resolved : Dispatcher.resolve ⟨.cardMoved, [.closing], policy⟩ event =
      return .ok (.movedCard card) := Dispatcher.resolve_projectCard _ moves.subject
  have single : (Dispatcher.outcomes policy event (.movedCard card) [.closing]).run Store.service s =
      ([outcome], s') := by
    unfold Dispatcher.outcomes
    rw [Dialogue.run_bind, ran]
    rfl
  have dispatched : (Dispatcher.dispatch ⟨.cardMoved, [.closing], policy⟩ event).run Store.service s =
      (.ok ⟨.cardMoved, [outcome]⟩, s') := by
    unfold Dispatcher.dispatch
    rw [if_neg matching, Dialogue.run_bind, resolved]
    change (Dispatcher.outcomes policy event (.movedCard card) [.closing] >>= _).run Store.service s = _
    rw [Dialogue.run_bind, single]
    rfl
  unfold route
  rw [dispatcher]
  change (Dispatcher.dispatch _ event >>= _).run Store.service s = _
  rw [Dialogue.run_bind, dispatched]
  rfl

/-- What a dispatch does to the column of a moved card: the marked cards that were shown above the
last card sink. -/
structure Corrected (s : Store) (moved : CardId) (id : ColumnId) (last : CardId)
    (raised : List CardId) (visited : Bool) (report : Report) (s' : Store) : Prop where
  final : (s.cardsIn id).getLast? = some last
  clean : report.isClean = true
  exactly : Store.Raised (s.declaresNamed "close_issue") (s.cardsIn id) raised
  shown : visited = true ↔
    ∃ card ∈ Store.windowOf (s.cardsIn id), s.declaresNamed "close_issue" card = true
  correcting : Correcting s moved id last raised visited report.actions s'

theorem Router.moved_corrected (policy : RetryPolicy) {event : Event} {card : CardId} {s : Store}
    {id : ColumnId} (wellFormed : s.WellFormed) (reads : s.failingReads = 0)
    (inside : card ∈ s.cardsIn id) (moves : event.Moves card) :
    ∃ last raised visited report s',
      ((ofCatalog policy .builtin).route event).run Store.service s = (.ok (some report), s') ∧
        Corrected s card id last raised visited report s' := by
  obtain ⟨column, found, rfl, cards⟩ := wellFormed.columnOf?_of_mem inside
  obtain ⟨last, final⟩ := Option.isSome_iff_exists.mp
    (List.getLast?_isSome.mpr (List.ne_nil_of_mem inside))
  rw [← cards] at final
  obtain ⟨actions, s', raised, visited, ran, exactly, shown, correcting⟩ :=
    Automation.closing_pass policy event wellFormed reads found final
  rw [cards] at final exactly shown
  have actions' : Report.actions ⟨.cardMoved, [⟨"close_issue", actions, none⟩]⟩ = actions :=
    List.append_nil actions
  rw [← actions'] at correcting
  exact ⟨last, raised, visited, _, s', route_moved moves ran, final, rfl, exactly, shown, correcting⟩

end BoardRules
