import BoardRules.Proofs.Dispatch.Agenda
import BoardRules.Proofs.Store.Sinking

/-!
# Transitions

An entity moves into the column of a rule, and the rule's card goes back to the bottom of that column.
The card to put it behind has been read before the entity moves, and it may be the entity's own.
-/
namespace BoardRules

/-! ## Both moves -/

namespace Store

/-- A column after a card has come to its top and the card of a rule has been put behind the card that
was last before. If that was the card that came to the top, the rule's card follows it there. -/
def transit (card rule : CardId) (cards : List CardId) : List CardId :=
  let others := (cards.filter (· ≠ card)).filter (· ≠ rule)
  if cards.getLast? = some card then card :: rule :: others else card :: others ++ [rule]

theorem length_others {card rule : CardId} {cards : List CardId} (nodup : cards.Nodup)
    (member : card ∈ cards) (present : rule ∈ cards) (different : card ≠ rule) :
    ((cards.filter (· ≠ card)).filter (· ≠ rule)).length + 2 = cards.length := by
  have remains : rule ∈ cards.filter (· ≠ card) :=
    List.mem_filter.mpr ⟨present, by simpa using different.symm⟩
  have one := (cons_filter_ne_perm nodup member).length_eq
  have two := (cons_filter_ne_perm (nodup.filter _) remains).length_eq
  simp only [List.length_cons] at one two
  omega

/-- The rule's card ends at the bottom unless the card that came to the top was the last of at least
three. -/
theorem getLast?_transit {card rule : CardId} {cards : List CardId} (nodup : cards.Nodup)
    (present : rule ∈ cards) (different : card ≠ rule) :
    (transit card rule cards).getLast? = some rule ↔
      ¬ (cards.getLast? = some card ∧ 2 < cards.length) := by
  unfold transit
  by_cases final : cards.getLast? = some card
  · have counted := length_others nodup (List.mem_of_getLast? final) present different
    have absent : rule ∉ (cards.filter (· ≠ card)).filter (· ≠ rule) := by simp
    rw [if_pos final]
    generalize (cards.filter (· ≠ card)).filter (· ≠ rule) = others at counted absent
    cases others with
    | nil =>
      have few : cards.length = 2 := by simpa using counted.symm
      simp [few]
    | cons other rest =>
      -- Below the two cards at the top there is something else.
      have many : 2 < cards.length := by
        rw [List.length_cons] at counted
        omega
      rw [List.getLast?_cons_cons, List.getLast?_cons_cons]
      constructor
      · intro last
        exact absurd (List.mem_of_getLast? last) absent
      · intro few
        exact absurd ⟨final, many⟩ few
  · rw [if_neg final, List.getLast?_concat]
    simp [final]

/-- The card of a rule that is at the bottom stays there. -/
theorem transit_of_last {card rule : CardId} {cards : List CardId} (nodup : cards.Nodup)
    (different : card ≠ rule) (final : cards.getLast? = some rule) :
    transit card rule cards = card :: cards.filter (· ≠ card) := by
  obtain ⟨above, rfl⟩ := List.getLast?_eq_some_iff.mp final
  have absent : rule ∉ above :=
    fun member => (List.nodup_append.mp nodup).2.2 rule member rule (List.mem_singleton_self rule) rfl
  have kept : (above.filter (· ≠ card)).filter (· ≠ rule) = above.filter (· ≠ card) := by
    apply List.filter_eq_self.mpr
    intro other member
    have apart : other ≠ rule := fun same => absent (same ▸ List.mem_of_mem_filter member)
    simpa using apart
  have last : (above ++ [rule]).filter (· ≠ card) = above.filter (· ≠ card) ++ [rule] := by
    simp [List.filter_append, different.symm]
  unfold transit
  rw [final, if_neg (by simpa using different.symm), last, List.filter_append, kept]
  simp

/-- Any other card of a rule comes behind the card that was last. -/
theorem sink_raised {card rule last : CardId} {cards : List CardId} (nodup : cards.Nodup)
    (final : cards.getLast? = some last) (own : rule ≠ last) (different : card ≠ rule) :
    sink last (card :: cards.filter (· ≠ card)) rule = transit card rule cards := by
  have nodup' : (card :: cards.filter (· ≠ card)).Nodup :=
    List.nodup_cons.mpr ⟨by simp, nodup.filter _⟩
  unfold transit
  by_cases top : last = card
  · -- The anchor itself is at the top by now.
    subst top
    rw [if_pos final]
    exact sink_append (show ([] ++ last :: cards.filter (· ≠ last)).Nodup from nodup') own
  · obtain ⟨above, rfl⟩ := List.getLast?_eq_some_iff.mp final
    have split : (above ++ [last]).filter (· ≠ card) = above.filter (· ≠ card) ++ [last] := by
      simp [List.filter_append, top]
    rw [final, if_neg (by simpa using top)]
    rw [split] at nodup' ⊢
    rw [← List.cons_append] at nodup' ⊢
    rw [sink_append nodup' own]
    simp [List.filter_append, own.symm, different]

/-- The card of a rule goes behind the card that was last when the rule was shown. -/
theorem WellFormed.perform_transition {s : Store} (wellFormed : s.WellFormed) {rule : PlacedRule}
    (shown : s.Shows rule) {card : CardId} (known : (s.card? card).isSome)
    (different : card ≠ rule.card) (actions : List Action) :
    let reached := RuleRun.perform Store.service
      ((Step.raise card rule.column.id :: rule.lowering).forM Step.take) actions s
    reached.1.1 = .ok () ∧
      reached.2.cardsIn rule.column.id = transit card rule.card (s.cardsIn rule.column.id) := by
  obtain ⟨_, column, _⟩ := column?_of_mem shown.placed
  obtain ⟨raised, success, contents, _⟩ := moveCard_of_insertAt known column
    (show insertAt card none _ = some (card :: _) from rfl)
  have taken : Store.service (Step.raise card rule.column.id).call s = (.ok (), raised) := success
  have wellFormed' := wellFormed.moveCard card rule.column.id none
  rw [success] at wellFormed'
  have nodup := wellFormed.nodup_cardsIn rule.column.id
  have placed := shown.placed
  have anchored := shown.anchored
  intro reached
  subst reached
  rw [Step.perform_cons, taken]
  obtain ⟨last, final⟩ := Option.isSome_iff_exists.mp
    (List.getLast?_isSome.mpr (List.ne_nil_of_mem placed))
  unfold PlacedRule.lowering
  rw [anchored, final]
  by_cases own : last = rule.card
  · -- The rule has no anchor, so raising the other card is all that happens.
    subst own
    rw [transit_of_last nodup different final]
    simp only [Option.filter, ne_eq, not_true_eq_false, decide_false]
    exact ⟨rfl, contents⟩
  · have present : rule.card ∈ raised.cardsIn rule.column.id := by
      rw [contents]
      exact List.mem_cons_of_mem _ (List.mem_filter.mpr ⟨placed, by simpa using different.symm⟩)
    have remains : last ∈ raised.cardsIn rule.column.id := by
      rw [contents]
      by_cases top : last = card
      · exact top ▸ List.mem_cons_self
      · exact List.mem_cons_of_mem _
          (List.mem_filter.mpr ⟨List.mem_of_getLast? final, by simpa using top⟩)
    obtain ⟨sunk, moved, behind, _⟩ := wellFormed'.moveCard_sink remains present (Ne.symm own)
    rw [contents, sink_raised nodup final (Ne.symm own) different] at behind
    have taken' : Store.service (Step.lower rule.card rule.column.id last).call raised =
        (.ok (), sunk) := moved
    have lowered : (some last).filter (· ≠ rule.card) = some last := by simp [Option.filter, own]
    rw [lowered]
    simp only [Option.toList_some, List.map_cons, List.map_nil]
    rw [Step.perform_cons, taken']
    exact ⟨rfl, behind⟩

end Store

/-- The cards of an entity, as far as they are shown. -/
def Store.membershipsOf (s : Store) (url : EntityUrl) : List Membership :=
  ((cardMemberships url s).toOption.bind (·.cards)).getD []

theorem Store.membershipsOf_eq {s : Store} {url : EntityUrl} {found : EntityMemberships}
    (answer : cardMemberships url s = .ok found) : s.membershipsOf url = found.cards.getD [] := by
  unfold membershipsOf
  rw [answer]
  rfl

theorem Store.found_of_mem {s : Store} {url : EntityUrl} {membership : Membership}
    (listed : membership ∈ s.membershipsOf url) :
    ∃ found, cardMemberships url s = .ok found ∧ found.cards.getD [] = s.membershipsOf url := by
  unfold membershipsOf at listed ⊢
  cases answer : cardMemberships url s with
  | error error =>
    rw [answer] at listed
    cases listed
  | ok found => exact ⟨found, rfl, rfl⟩

namespace Automation

/-- The cards of the entity with the rules that fire for them. -/
def firing (automation : Automation) (event : Event) (url : EntityUrl) (s : Store) :
    List (Membership × PlacedRule) :=
  (automation.candidates (s.membershipsOf url)).filter fun candidate =>
    s.fires automation.matcher event candidate.2.declaration.arguments

variable {automation : Automation} {event : Event} {url : EntityUrl} {s : Store}
  {membership : Membership} {rule : PlacedRule}

theorem listed_of_firing (fired : (membership, rule) ∈ automation.firing event url s) :
    membership ∈ s.membershipsOf url ∧ rule ∈ PlacedRule.ofBoards [membership.board] := by
  obtain ⟨source, listed, paired⟩ := List.mem_flatMap.mp (List.mem_of_mem_filter fired)
  obtain ⟨_, named, same⟩ := List.mem_map.mp paired
  cases same
  exact ⟨listed, (PlacedRule.mem_named.mp named).1⟩

/-- A rule that fires has been read from the board of the card, and is not declared by that card. -/
theorem shows_of_firing (wellFormed : s.WellFormed)
    (fired : (membership, rule) ∈ automation.firing event url s) :
    s.Shows rule ∧ (s.card? membership.card).isSome ∧ membership.card ≠ rule.card := by
  obtain ⟨listed, extracted⟩ := listed_of_firing fired
  obtain ⟨found, answer, cards⟩ := Store.found_of_mem listed
  rw [← cards] at listed
  obtain ⟨entity, _, each⟩ := Store.cardMemberships_ok answer
  obtain ⟨board, stored, column, inside, placed, belongs, shown⟩ := each membership listed
  have here : column ∈ s.columns := List.mem_flatMap.mpr ⟨board, stored, inside⟩
  have views : [membership.board] = [board].map s.boardView := by simp [shown]
  rw [views] at extracted
  have shows : s.Shows rule := wellFormed.shows_ofBoards (by simpa using stored) extracted
  refine ⟨shows, ?_, ?_⟩
  · exact (wellFormed.known_iff _).mpr ⟨column.id, (wellFormed.cardsIn_eq here).symm ▸ placed⟩
  · intro same
    have declared := shows.declared
    unfold Store.declarations at declared
    rw [← same, wellFormed.cardNote?_of_isCardOf belongs] at declared
    cases declared

/-- Without failing reads, the cards of an entity are moved as the rules that fire say. -/
theorem perform_work_moves (policy : RetryPolicy) (event : Event) (reads : s.failingReads = 0)
    (plain : automation.sideEffect = none) (moves : automation.createsCard = false)
    (listed : membership ∈ s.membershipsOf url) :
    RuleRun.perform Store.service (automation.work policy event (.entity url)) [] s =
      RuleRun.perform Store.service (((automation.firing event url s).flatMap fun (membership, rule) =>
        .raise membership.card rule.column.id :: rule.lowering).forM Step.take) [] s := by
  obtain ⟨found, answer, cards⟩ := Store.found_of_mem listed
  have answered : (Store.service (.cardMemberships url) s).1 = .ok found := by
    rw [← answer]
    exact congrArg Prod.fst (Store.read_calm reads _)
  rw [automation.perform_work_calm policy event reads
    (automation.agenda_of_moves (by simp [moves]) plain url)]
  dsimp only
  rw [answered]
  dsimp only
  rw [automation.due_rounds, Round.forM_duties, transition_eq, cards, List.filter_map,
    List.flatMap_map]
  rfl

end Automation

/-- An entity with one rule that fires, for one of its cards: the card comes to the top of the rule's
column. The rule's card ends at the bottom, unless the entity's card was last in that column and
there were at least three cards. -/
theorem Automation.transition_ends_with_rule (automation : Automation) (policy : RetryPolicy)
    (event : Event) (url : EntityUrl) (s : Store) (membership : Membership) (rule : PlacedRule)
    (reachable : s.Reachable) (reads : s.failingReads = 0) (plain : automation.sideEffect = none)
    (moves : automation.createsCard = false)
    (alone : automation.firing event url s = [(membership, rule)]) :
    let reached := (automation.outcome policy event (.entity url)).run Store.service s
    let before := s.cardsIn rule.column.id
    let after := reached.2.cardsIn rule.column.id
    reached.1.error = none ∧ after = Store.transit membership.card rule.card before ∧
      (after.getLast? = some rule.card ↔
        ¬ (before.getLast? = some membership.card ∧ 2 < before.length)) := by
  have fired : (membership, rule) ∈ automation.firing event url s :=
    alone ▸ List.mem_singleton_self (membership, rule)
  have wellFormed := reachable.wellFormed
  obtain ⟨shown, known, different⟩ := shows_of_firing wellFormed fired
  have moved := wellFormed.perform_transition shown known different []
  have work := perform_work_moves policy event reads plain moves (listed_of_firing fired).1
  rw [alone, List.flatMap_cons, List.flatMap_nil, List.append_nil] at work
  rw [← work] at moved
  rcases performed : RuleRun.perform Store.service (automation.work policy event (.entity url)) [] s
    with ⟨⟨result, actions⟩, s'⟩
  rw [performed] at moved
  obtain ⟨success, contents⟩ := moved
  dsimp only at success contents
  subst success
  rw [automation.run_outcome performed]
  dsimp only
  rw [contents]
  exact ⟨rfl, rfl, Store.getLast?_transit (wellFormed.nodup_cardsIn _) shown.placed different⟩

/-- A rule above a note, and an issue in another column. -/
def untriaged : Store :=
  [.addBoard (.owner "octo") "Plan", .addColumn ⟨"board-1"⟩ "Triage",
    .addColumn ⟨"board-1"⟩ "Backlog",
    .addEntity ⟨.https, "github.com", "octo", "demo", .issue, 7⟩,
    .appendCard ⟨"column-2"⟩ (.note "- `added_label` **bug**"),
    .appendCard ⟨"column-2"⟩ (.note "nothing"),
    .appendCard ⟨"column-3"⟩ (.entity ⟨"entity-4"⟩)].foldl Store.perform .empty

/-- The issue comes to the top of the rule's column, and the rule goes to its bottom. -/
theorem Automation.transition_ends_with_rule_untriaged :
    let automation := Automation.moving "added_label" .issueLabeled .labelIs
    let reached := (automation.outcome .default (.ofLabel "bug")
      (.entity ⟨.https, "github.com", "octo", "demo", .issue, 7⟩)).run Store.service untriaged
    reached.1.error = none ∧
      reached.2.cardsIn ⟨"column-2"⟩ = [⟨"card-7"⟩, ⟨"card-6"⟩, ⟨"card-5"⟩] := by
  intro automation reached
  have fires : ((automation.firing (.ofLabel "bug") ⟨.https, "github.com", "octo", "demo", .issue, 7⟩
      untriaged).map fun pair => (pair.1.card, pair.2.card, pair.2.column.id)) =
        [(⟨"card-7"⟩, ⟨"card-5"⟩, ⟨"column-2"⟩)] := by decide +kernel
  obtain ⟨⟨membership, rule⟩, alone, same⟩ := List.map_eq_singleton_iff.mp fires
  obtain ⟨card, own, column⟩ : membership.card = ⟨"card-7"⟩ ∧ rule.card = ⟨"card-5"⟩ ∧
      rule.column.id = ⟨"column-2"⟩ := by simpa using same
  obtain ⟨clean, contents, _⟩ := automation.transition_ends_with_rule .default _ _ untriaged membership
    rule (Store.Reachable.foldl _ _ .empty) (by decide +kernel) rfl rfl alone
  rw [card, own, column] at contents
  exact ⟨clean, contents.trans (by decide +kernel)⟩

/-- The same rule and note, and the issue below them. -/
def bottomed : Store :=
  [.addBoard (.owner "octo") "Plan", .addColumn ⟨"board-1"⟩ "Triage",
    .addEntity ⟨.https, "github.com", "octo", "demo", .issue, 7⟩,
    .appendCard ⟨"column-2"⟩ (.note "- `added_label` **bug**"),
    .appendCard ⟨"column-2"⟩ (.note "nothing"),
    .appendCard ⟨"column-2"⟩ (.entity ⟨"entity-3"⟩)].foldl Store.perform .empty

/-- The rule's card follows the issue to the top and leaves the note at the bottom. -/
theorem Automation.transition_stale_anchor :
    ¬ ∀ (automation : Automation) (policy : RetryPolicy) (event : Event) (url : EntityUrl) (s : Store)
      (membership : Membership) (rule : PlacedRule), s.Reachable → s.failingReads = 0 →
      automation.sideEffect = none → automation.createsCard = false →
      automation.firing event url s = [(membership, rule)] →
      (((automation.outcome policy event (.entity url)).run Store.service s).2.cardsIn
        rule.column.id).getLast? = some rule.card := by
  intro always
  have fires : (((Automation.moving "added_label" .issueLabeled .labelIs).firing (.ofLabel "bug")
      ⟨.https, "github.com", "octo", "demo", .issue, 7⟩ bottomed).map fun pair =>
        (pair.2.card, pair.2.column.id)) = [(⟨"card-4"⟩, ⟨"column-2"⟩)] := by decide +kernel
  obtain ⟨⟨membership, rule⟩, alone, same⟩ := List.map_eq_singleton_iff.mp fires
  obtain ⟨own, column⟩ : rule.card = ⟨"card-4"⟩ ∧ rule.column.id = ⟨"column-2"⟩ := by
    simpa using same
  have last := always _ .default _ _ bottomed membership rule (Store.Reachable.foldl _ _ .empty)
    (by decide +kernel) rfl rfl alone
  rw [own, column] at last
  revert last
  decide +kernel

end BoardRules
