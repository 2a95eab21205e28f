import BoardRules.Proofs.Dispatch.Anchors
import BoardRules.Proofs.Dispatch.Independence

/-!
# Destinations

The card of an entity visits the columns of all rules that fire on its board, one after the other, and
stays at the top of the last one: a rule's card goes back behind some card and so never to the top.
All of that happens on one board, so the visits of one card do not disturb where another has ended.
-/
namespace BoardRules

open Store (Frame SameOn)

variable {s t u : Store} {url : EntityUrl} {board : BoardId} {card : CardId}
  {membership : Membership} {rules : List PlacedRule}

/-! ## Where a card ends -/

namespace Store

/-- Where a card ends by the rules that fire on its board: at the top of the column of the last one.
If there are none, nothing has changed on that board. -/
def Lands (s t : Store) (board : BoardId) (card : CardId) (rules : List PlacedRule) : Prop :=
  match rules.getLast? with
  | some rule => (t.cardsIn rule.column.id).head? = some card
  | none => ∀ id, (board, id) ∈ s.hosts → t.cardsIn id = s.cardsIn id

theorem Lands.start (s : Store) (board : BoardId) (card : CardId) : s.Lands s board card [] :=
  fun _ _ => rfl

theorem lands_concat {rule : PlacedRule} :
    s.Lands t board card (rules ++ [rule]) ↔ (t.cardsIn rule.column.id).head? = some card := by
  unfold Lands
  rw [List.getLast?_concat]

/-- What has been done before on other boards may be counted in. -/
theorem Lands.from (landed : t.Lands u board card rules) (hosts : t.hosts = s.hosts)
    (untouched : ∀ id, (board, id) ∈ s.hosts → t.cardsIn id = s.cardsIn id) :
    s.Lands u board card rules := by
  unfold Lands at landed ⊢
  split <;> rename_i last <;> rw [last] at landed
  · exact landed
  · intro id host
    rw [landed id (hosts ▸ host), untouched id host]

/-- What is done later on another board makes no difference. -/
theorem Lands.kept {other : BoardId} (landed : s.Lands t board card rules)
    (hosts : t.hosts = s.hosts) (nearby : ∀ rule ∈ rules, (board, rule.column.id) ∈ s.hosts)
    (elsewhere : SameOn (· ≠ other) t u) (apart : board ≠ other) :
    s.Lands u board card rules := by
  have same {id : ColumnId} (host : (board, id) ∈ s.hosts) : u.cardsIn id = t.cardsIn id :=
    elsewhere.contents board id apart (hosts ▸ host)
  unfold Lands at landed ⊢
  split <;> rename_i last <;> rw [last] at landed
  · rw [same (nearby _ (List.mem_of_getLast? last))]
    exact landed
  · intro id host
    rw [same host, landed id host]

/-- A card that goes behind another does not become the first one. -/
theorem head?_insertBehind {card anchor : CardId} {cards placed : List CardId}
    (inserted : insertBehind card anchor cards = some placed) : placed.head? = cards.head? := by
  cases cards with
  | nil => cases inserted
  | cons first rest =>
    unfold insertBehind at inserted
    split at inserted
    · cases inserted
      rfl
    · obtain ⟨_, _, rfl⟩ := Option.map_eq_some_iff.mp inserted
      rfl

theorem head?_filter_ne {one other : CardId} {cards : List CardId} (first : cards.head? = some one)
    (different : one ≠ other) : (cards.filter (· ≠ other)).head? = some one := by
  obtain ⟨rest, rfl⟩ := List.head?_eq_some_iff.mp first
  rw [List.filter_cons_of_pos (by simpa using different)]
  rfl

end Store

/-! ## Visits -/

/-- A card goes to the column of a rule, and the rule's card back to the bottom of it. -/
def PlacedRule.visit (rule : PlacedRule) (card : CardId) : List Step :=
  .raise card rule.column.id :: rule.lowering

/-- To move a card of one board to another column of it changes nothing on other boards. -/
theorem Store.Frame.confined {target : Target} {fired : List CardId} (frame : Frame s target fired t)
    {id there : ColumnId} (place : (board, there, card) ∈ s.places) (host : (board, id) ∈ s.hosts)
    (after : Option CardId) : SameOn (· ≠ board) t (t.moveCard card id after).2 := by
  obtain ⟨_, still⟩ := frame.board board there card place
  have inside : t.Inside (· = board) card := ⟨board, _, rfl, still⟩
  have covered : t.Covers (· = board) id := ⟨board, rfl, frame.hosts_eq ▸ host⟩
  exact frame.wellFormed.moveCard_confined inside covered after

/-- The store when a card has made some visits since `t`. -/
structure Visited (s t : Store) (url : EntityUrl) (board : BoardId) (card : CardId)
    (fired : List CardId) (rules : List PlacedRule) (u : Store) : Prop where
  frame : Frame s (.entity url) (fired ++ rules.map (·.card)) u
  elsewhere : SameOn (· ≠ board) t u
  landed : t.Lands u board card rules

theorem Visited.start {fired : List CardId} (frame : Frame s (.entity url) fired t) :
    Visited s t url board card fired [] t where
  frame := by simpa using frame
  elsewhere := .refl frame.wellFormed _
  landed := .start t board card

namespace Automation.Candidate

variable {rule : PlacedRule} {fired : List CardId}

/-- One more visit begins: the card comes to the top of the rule's column. -/
theorem raise_visited (wellFormed : s.WellFormed) (candidate : Candidate s url membership rule)
    {id : ColumnId} (place : (board, id, membership.card) ∈ s.places) {done : List PlacedRule}
    (visited : Visited s t url board membership.card fired done u) :
    ∃ u', u.moveCard membership.card rule.column.id none = (.ok (), u') ∧
      Visited s t url board membership.card fired (done ++ [rule]) u' := by
  have frame := visited.frame.fire (candidate.shown.foreign wellFormed _)
  have moved := frame.confined place (candidate.nearby wellFormed board id place) none
  obtain ⟨u', success, raised, _⟩ := candidate.raise wellFormed frame
  rw [success] at moved
  obtain ⟨cards, inserted, contents, _⟩ := Store.moveCard_ok success
  cases inserted
  refine ⟨u', success, ?_, visited.elsewhere.trans moved, Store.lands_concat.mpr ?_⟩
  · rw [List.map_append, ← List.append_assoc]
    exact raised
  · rw [contents, if_pos rfl]
    rfl

/-- The visit ends with the rule's card, which does not come to the top. -/
theorem lower_visited (wellFormed : s.WellFormed) (single : s.SingleCards (.entity url))
    (candidate : Candidate s url membership rule) {id : ColumnId}
    (place : (board, id, membership.card) ∈ s.places) {done : List PlacedRule}
    (visited : Visited s t url board membership.card fired (done ++ [rule]) u) {anchor : CardId}
    (anchored : rule.anchor = some anchor) :
    ∃ u', u.moveCard rule.card rule.column.id (some anchor) = (.ok (), u') ∧
      Visited s t url board membership.card fired (done ++ [rule]) u' := by
  have host := candidate.nearby wellFormed board id place
  have shown := candidate.shown
  have first := Store.lands_concat.mp visited.landed
  have moved := visited.frame.confined (wellFormed.mem_places.mpr ⟨host, shown.placed⟩) host
    (some anchor)
  obtain ⟨u', success, lowered⟩ := candidate.lower wellFormed single visited.frame (by simp)
    (List.mem_of_mem_head? first) anchored
  rw [success] at moved
  obtain ⟨cards, inserted, contents, _⟩ := Store.moveCard_ok success
  have different : membership.card ≠ rule.card := by
    intro same
    have own := candidate.own
    rw [same, shown.foreign wellFormed] at own
    cases own
  refine ⟨u', success, lowered, visited.elsewhere.trans moved, Store.lands_concat.mpr ?_⟩
  rw [contents, if_pos rfl, Store.head?_insertBehind inserted]
  exact Store.head?_filter_ne first different

theorem triple_visit (wellFormed : s.WellFormed) (single : s.SingleCards (.entity url))
    (candidate : Candidate s url membership rule) {id : ColumnId}
    (place : (board, id, membership.card) ∈ s.places) (done : List PlacedRule) :
    RuleRun.Triple Store.service (fun _ => Visited s t url board membership.card fired done)
      ((rule.visit membership.card).forM Step.take)
      (fun _ _ => Visited s t url board membership.card fired (done ++ [rule]))
      fun _ _ _ => False := by
  refine Step.triple_cons (Step.triple_take ?_)
    (RuleRun.triple_forM fun step lowering => Step.triple_take ?_)
  · intro actions u visited
    exact ⟨(), candidate.raise_visited wellFormed place visited⟩
  · obtain ⟨anchor, anchored, rfl⟩ := List.mem_map.mp lowering
    intro actions u visited
    exact ⟨(), candidate.lower_visited wellFormed single place visited (Option.mem_toList.mp anchored)⟩

/-- A card ends where the last of its visits takes it. -/
theorem triple_visits (wellFormed : s.WellFormed) (single : s.SingleCards (.entity url))
    (candidates : ∀ rule ∈ rules, Candidate s url membership rule) {id : ColumnId}
    (place : (board, id, membership.card) ∈ s.places) :
    RuleRun.Triple Store.service (fun _ => Visited s t url board membership.card fired [])
      (rules.forM fun rule => (rule.visit membership.card).forM Step.take)
      (fun _ _ => Visited s t url board membership.card fired rules) fun _ _ _ => False := by
  refine RuleRun.triple_forM_done
    (I := fun done _ => Visited s t url board membership.card fired done) ?_
  intro done rule rest split
  exact (candidates rule (by simp [split])).triple_visit wellFormed single place done

end Automation.Candidate

/-! ## Memberships -/

/-- The rules with the name of the automation that fire on a board, in the order in which they are
extracted. -/
def Automation.firingOn (automation : Automation) (event : Event) (s : Store) (board : Board) :
    List PlacedRule :=
  (PlacedRule.named automation.name (PlacedRule.ofBoards [board])).filter fun rule =>
    s.fires automation.matcher event rule.declaration.arguments

namespace Store

/-- The cards in memberships are different from each other. -/
theorem WellFormed.nodup_membershipsOf (wellFormed : s.WellFormed) (url : EntityUrl) :
    ((s.membershipsOf url).map (·.card)).Nodup := by
  unfold membershipsOf cardMemberships
  cases s.entity url with
  | error error => exact List.nodup_nil
  | ok entity =>
    have cards : (s.boards.flatMap (s.membershipsOn entity.id)).map (·.card) =
        s.placedCards.filter (s.isCardOf entity.id) := by
      simp [placedCards, Store.columns, membershipsOn, List.map_flatMap, List.filter_flatMap,
        List.flatMap_assoc, Function.comp_def]
    have all : ((s.boards.flatMap (s.membershipsOn entity.id)).map (·.card)).Nodup := by
      rw [cards]
      exact wellFormed.placedCards_nodup.filter _
    exact all.sublist ((List.take_sublist _ _).map _)

theorem home_of_membership (listed : membership ∈ s.membershipsOf url) :
    s.owns (.entity url) membership.card = true ∧
      ∃ id, (membership.board.id, id, membership.card) ∈ s.places := by
  obtain ⟨found, answer, cards⟩ := found_of_mem listed
  rw [← cards] at listed
  obtain ⟨own, board, _, shown, place⟩ := place_of_membership answer listed
  rw [shown]
  exact ⟨own, place⟩

/-- If the entity has one card on every board, its memberships are on different boards. -/
theorem WellFormed.nodup_boards (wellFormed : s.WellFormed) (single : s.SingleCards (.entity url)) :
    ((s.membershipsOf url).map (·.board.id)).Nodup := by
  have nodup := wellFormed.nodup_membershipsOf url
  refine List.Nodup.map_on ?_ (List.Nodup.of_map _ nodup)
  intro one listed other listed' same
  obtain ⟨own, _, place⟩ := home_of_membership listed
  obtain ⟨own', _, place'⟩ := home_of_membership listed'
  exact List.inj_on_of_nodup_map nodup listed listed' (single _ place _ place' same own own')

end Store

namespace Automation

variable {automation : Automation} {event : Event}

/-- The rules that fire on a board are candidates for the card there. -/
theorem candidate_of_firingOn (wellFormed : s.WellFormed) (listed : membership ∈ s.membershipsOf url)
    {rule : PlacedRule} (fires : rule ∈ automation.firingOn event s membership.board) :
    Candidate s url membership rule := by
  obtain ⟨found, answer, cards⟩ := Store.found_of_mem listed
  rw [← cards] at listed
  refine automation.mem_candidates wellFormed answer (List.mem_flatMap.mpr ⟨membership, listed, ?_⟩)
  exact List.mem_map_of_mem (List.mem_of_mem_filter fires)

theorem firing_eq (automation : Automation) (event : Event) (url : EntityUrl) (s : Store) :
    automation.firing event url s = (s.membershipsOf url).flatMap fun membership =>
      (automation.firingOn event s membership.board).map fun rule => (membership, rule) := by
  simp [firing, candidates, firingOn, List.filter_flatMap, List.filter_map, Function.comp_def]

/-- The visits of a card that belongs to the entity. -/
def visits (automation : Automation) (event : Event) (s : Store) (membership : Membership) :
    RuleRun Unit :=
  (automation.firingOn event s membership.board).forM fun rule =>
    (rule.visit membership.card).forM Step.take

/-- Without failing reads, the cards of an entity make their visits one after the other. -/
theorem perform_work_visits (policy : RetryPolicy) (event : Event) (reads : s.failingReads = 0)
    (plain : automation.Plain) (listed : membership ∈ s.membershipsOf url) :
    RuleRun.perform Store.service (automation.work policy event (.entity url)) [] s =
      RuleRun.perform Store.service ((s.membershipsOf url).forM (automation.visits event s)) [] s := by
  rw [automation.perform_work_moves policy event reads plain.2 plain.1 listed, firing_eq,
    List.flatMap_assoc, Step.forM_flatMap]
  congr 2
  funext membership
  rw [List.flatMap_map]
  exact Step.forM_flatMap _ _

/-- The store when the cards of some memberships have made their visits. -/
structure Arrived (automation : Automation) (event : Event) (s : Store) (url : EntityUrl)
    (done : List Membership) (t : Store) : Prop where
  frame : ∃ fired, Frame s (.entity url) fired t
  landed : ∀ membership ∈ done, s.Lands t membership.board.id membership.card
    (automation.firingOn event s membership.board)
  untouched : ∀ board id, (board, id) ∈ s.hosts → board ∉ done.map (·.board.id) →
    t.cardsIn id = s.cardsIn id

theorem Arrived.start (wellFormed : s.WellFormed) : Arrived automation event s url [] s where
  frame := ⟨[], .refl wellFormed _⟩
  landed _ member := nomatch member
  untouched _ _ _ _ := rfl

/-- One more card has made its visits, on a board where no other has made any. -/
theorem Arrived.visited (wellFormed : s.WellFormed) {done : List Membership}
    (arrived : Arrived automation event s url done t)
    (earlier : ∀ other ∈ done, other ∈ s.membershipsOf url)
    (apart : membership.board.id ∉ done.map (·.board.id)) {fired : List CardId}
    (visited : Visited s t url membership.board.id membership.card fired
      (automation.firingOn event s membership.board) u) :
    Arrived automation event s url (done ++ [membership]) u := by
  obtain ⟨_, before⟩ := arrived.frame
  refine ⟨⟨_, visited.frame⟩, ?_, ?_⟩
  · intro other member
    rcases List.mem_append.mp member with sooner | latest
    · have different : other.board.id ≠ membership.board.id :=
        fun same => apart (same ▸ List.mem_map_of_mem sooner)
      obtain ⟨_, id, place⟩ := Store.home_of_membership (earlier other sooner)
      refine (arrived.landed other sooner).kept before.hosts_eq ?_ visited.elsewhere different
      intro rule fires
      have candidate := candidate_of_firingOn wellFormed (earlier other sooner) fires
      exact candidate.nearby wellFormed _ id place
    · rw [List.mem_singleton.mp latest]
      exact visited.landed.from before.hosts_eq fun id host => arrived.untouched _ id host apart
  · intro board id host off
    rw [List.map_append, List.mem_append, not_or] at off
    have different : board ≠ membership.board.id := by simpa using off.2
    rw [visited.elsewhere.contents board id different (before.hosts_eq ▸ host),
      arrived.untouched board id host off.1]

theorem triple_arrived (automation : Automation) (event : Event) (wellFormed : s.WellFormed)
    (single : s.SingleCards (.entity url)) :
    RuleRun.Triple Store.service (fun _ => Arrived automation event s url [])
      ((s.membershipsOf url).forM (automation.visits event s))
      (fun _ _ => Arrived automation event s url (s.membershipsOf url)) fun _ _ _ => False := by
  refine RuleRun.triple_forM_done (I := fun done _ => Arrived automation event s url done) ?_
  intro done membership rest split actions t arrived
  have listed : membership ∈ s.membershipsOf url := by simp [split]
  have apart : membership.board.id ∉ done.map (·.board.id) := by
    have boards := wellFormed.nodup_boards single
    rw [split, List.map_append, List.map_cons, List.nodup_append] at boards
    exact fun before => boards.2.2 _ before _ List.mem_cons_self rfl
  obtain ⟨_, frame⟩ := arrived.frame
  obtain ⟨_, _, place⟩ := Store.home_of_membership listed
  have candidates : ∀ rule ∈ automation.firingOn event s membership.board,
      Candidate s url membership rule := fun _ => candidate_of_firingOn wellFormed listed
  refine RuleRun.triple_weaken (Candidate.triple_visits wellFormed single candidates place) ?_
    actions t (.start frame)
  intro _ _ u visited
  exact arrived.visited wellFormed (fun _ before => by simp [split, before]) apart visited

/-- An entity ends where the last rule says that fires: its card on every board is at the top of the
column of that rule. On a board without such a rule it stays where it is. -/
theorem ends_with_last_rule (automation : Automation) (policy : RetryPolicy) (event : Event)
    (url : EntityUrl) (s : Store) (reachable : s.Reachable) (reads : s.failingReads = 0)
    (plain : automation.Plain) (single : s.SingleCards (.entity url)) :
    let reached := ((automation.outcome policy event (.entity url)).run Store.service s).2
    ∀ membership ∈ s.membershipsOf url,
      match (automation.firingOn event s membership.board).getLast? with
      | some rule => (reached.cardsIn rule.column.id).head? = some membership.card
      | none => ∃ id, membership.card ∈ s.cardsIn id ∧ reached.cardsIn id = s.cardsIn id := by
  intro reached membership listed
  have wellFormed := reachable.wellFormed
  have arrived := triple_arrived automation event wellFormed single [] s (.start wellFormed)
  rw [← perform_work_visits policy event reads plain listed] at arrived
  rcases performed : RuleRun.perform Store.service (automation.work policy event (.entity url)) [] s
    with ⟨⟨error | _, actions⟩, s'⟩
  · rw [performed] at arrived
    exact arrived.elim
  · rw [performed] at arrived
    have final : reached = s' := congrArg Prod.snd (automation.run_outcome performed)
    have landed := arrived.landed membership listed
    unfold Store.Lands at landed
    rw [final]
    split <;> rename_i last <;> rw [last] at landed
    · exact landed
    · obtain ⟨_, id, place⟩ := Store.home_of_membership listed
      obtain ⟨host, inside⟩ := wellFormed.mem_places.mp place
      exact ⟨id, inside, landed id host⟩

/-- An issue on two boards. On the first one there are rules for bugs in two columns. -/
def filed : Store :=
  [.addBoard (.owner "octo") "Plan", .addColumn ⟨"board-1"⟩ "Triage", .addColumn ⟨"board-1"⟩ "Bugs",
    .addBoard (.owner "octo") "Docs", .addColumn ⟨"board-4"⟩ "Inbox",
    .addEntity ⟨.https, "github.com", "octo", "demo", .issue, 7⟩,
    .appendCard ⟨"column-2"⟩ (.note "- `added_label` **bug**"),
    .appendCard ⟨"column-2"⟩ (.entity ⟨"entity-6"⟩),
    .appendCard ⟨"column-3"⟩ (.note "- `added_label` **bug**"),
    .appendCard ⟨"column-3"⟩ (.note "nothing"),
    .appendCard ⟨"column-5"⟩ (.note "- `added_label` **docs**"),
    .appendCard ⟨"column-5"⟩ (.entity ⟨"entity-6"⟩)].foldl Store.perform .empty

/-- On the first board the issue goes on to the second column with a rule for bugs. On the other board
it stays where it is. -/
theorem ends_with_last_rule_filed :
    let reached := (((Automation.moving "added_label" .issueLabeled .labelIs).outcome .default
      (.ofLabel "bug") (.entity ⟨.https, "github.com", "octo", "demo", .issue, 7⟩)).run
        Store.service filed).2
    (reached.cardsIn ⟨"column-3"⟩).head? = some ⟨"card-8"⟩ ∧
      reached.cardsIn ⟨"column-5"⟩ = [⟨"card-11"⟩, ⟨"card-12"⟩] := by
  intro reached
  have ends := ends_with_last_rule (Automation.moving "added_label" .issueLabeled .labelIs) .default
    (.ofLabel "bug") ⟨.https, "github.com", "octo", "demo", .issue, 7⟩ filed
    (Store.Reachable.foldl _ _ .empty) (by decide +kernel) ⟨rfl, rfl⟩ (by decide +kernel)
  have last : (filed.membershipsOf ⟨.https, "github.com", "octo", "demo", .issue, 7⟩).map
      (fun membership => (membership.card, (((Automation.moving "added_label" .issueLabeled
        .labelIs).firingOn (.ofLabel "bug") filed membership.board).getLast?.map (·.column.id)))) =
      [(⟨"card-8"⟩, some ⟨"column-3"⟩), (⟨"card-12"⟩, none)] := by decide +kernel
  obtain ⟨one, _, split, first, others⟩ := List.map_eq_cons_iff.mp last
  obtain ⟨other, rfl, second⟩ := List.map_eq_singleton_iff.mp others
  obtain ⟨card, fires⟩ := Prod.mk.inj first
  obtain ⟨card', silent⟩ := Prod.mk.inj second
  constructor
  · obtain ⟨rule, final, column⟩ := Option.map_eq_some_iff.mp fires
    have ended := ends one (by simp [split])
    rw [final] at ended
    rw [← column, ← card]
    exact ended
  · have ended := ends other (by simp [split])
    rw [Option.map_eq_none_iff.mp silent] at ended
    obtain ⟨id, inside, same⟩ := ended
    have here : (⟨"card-12"⟩ : CardId) ∈ filed.cardsIn ⟨"column-5"⟩ := by decide +kernel
    rw [card'] at inside
    have reachable : filed.Reachable := Store.Reachable.foldl _ _ .empty
    obtain rfl := reachable.wellFormed.column_unique here inside
    exact same.trans (by decide +kernel)

end Automation

end BoardRules
