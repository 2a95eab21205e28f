import BoardRules.Dispatch.Run
import BoardRules.Proofs.Store.Consistency
import BoardRules.Proofs.Store.RuleCards

/-!
# Frames

What the calls of a dispatch leave alone: all cards but those of the event's entity and those of
rules that fire stay where they are and in their order, cards stay on their boards, and of all
entities only the issue of a moved card is changed. Calls that fail leave the same alone.
-/
namespace BoardRules

namespace Store

/-- Whether a card stands for the entity that an event is about. A moved card stands for itself and
does not take part. -/
def owns (s : Store) (target : Target) (card : CardId) : Bool :=
  match target with
  | .movedCard _ => false
  | .entity url => (s.entity? url).any fun entity => s.isCardOf entity.id card

/-- The issue of a moved card. -/
def linkedIssue? (s : Store) : Target → Option EntityId
  | .movedCard card => (s.linkedEntity? card).map (·.id)
  | .entity _ => none

/-- Whether a card has been there all the time and has no part in what is done, neither as a card of
the entity nor as one of the given cards. -/
def spares (s : Store) (target : Target) (rules : List CardId) (card : CardId) : Bool :=
  (s.card? card).isSome && !s.owns target card && decide (card ∉ rules)

/-- Which columns there are on which boards. -/
def hosts (s : Store) : List (BoardId × ColumnId) :=
  s.layout.flatMap fun board => board.columns.map fun column => (board.id, column.id)

/-- What is the same after some calls for the target of an event, when the rules on the given cards
have fired. -/
structure Frame (s : Store) (target : Target) (rules : List CardId) (s' : Store) : Prop where
  wellFormed : s'.WellFormed
  layout : s'.layout = s.layout
  /-- Cards are only added, so no note has changed. -/
  cards : s.cards <+: s'.cards
  /-- A moved card does not even add cards. -/
  added : ∀ card, target = .movedCard card → s'.cards = s.cards
  reviews : s'.reviews = s.reviews
  /-- At most the issue of a moved card has been closed. -/
  entities : s'.entities = s.entities ∨
    ∃ issue, s.linkedIssue? target = some issue ∧ s'.entities = s.entities.map (closeEntity issue)
  foreign : ∀ card ∈ rules, s.owns target card = false
  /-- The cards that are spared make up every column in the same order as before. -/
  order : ∀ id, (s'.cardsIn id).filter (s.spares target rules) =
    (s.cardsIn id).filter (s.spares target rules)
  /-- Only cards of the entity leave their columns. -/
  column : ∀ id, ∀ card ∈ s.cardsIn id, s.owns target card = false → card ∈ s'.cardsIn id
  /-- No card leaves its board. -/
  board : ∀ board id card, (board, id, card) ∈ s.places → ∃ id', (board, id', card) ∈ s'.places

theorem owns_entity {s : Store} {url : EntityUrl} {card : CardId} :
    s.owns (.entity url) card = true ↔
      ∃ entity, s.entity? url = some entity ∧ s.isCardOf entity.id card = true :=
  Option.any_eq_true _ _

theorem entity?_of_ok {s : Store} {url : EntityUrl} {entity : StoredEntity}
    (known : s.entity url = .ok entity) : s.entity? url = some entity := by
  unfold Store.entity at known
  split at known
  · cases known
    assumption
  · cases known

/-- A card with a note is not the card of an entity. -/
theorem WellFormed.foreign_of_note {s : Store} (wellFormed : s.WellFormed) {card : CardId}
    {text : String} (note : s.cardNote? card = some text) (target : Target) :
    s.owns target card = false := by
  cases target with
  | movedCard _ => rfl
  | entity url =>
    by_contra own
    obtain ⟨entity, _, belongs⟩ := owns_entity.mp (by simpa using own)
    rw [wellFormed.cardNote?_of_isCardOf belongs] at note
    cases note

/-! ## Places and contents -/

theorem hosts_eq (s : Store) : s.hosts =
    s.boards.flatMap fun board => board.columns.map fun column => (board.id, column.id) := by
  simp [hosts, layout, mapColumns, fill, List.flatMap_map, Function.comp_def]

theorem WellFormed.mem_places {s : Store} (wellFormed : s.WellFormed) {board : BoardId}
    {id : ColumnId} {card : CardId} :
    (board, id, card) ∈ s.places ↔ (board, id) ∈ s.hosts ∧ card ∈ s.cardsIn id := by
  have cards {stored : StoredBoard} {column : StoredColumn} (listed : stored ∈ s.boards)
      (inside : column ∈ stored.columns) : s.cardsIn column.id = column.cards :=
    wellFormed.cardsIn_eq (List.mem_flatMap.mpr ⟨stored, listed, inside⟩)
  rw [s.hosts_eq]
  constructor
  · intro place
    obtain ⟨stored, listed, here⟩ := List.mem_flatMap.mp place
    obtain ⟨column, inside, there⟩ := List.mem_flatMap.mp here
    obtain ⟨other, member, same⟩ := List.mem_map.mp there
    cases same
    refine ⟨List.mem_flatMap.mpr ⟨stored, listed, List.mem_map_of_mem inside⟩, ?_⟩
    rw [cards listed inside]
    exact member
  · intro found
    obtain ⟨host, member⟩ := found
    obtain ⟨stored, listed, here⟩ := List.mem_flatMap.mp host
    obtain ⟨column, inside, same⟩ := List.mem_map.mp here
    cases same
    rw [cards listed inside] at member
    exact List.mem_flatMap.mpr ⟨stored, listed, List.mem_flatMap.mpr
      ⟨column, inside, List.mem_map_of_mem member⟩⟩

/-- A card lies in one place only. -/
theorem WellFormed.place_unique {s : Store} (wellFormed : s.WellFormed) {board board' : BoardId}
    {id id' : ColumnId} {card : CardId} (first : (board, id, card) ∈ s.places)
    (second : (board', id', card) ∈ s.places) : board = board' ∧ id = id' := by
  obtain ⟨here, there, single⟩ := wellFormed.places_of_known (wellFormed.known_place first)
  have same {place : BoardId × ColumnId × CardId} (listed : place ∈ s.places)
      (placed : place.2.2 = card) : place = (here, there, card) := by
    have member : place ∈ s.places.filter fun place => place.2.2 = card :=
      List.mem_filter.mpr ⟨listed, decide_eq_true placed⟩
    rw [single] at member
    exact List.mem_singleton.mp member
  cases same first rfl
  cases same second rfl
  exact ⟨rfl, rfl⟩

theorem WellFormed.place_of_known {s : Store} (wellFormed : s.WellFormed) {card : CardId}
    (known : (s.card? card).isSome) : ∃ board id, (board, id, card) ∈ s.places := by
  obtain ⟨board, id, single⟩ := wellFormed.places_of_known known
  refine ⟨board, id, List.mem_of_mem_filter (p := fun place => place.2.2 = card) ?_⟩
  rw [single]
  exact List.mem_singleton_self _

/-- A rule of a board is in one of its columns. -/
theorem host_of_extracted {s : Store} {board : StoredBoard} (stored : board ∈ s.boards)
    {rule : PlacedRule} (extracted : rule ∈ PlacedRule.ofBoards [s.boardView board]) :
    (board.id, rule.column.id) ∈ s.hosts := by
  have views : PlacedRule.ofBoards [s.boardView board] =
      PlacedRule.ofColumns [] ((board.columns.take maxColumns).map s.columnView) :=
    congrArg (PlacedRule.ofColumns []) (List.append_nil _)
  rw [views] at extracted
  obtain ⟨column, member, here, _⟩ := column_of_extracted extracted
  rw [hosts_eq, here]
  exact List.mem_flatMap.mpr
    ⟨board, stored, List.mem_map.mpr ⟨column, List.mem_of_mem_take member, rfl⟩⟩

theorem card?_of_longer {s t : Store} (longer : s.cards <+: t.cards) {card : CardId}
    (known : (s.card? card).isSome) : t.card? card = s.card? card := by
  obtain ⟨stored, found⟩ := Option.isSome_iff_exists.mp known
  obtain ⟨added, split⟩ := longer
  unfold card? at found ⊢
  rw [← split, List.find?_append, found]
  rfl

/-- What holds only of cards of another kind is the same in the same order, too. -/
theorem filter_eq_of_imp {p q : CardId → Bool} {cards others : List CardId}
    (stronger : ∀ card, q card = true → p card = true) (same : cards.filter p = others.filter p) :
    cards.filter q = others.filter q := by
  have twice (cards : List CardId) : (cards.filter p).filter q = cards.filter q := by
    rw [List.filter_filter]
    apply List.filter_congr
    intro card _
    cases holds : q card with
    | false => rfl
    | true => rw [stronger card holds]; rfl
  rw [← twice cards, same, twice]

/-- To insert a card does not change the order of others. -/
theorem filter_insertAt {p : CardId → Bool} {card : CardId} (unmarked : p card = false)
    {after : Option CardId} {cards placed : List CardId}
    (inserted : insertAt card after cards = some placed) : placed.filter p = cards.filter p := by
  have skips (rest : List CardId) : (card :: rest).filter p = rest.filter p :=
    List.filter_cons_of_neg (by simp [unmarked])
  cases after with
  | none =>
    cases inserted
    exact skips cards
  | some anchor =>
    change insertBehind card anchor cards = some placed at inserted
    induction cards generalizing placed with
    | nil => cases inserted
    | cons c cards others =>
      unfold insertBehind at inserted
      split at inserted
      · cases inserted
        rw [List.filter_cons, skips, List.filter_cons]
      · obtain ⟨rest, found, rfl⟩ := Option.map_eq_some_iff.mp inserted
        rw [List.filter_cons, List.filter_cons, others found]

theorem closeEntity_closeEntity (issue : EntityId) (entity : StoredEntity) :
    closeEntity issue (closeEntity issue entity) = closeEntity issue entity := by
  unfold closeEntity
  split <;> simp_all

theorem linkedEntity?_congr {s t : Store} (cards : t.cards = s.cards)
    (entities : t.entities = s.entities) : t.linkedEntity? = s.linkedEntity? := by
  funext card
  unfold linkedEntity? card? entityById?
  rw [cards, entities]

/-! ## Frames -/

namespace Frame

variable {s t u : Store} {target : Target} {rules : List CardId}

theorem refl (wellFormed : s.WellFormed) (target : Target) : Frame s target [] s where
  wellFormed := wellFormed
  layout := rfl
  cards := List.prefix_refl _
  added _ _ := rfl
  reviews := rfl
  entities := .inl rfl
  foreign := by simp
  order _ := rfl
  column _ _ inside _ := inside
  board _ id _ place := ⟨id, place⟩

/-- Another rule may fire that is not on a card of the entity. -/
theorem fire (frame : Frame s target rules t) {card : CardId} (foreign : s.owns target card = false) :
    Frame s target (rules ++ [card]) t where
  __ := frame
  foreign other member := by
    rcases List.mem_append.mp member with earlier | latest
    · exact frame.foreign other earlier
    · rw [List.mem_singleton.mp latest]
      exact foreign
  order id := by
    refine filter_eq_of_imp ?_ (frame.order id)
    intro other spared
    unfold spares at spared ⊢
    simp only [Bool.and_eq_true, decide_eq_true_eq, List.mem_append, not_or] at spared ⊢
    exact ⟨spared.1, spared.2.1⟩

theorem failNextReads (frame : Frame s target rules t) (n : Nat) :
    Frame s target rules (t.failNextReads n) where
  wellFormed := frame.wellFormed.perform (.failNextReads n)
  layout := frame.layout
  cards := frame.cards
  added := frame.added
  reviews := frame.reviews
  entities := frame.entities
  foreign := frame.foreign
  order := frame.order
  column := frame.column
  board := frame.board

theorem of_failNextReads {n : Nat} (frame : Frame (s.failNextReads n) target rules t) :
    Frame s target rules t :=
  ⟨frame.wellFormed, frame.layout, frame.cards, frame.added, frame.reviews, frame.entities,
    frame.foreign, frame.order, frame.column, frame.board⟩

theorem known (frame : Frame s target rules t) {card : CardId} (known : (s.card? card).isSome) :
    (t.card? card).isSome := by
  rw [card?_of_longer frame.cards known]
  exact known

theorem hosts_eq (frame : Frame s target rules t) : t.hosts = s.hosts := by
  unfold hosts
  rw [frame.layout]

/-- A card that is not known, or has a part in what is done, can be moved. The order of the others
is not touched by that. -/
theorem moveCard (frame : Frame s target rules t) {card : CardId} {column : ColumnId}
    (unspared : s.spares target rules card = false)
    (inside : ∀ id, card ∈ s.cardsIn id → s.owns target card = false → id = column)
    (nearby : ∀ board id, (board, id, card) ∈ s.places → (board, column) ∈ s.hosts)
    (after : Option CardId) : Frame s target rules (t.moveCard card column after).2 := by
  have wellFormed := frame.wellFormed.moveCard card column after
  rcases result : t.moveCard card column after with ⟨error | _, t'⟩ <;> rw [result] at wellFormed
  · rw [moveCard_error result]
    exact frame
  · obtain ⟨placed, inserted, contents, layout, whole⟩ := moveCard_ok result
    have arrived : card ∈ t'.cardsIn column := by
      rw [contents, if_pos rfl, (insertAt_perm inserted).mem_iff]
      exact List.mem_cons_self
    have others {other : CardId} {id : ColumnId} (there : other ∈ t.cardsIn id)
        (different : other ≠ card) : other ∈ t'.cardsIn id := by
      have remains : other ∈ (t.cardsIn id).filter (· ≠ card) :=
        List.mem_filter.mpr ⟨there, by simpa using different⟩
      rw [contents]
      split
      · rename_i here
        rw [here] at remains
        rw [(insertAt_perm inserted).mem_iff]
        exact List.mem_cons_of_mem card remains
      · exact remains
    refine ⟨wellFormed, layout.trans frame.layout, ?_, ?_, ?_, ?_, frame.foreign, ?_, ?_, ?_⟩
    · rw [whole]
      exact frame.cards
    · rw [whole]
      exact frame.added
    · rw [whole]
      exact frame.reviews
    · rw [whole]
      exact frame.entities
    · intro id
      rw [← frame.order id, contents id]
      split
      · rename_i here
        rw [here, filter_insertAt unspared inserted]
        exact filter_filter_ne _ unspared
      · exact filter_filter_ne _ unspared
    · intro id other there foreign
      by_cases same : other = card
      · subst same
        rw [inside id there foreign]
        exact arrived
      · exact others (frame.column id other there foreign) same
    · intro board id other place
      by_cases same : other = card
      · subst same
        refine ⟨column, wellFormed.mem_places.mpr ⟨?_, arrived⟩⟩
        unfold hosts
        rw [layout, frame.layout]
        exact nearby board id place
      · obtain ⟨id', there⟩ := frame.board board id other place
        obtain ⟨host, member⟩ := frame.wellFormed.mem_places.mp there
        refine ⟨id', wellFormed.mem_places.mpr ⟨?_, others member same⟩⟩
        unfold hosts
        rw [layout]
        exact host

/-- A new card comes to the top of a column. -/
theorem createCard {url : EntityUrl} (frame : Frame s (.entity url) rules t) (column : ColumnId)
    (content : CardContent) : Frame s (.entity url) rules (t.createCard column content).2 := by
  have wellFormed := frame.wellFormed.createCard column content
  rcases result : t.createCard column content with ⟨error | card, t'⟩ <;> rw [result] at wellFormed
  · -- An id has been used up, which nothing depends on.
    rw [createCard_error result] at wellFormed ⊢
    exact { frame with wellFormed }
  · obtain ⟨rfl, contents, layout, whole⟩ := createCard_ok result
    have unspared : s.spares (.entity url) rules ⟨t.nextId "card"⟩ = false := by
      unfold spares
      cases known : (s.card? ⟨t.nextId "card"⟩).isSome with
      | false => rfl
      | true =>
        have older := frame.known known
        rw [frame.wellFormed.card?_next] at older
        cases older
    have others {other : CardId} {id : ColumnId} (there : other ∈ t.cardsIn id) :
        other ∈ t'.cardsIn id := by
      rw [contents]
      split
      · exact List.mem_cons_of_mem _ there
      · exact there
    refine ⟨wellFormed, layout.trans frame.layout, ?_, ?_, ?_, ?_, frame.foreign, ?_, ?_, ?_⟩
    · rw [whole]
      exact frame.cards.trans (List.prefix_append _ _)
    · intro moved same
      cases same
    · rw [whole]
      exact frame.reviews
    · rw [whole]
      exact frame.entities
    · intro id
      rw [← frame.order id, contents id]
      split
      · exact List.filter_cons_of_neg (by simp [unspared])
      · rfl
    · intro id other there foreign
      exact others (frame.column id other there foreign)
    · intro board id other place
      obtain ⟨id', there⟩ := frame.board board id other place
      obtain ⟨host, member⟩ := frame.wellFormed.mem_places.mp there
      refine ⟨id', wellFormed.mem_places.mpr ⟨?_, others member⟩⟩
      unfold hosts
      rw [layout]
      exact host

theorem closeIssue (frame : Frame s target rules t) {issue : EntityId}
    (linked : s.linkedIssue? target = some issue) : Frame s target rules (t.closeIssue issue).2 := by
  have wellFormed := frame.wellFormed.closeIssue issue
  rcases t.closeIssue_cases issue with ⟨error, failed⟩ | closed
  · rw [failed]
    exact frame
  · rw [closed] at wellFormed ⊢
    refine { frame with wellFormed, entities := .inr ⟨issue, linked, ?_⟩ }
    rcases frame.entities with same | ⟨other, linked', once⟩
    · exact congrArg (List.map (closeEntity issue)) same
    · -- It is the same issue that has been closed before.
      obtain rfl : issue = other := Option.some.inj (linked.symm.trans linked')
      change t.entities.map (closeEntity issue) = _
      rw [once, List.map_map]
      apply List.map_congr_left
      intro entity _
      exact closeEntity_closeEntity issue entity

/-! ## One frame after the other -/

theorem linkedIssue?_eq (frame : Frame s target rules t) :
    t.linkedIssue? target = s.linkedIssue? target := by
  cases target with
  | entity url => rfl
  | movedCard card =>
    unfold linkedIssue?
    dsimp only
    have cards := frame.added card rfl
    rcases frame.entities with same | ⟨issue, _, closed⟩
    · rw [linkedEntity?_congr cards same]
    · have closed' : t.linkedEntity? = linkedEntity? { s with
          entities := s.entities.map (closeEntity issue)
          journal := s.journal } := linkedEntity?_congr cards closed
      rw [closed', linkedEntity?_close, Option.map_map]
      congr 1
      funext other
      rw [Function.comp_apply]
      split <;> rfl

/-- The issue that an event is about is not closed. -/
theorem entities_eq {url : EntityUrl} (frame : Frame s (.entity url) rules t) :
    t.entities = s.entities := by
  rcases frame.entities with same | ⟨issue, linked, _⟩
  · exact same
  · cases linked

/-- The entity of an event has the cards that it had, apart from new ones. -/
theorem owns_eq (frame : Frame s target rules t) {card : CardId} (known : (s.card? card).isSome) :
    t.owns target card = s.owns target card := by
  cases target with
  | movedCard _ => rfl
  | entity url =>
    unfold owns entity? isCardOf
    rw [frame.entities_eq, card?_of_longer frame.cards known]

theorem owns_of_unknown {card : CardId} (unknown : s.card? card = none) :
    s.owns target card = false := by
  cases target with
  | movedCard _ => rfl
  | entity url =>
    unfold owns isCardOf
    rw [unknown]
    simp

theorem trans {others : List CardId} (wellFormed : s.WellFormed) (frame : Frame s target rules t)
    (following : Frame t target others u) : Frame s target (rules ++ others) u where
  wellFormed := following.wellFormed
  layout := following.layout.trans frame.layout
  cards := frame.cards.trans following.cards
  added card same := (following.added card same).trans (frame.added card same)
  reviews := following.reviews.trans frame.reviews
  entities := by
    rcases following.entities with same | ⟨issue, linked, closed⟩
    · rw [same]
      exact frame.entities
    · rw [frame.linkedIssue?_eq] at linked
      refine .inr ⟨issue, linked, closed.trans ?_⟩
      rcases frame.entities with same | ⟨other, linked', once⟩
      · rw [same]
      · obtain rfl : issue = other := Option.some.inj (linked.symm.trans linked')
        rw [once, List.map_map]
        apply List.map_congr_left
        intro entity _
        exact closeEntity_closeEntity issue entity
  foreign card member := by
    rcases List.mem_append.mp member with earlier | later
    · exact frame.foreign card earlier
    · cases known : s.card? card with
      | none => exact owns_of_unknown known
      | some stored =>
        rw [← frame.owns_eq (by rw [known]; rfl)]
        exact following.foreign card later
  order id := by
    have both : ∀ card, s.spares target (rules ++ others) card = true →
        s.spares target rules card = true ∧ t.spares target others card = true := by
      intro card spared
      unfold spares at spared ⊢
      simp only [Bool.and_eq_true, decide_eq_true_eq, List.mem_append, not_or] at spared ⊢
      obtain ⟨⟨known, foreign⟩, early, late⟩ := spared
      refine ⟨⟨⟨known, foreign⟩, early⟩, ⟨frame.known known, ?_⟩, late⟩
      rw [frame.owns_eq known]
      exact foreign
    exact (filter_eq_of_imp (fun card spared => (both card spared).2) (following.order id)).trans
      (filter_eq_of_imp (fun card spared => (both card spared).1) (frame.order id))
  column id card inside foreign := by
    refine following.column id card (frame.column id card inside foreign) ?_
    rw [frame.owns_eq ((wellFormed.known_iff card).mpr ⟨id, inside⟩)]
    exact foreign
  board board id card place := by
    obtain ⟨id', there⟩ := frame.board board id card place
    exact following.board board id' card there

end Frame

end Store

end BoardRules
