import BoardRules.Proofs.Store.Columns
import Mathlib.Data.List.Dedup

/-!
# Reachable stores are well formed

Whatever is asked of the store, in whatever order: ids are given out once, every card that is known
lies in one place of one column, and it has a note or stands for an entity, not both. The table of
cards has room for either beside the other, so the last is a matter of who writes into it.
-/
namespace BoardRules

theorem CardContent.single (content : CardContent) :
    content.note?.isSome = !content.entity?.isSome := by cases content <;> rfl

/-- Everything that can be asked of the store. -/
inductive Operation where
  | addBoard (scope : BoardScope) (name : String)
  | addColumn (board : BoardId) (name : String)
  | addEntity (url : EntityUrl)
  | setBody (url : EntityUrl) (body : String)
  | appendCard (column : ColumnId) (content : CardContent)
  | addReview (pullRequest : Locator) (review : Review)
  | failNextReads (count : Nat)
  | call (call : Call)

namespace Store

def perform (s : Store) : Operation → Store
  | .addBoard scope name => (s.addBoard scope name).2
  | .addColumn board name => (s.addColumn board name).2
  | .addEntity url => (s.addEntity url).2
  | .setBody url body => (s.setBody url body).2
  | .appendCard column content => (s.appendCard column content).2
  | .addReview pullRequest review => s.addReview pullRequest review
  | .failNextReads count => s.failNextReads count
  | .call call => (service call s).2

/-- The stores that operations make of the empty one. -/
inductive Reachable : Store → Prop where
  | empty : Reachable empty
  | perform (s : Store) (operation : Operation) :
      Reachable s → Reachable (s.perform operation)

theorem Reachable.foldl (operations : List Operation) (s : Store) (reachable : Reachable s) :
    Reachable (operations.foldl Store.perform s) := by
  induction operations generalizing s with
  | nil => exact reachable
  | cons operation operations others => exact others _ (reachable.perform s operation)

/-- A dialogue asks the store for nothing but calls, so it stays among the reachable stores. -/
theorem Reachable.run {α : Type} (d : Dialogue α) (s : Store) (reachable : Reachable s) :
    Reachable (d.run service s).2 := by
  induction d generalizing s with
  | done value => exact reachable
  | ask call next others => exact others _ _ (reachable.perform s (.call call))

/-! ## Ids -/

/-- The id with the given number. -/
def idText (kind : String) (n : Nat) : String :=
  kind ++ "-" ++ String.ofList (Text.Decimal.render n)

theorem idText_inj {kind : String} {m n : Nat} (same : idText kind m = idText kind n) : m = n := by
  have digits : Nat.toDigits 10 m = Nat.toDigits 10 n := by
    unfold idText at same
    have lists := congrArg String.toList same
    simpa [Text.Decimal.render] using lists
  have values := congrArg (fun digits => Nat.ofDigitChars 10 digits 0) digits
  simpa using values

/-- Distinct ids of one kind, all with numbers up to `last`. -/
structure Issued (last : Nat) (kind : String) (ids : List String) : Prop where
  nodup : ids.Nodup
  numbered : ∀ id ∈ ids, ∃ n ≤ last, id = idText kind n

namespace Issued

variable {last : Nat} {kind : String} {ids : List String}

theorem mono {later : Nat} (issued : Issued last kind ids) (grown : last ≤ later) :
    Issued later kind ids := by
  refine ⟨issued.nodup, ?_⟩
  intro id member
  obtain ⟨n, bound, rfl⟩ := issued.numbered id member
  exact ⟨n, Nat.le_trans bound grown, rfl⟩

theorem fresh (issued : Issued last kind ids) : idText kind (last + 1) ∉ ids := by
  intro member
  obtain ⟨n, bound, same⟩ := issued.numbered _ member
  have equal := idText_inj same
  omega

theorem cons_next (issued : Issued last kind ids) :
    Issued (last + 1) kind (idText kind (last + 1) :: ids) := by
  refine ⟨List.nodup_cons.mpr ⟨issued.fresh, issued.nodup⟩, ?_⟩
  intro id member
  rcases List.mem_cons.mp member with rfl | older
  · exact ⟨last + 1, Nat.le_refl _, rfl⟩
  · exact (issued.mono (Nat.le_succ last)).numbered id older

theorem perm {others : List String} (issued : Issued last kind ids) (same : others.Perm ids) :
    Issued last kind others :=
  ⟨same.nodup_iff.mpr issued.nodup, fun id member => issued.numbered id (same.mem_iff.mp member)⟩

theorem sublist {others : List String} (issued : Issued last kind ids) (fewer : others.Sublist ids) :
    Issued last kind others :=
  ⟨fewer.nodup issued.nodup, fun id member => issued.numbered id (fewer.subset member)⟩

end Issued

/-! ## The invariant -/

/-- All places of all columns. -/
def placedCards (s : Store) : List CardId := s.columns.flatMap (·.cards)

theorem column?_some {s : Store} {id : ColumnId} {column : StoredColumn}
    (there : s.column? id = some column) : column ∈ s.columns ∧ column.id = id :=
  ⟨List.mem_of_find?_eq_some there, by simpa using List.find?_some there⟩

theorem card?_some {s : Store} {id : CardId} {card : StoredCard} (known : s.card? id = some card) :
    card ∈ s.cards ∧ card.id = id :=
  ⟨List.mem_of_find?_eq_some known, by simpa using List.find?_some known⟩

structure WellFormed (s : Store) : Prop where
  boards : Issued s.lastId "board" (s.boards.map (·.id.text))
  columns : Issued s.lastId "column" (s.columns.map (·.id.text))
  cards : Issued s.lastId "card" (s.cards.map (·.id.text))
  entities : Issued s.lastId "entity" (s.entities.map (·.id.text))
  /-- Every known card lies in exactly one place, and nothing else does. -/
  placed : s.placedCards.Perm (s.cards.map (·.id))
  /-- A card either has a note or stands for an entity. -/
  contents : ∀ card ∈ s.cards, card.note.isSome = !card.entity.isSome

theorem wellFormed_empty : empty.WellFormed :=
  ⟨⟨List.nodup_nil, by simp [empty]⟩, ⟨List.nodup_nil, by simp [empty, columns]⟩,
    ⟨List.nodup_nil, by simp [empty]⟩, ⟨List.nodup_nil, by simp [empty]⟩, List.Perm.refl _,
    nofun⟩

/-- An element is found by its key if no other element has it. -/
theorem find?_key {α κ : Type} [DecidableEq κ] {items : List α} {key : α → κ}
    (unique : (items.map key).Nodup) {item : α} (member : item ∈ items) :
    (items.find? fun other => key other = key item) = some item := by
  induction items with
  | nil => cases member
  | cons head tail others =>
    rw [List.map_cons, List.nodup_cons] at unique
    rcases List.mem_cons.mp member with rfl | later
    · exact List.find?_cons_of_pos (by simp)
    · have different : key head ≠ key item := by
        intro same
        exact unique.1 (same ▸ List.mem_map_of_mem later)
      rw [List.find?_cons_of_neg (by simpa using different)]
      exact others unique.2 later

/-- If just the element with one key grows, so does the list of all contents. -/
theorem perm_flatMap_update {α β κ : Type} [DecidableEq κ] {items : List α} {key : α → κ}
    (unique : (items.map key).Nodup) {item : α} (member : item ∈ items) (change : α → α)
    (contents : α → List β) (added : List β)
    (grown : (contents (change item)).Perm (added ++ contents item)) :
    ((items.map fun other => if key other = key item then change other else other).flatMap
      contents).Perm (added ++ items.flatMap contents) := by
  induction items with
  | nil => cases member
  | cons head tail others =>
    rw [List.map_cons, List.nodup_cons] at unique
    rw [List.map_cons, List.flatMap_cons, List.flatMap_cons]
    by_cases here : key head = key item
    · have same : head = item := by
        rcases List.mem_cons.mp member with rfl | later
        · rfl
        · exact absurd (here ▸ List.mem_map_of_mem later) unique.1
      have rest : (tail.map fun other => if key other = key item then change other else other) =
          tail := by
        refine (List.map_congr_left (g := id) ?_).trans (List.map_id tail)
        intro other later
        apply if_neg
        intro equal
        have again : key other ∈ tail.map key := List.mem_map_of_mem later
        rw [equal, ← here] at again
        exact unique.1 again
      subst same
      rw [if_pos rfl, rest, ← List.append_assoc]
      exact grown.append_right _
    · have later : item ∈ tail := by
        rcases List.mem_cons.mp member with rfl | later
        · exact absurd rfl here
        · exact later
      rw [if_neg here]
      apply ((others unique.2 later).append_left _).trans
      rw [← List.append_assoc, ← List.append_assoc]
      exact List.perm_append_comm.append_right _

namespace WellFormed

variable {s : Store}

theorem boardIds (wellFormed : s.WellFormed) : (s.boards.map (·.id)).Nodup := by
  apply List.Nodup.of_map BoardId.text
  rw [List.map_map]
  exact wellFormed.boards.nodup

theorem columnIds (wellFormed : s.WellFormed) : (s.columns.map (·.id)).Nodup := by
  apply List.Nodup.of_map ColumnId.text
  rw [List.map_map]
  exact wellFormed.columns.nodup

theorem cardIds (wellFormed : s.WellFormed) : (s.cards.map (·.id)).Nodup := by
  apply List.Nodup.of_map CardId.text
  rw [List.map_map]
  exact wellFormed.cards.nodup

theorem placedCards_nodup (wellFormed : s.WellFormed) : s.placedCards.Nodup :=
  wellFormed.placed.nodup_iff.mpr wellFormed.cardIds

/-- The column with an id is found by it. -/
theorem column?_eq (wellFormed : s.WellFormed) {column : StoredColumn} (member : column ∈ s.columns) :
    s.column? column.id = some column :=
  find?_key wellFormed.columnIds member

/-! ### Each operation -/

theorem countId (wellFormed : s.WellFormed) : s.countId.WellFormed :=
  ⟨wellFormed.boards.mono (Nat.le_succ _), wellFormed.columns.mono (Nat.le_succ _),
    wellFormed.cards.mono (Nat.le_succ _), wellFormed.entities.mono (Nat.le_succ _),
    wellFormed.placed, wellFormed.contents⟩

theorem addBoard (wellFormed : s.WellFormed) (scope : BoardScope) (name : String) :
    (s.addBoard scope name).2.WellFormed := by
  have counted := wellFormed.countId
  have same : (s.addBoard scope name).2.columns = s.columns := by
    simp [Store.addBoard, Store.columns, Store.countId]
  refine ⟨?_, ?_, counted.cards, counted.entities, ?_, counted.contents⟩
  · apply wellFormed.boards.cons_next.perm
    simp only [Store.addBoard, List.map_append, List.map_cons, List.map_nil]
    exact List.perm_append_singleton _ _
  · rw [same]
    exact counted.columns
  · unfold placedCards
    rw [same]
    exact wellFormed.placed

theorem addColumn (wellFormed : s.WellFormed) (board : BoardId) (name : String) :
    (s.addColumn board name).2.WellFormed := by
  have counted := wellFormed.countId
  unfold Store.addColumn
  split
  · rename_i exists_
    obtain ⟨stored, member, here⟩ := List.any_eq_true.mp exists_
    have named : stored.id = board := by simpa using here
    subst named
    let added : StoredColumn := ⟨⟨s.nextId "column"⟩, name, []⟩
    have columnsPerm : (Store.columns { s.countId with
        boards := s.boards.map fun other =>
          if other.id = stored.id then { other with columns := other.columns ++ [added] }
          else other }).Perm (added :: s.columns) :=
      perm_flatMap_update wellFormed.boardIds member
        (fun other => { other with columns := other.columns ++ [added] }) (·.columns) [added]
        List.perm_append_comm
    refine ⟨?_, ?_, counted.cards, counted.entities, ?_, counted.contents⟩
    · have same : ((s.boards.map fun other =>
          if other.id = stored.id then { other with columns := other.columns ++ [added] }
          else other).map (·.id.text)) = s.boards.map (·.id.text) := by
        rw [List.map_map]
        apply List.map_congr_left
        intro other _
        change (if other.id = stored.id then _ else other).id.text = other.id.text
        split <;> rfl
      have issued := counted.boards
      change Issued _ "board" (s.boards.map (·.id.text)) at issued
      rw [← same] at issued
      exact issued
    · exact wellFormed.columns.cons_next.perm (columnsPerm.map _)
    · exact (columnsPerm.flatMap_right _).trans wellFormed.placed
  · exact counted

theorem addEntity (wellFormed : s.WellFormed) (url : EntityUrl) :
    (s.addEntity url).2.WellFormed := by
  have counted := wellFormed.countId
  refine ⟨counted.boards, counted.columns, counted.cards, ?_, counted.placed, counted.contents⟩
  have fewer : ((s.entities.filter fun entity => entity.key ≠ url.entityKey).map (·.id.text)).Sublist
      (s.entities.map (·.id.text)) := List.filter_sublist.map _
  apply (wellFormed.entities.sublist fewer).cons_next.perm
  simp only [Store.addEntity, List.map_append, List.map_cons, List.map_nil]
  exact List.perm_append_singleton _ _

/-- Changes of entities that leave their ids alone. -/
theorem mapEntities (wellFormed : s.WellFormed) (change : StoredEntity → StoredEntity)
    (same : ∀ entity, (change entity).id = entity.id) (journal : List Mutation) :
    ({ s with entities := s.entities.map change, journal := journal } : Store).WellFormed := by
  refine ⟨wellFormed.boards, wellFormed.columns, wellFormed.cards, ?_, wellFormed.placed,
    wellFormed.contents⟩
  have ids : (s.entities.map change).map (·.id.text) = s.entities.map (·.id.text) := by
    rw [List.map_map]
    apply List.map_congr_left
    intro entity _
    exact congrArg EntityId.text (same entity)
  have issued := wellFormed.entities
  rw [← ids] at issued
  exact issued

theorem setBody (wellFormed : s.WellFormed) (url : EntityUrl) (body : String) :
    (s.setBody url body).2.WellFormed := by
  unfold Store.setBody
  split
  · exact wellFormed
  · refine wellFormed.mapEntities _ ?_ s.journal
    intro entity
    split <;> rfl

theorem closeIssue (wellFormed : s.WellFormed) (id : EntityId) :
    (s.closeIssue id).2.WellFormed := by
  rcases s.closeIssue_cases id with ⟨error, failed⟩ | closed
  · rw [failed]
    exact wellFormed
  · rw [closed]
    refine wellFormed.mapEntities _ ?_ _
    intro entity
    unfold closeEntity
    split <;> rfl

/-- Columns that keep their ids and hold the known cards. -/
theorem mapColumns (wellFormed : s.WellFormed) (change : StoredColumn → StoredColumn)
    (same : ∀ column, (change column).id = column.id) (cards : List StoredCard)
    (issued : Issued s.lastId "card" (cards.map (·.id.text)))
    (placed : ((s.columns.map change).flatMap (·.cards)).Perm (cards.map (·.id)))
    (contents : ∀ card ∈ cards, card.note.isSome = !card.entity.isSome)
    (journal : List Mutation) :
    ({ s.mapColumns change with cards := cards, journal := journal } : Store).WellFormed := by
  refine ⟨?_, ?_, issued, wellFormed.entities, ?_, contents⟩
  · have ids : (s.mapColumns change).boards.map (·.id.text) = s.boards.map (·.id.text) := by
      unfold Store.mapColumns
      rw [List.map_map]
      rfl
    have issued := wellFormed.boards
    rw [← ids] at issued
    exact issued
  · have ids : (s.mapColumns change).columns.map (·.id.text) = s.columns.map (·.id.text) := by
      rw [columns_mapColumns, List.map_map]
      apply List.map_congr_left
      intro column _
      exact congrArg ColumnId.text (same column)
    have issued := wellFormed.columns
    rw [← ids] at issued
    exact issued
  · have here := placed
    rw [← columns_mapColumns] at here
    exact here

/-- Whoever makes a card gives it a note or an entity, not both. -/
theorem makeCard (wellFormed : s.WellFormed) (column : ColumnId) {note : Option String}
    {entity : Option EntityId} (single : note.isSome = !entity.isSome)
    (insert : CardId → List CardId → List CardId)
    (inserts : ∀ card cards, (insert card cards).Perm (card :: cards)) :
    (s.makeCard column note entity insert).2.WellFormed := by
  have counted := wellFormed.countId
  rcases s.makeCard_cases column note entity insert with ⟨error, failed⟩ | ⟨target, there, made⟩
  · rw [failed]
    exact counted
  · rw [made]
    obtain ⟨member, rfl⟩ := column?_some there
    have grown : ((s.columns.map (place target.id (insert ⟨s.nextId "card"⟩))).flatMap
        (·.cards)).Perm (⟨s.nextId "card"⟩ :: s.placedCards) :=
      perm_flatMap_update wellFormed.columnIds member
        (fun column => { column with cards := insert ⟨s.nextId "card"⟩ column.cards }) (·.cards)
        [⟨s.nextId "card"⟩] (inserts _ _)
    refine counted.mapColumns _ ?_ _ ?_ ?_ ?_ s.journal
    · intro column
      unfold place
      split <;> rfl
    · apply wellFormed.cards.cons_next.perm
      rw [List.map_append]
      exact List.perm_append_singleton _ _
    · refine grown.trans ((wellFormed.placed.cons _).trans ?_)
      rw [List.map_append]
      exact (List.perm_append_singleton _ _).symm
    · exact List.forall_mem_append.mpr ⟨wellFormed.contents, by simpa using single⟩

theorem moveCard (wellFormed : s.WellFormed) (card : CardId) (column : ColumnId)
    (after : Option CardId) : (s.moveCard card column after).2.WellFormed := by
  rcases s.moveCard_cases card column after with
    ⟨error, failed⟩ | ⟨stored, target, cards, known, there, inserted, moved⟩
  · rw [failed]
    exact wellFormed
  · rw [moved]
    obtain ⟨member, rfl⟩ := column?_some there
    obtain ⟨listed, rfl⟩ := card?_some known
    refine wellFormed.mapColumns (arrange stored.id target.id cards) (fun _ => rfl) s.cards
      wellFormed.cards ?_ wellFormed.contents _
    -- The card is taken out everywhere first, then the target gets it back.
    have unique : ((s.columns.map (without stored.id)).map (·.id)).Nodup := by
      rw [List.map_map]
      exact wellFormed.columnIds
    have grown := perm_flatMap_update unique (List.mem_map_of_mem member)
      (fun column => { column with cards := cards }) (·.cards) [stored.id] (insertAt_perm inserted)
    have same : (s.columns.map (arrange stored.id target.id cards)) =
        (s.columns.map (without stored.id)).map fun column =>
          if column.id = (without stored.id target).id then { column with cards := cards }
          else column := by
      rw [List.map_map]
      apply List.map_congr_left
      intro column _
      change arrange _ _ _ column = if column.id = target.id then _ else _
      unfold arrange
      split <;> rfl
    rw [same]
    refine grown.trans (List.Perm.trans ?_ wellFormed.placed)
    have filtered : (s.columns.map (without stored.id)).flatMap (·.cards) =
        s.placedCards.filter (· ≠ stored.id) := by
      rw [List.flatMap_map]
      exact List.filter_flatMap.symm
    have placed : stored.id ∈ s.placedCards :=
      wellFormed.placed.mem_iff.mpr (List.mem_map_of_mem listed)
    rw [filtered]
    exact cons_filter_ne_perm wellFormed.placedCards_nodup placed

theorem read (wellFormed : s.WellFormed) {α : Type} (look : Store → Except TrackingError α) :
    (s.read look).2.WellFormed := by
  rcases s.read_cases look with ⟨_, answered⟩ | ⟨n, _, failed⟩
  · rw [answered]
    exact wellFormed
  · rw [failed]
    exact ⟨wellFormed.boards, wellFormed.columns, wellFormed.cards, wellFormed.entities,
      wellFormed.placed, wellFormed.contents⟩

theorem createCard (wellFormed : s.WellFormed) (column : ColumnId) (content : CardContent) :
    (s.createCard column content).2.WellFormed := by
  have made := wellFormed.makeCard column content.single (fun id cards => id :: cards)
    fun _ _ => List.Perm.refl _
  unfold Store.createCard
  split
  · rename_i id reached result
    rw [result] at made
    exact ⟨made.boards, made.columns, made.cards, made.entities, made.placed, made.contents⟩
  · rename_i error reached result
    rw [result] at made
    exact made

theorem service (wellFormed : s.WellFormed) (call : Call) : (Store.service call s).2.WellFormed := by
  cases call with
  | boardsForEntity url => exact wellFormed.read _
  | cardContext card => exact wellFormed.read _
  | cardMemberships url => exact wellFormed.read _
  | pullRequestBody url => exact wellFormed.read _
  | reviews pullRequest => exact wellFormed.read _
  | createCard column content => exact wellFormed.createCard column content
  | moveCard card column after => exact wellFormed.moveCard card column after
  | closeIssue entity => exact wellFormed.closeIssue entity

theorem perform (wellFormed : s.WellFormed) (operation : Operation) :
    (s.perform operation).WellFormed := by
  cases operation with
  | addBoard scope name => exact wellFormed.addBoard scope name
  | addColumn board name => exact wellFormed.addColumn board name
  | addEntity url => exact wellFormed.addEntity url
  | setBody url body => exact wellFormed.setBody url body
  | appendCard column content =>
    exact wellFormed.makeCard column content.single _ fun _ _ => List.perm_append_singleton _ _
  | addReview pullRequest review =>
    exact ⟨wellFormed.boards, wellFormed.columns, wellFormed.cards, wellFormed.entities,
      wellFormed.placed, wellFormed.contents⟩
  | failNextReads count =>
    exact ⟨wellFormed.boards, wellFormed.columns, wellFormed.cards, wellFormed.entities,
      wellFormed.placed, wellFormed.contents⟩
  | call call => exact wellFormed.service call

end WellFormed

/-- The invariant of every run of operations. -/
theorem Reachable.wellFormed {s : Store} (reachable : Reachable s) : s.WellFormed := by
  induction reachable with
  | empty => exact wellFormed_empty
  | perform s operation _ before => exact before.perform operation

end Store

end BoardRules
