import BoardRules.Proofs.Store.Contents
import Mathlib.Data.List.Count

/-!
# Consistent stores

After any run of operations the tables of the store agree: ids are unique, every known card lies in
one place and has a note or an entity but not both, and it makes no difference in which order a table
is searched. Cards are only ever added
by the operations that answer with a new card. Dialogues that are held with the store at the same
time come to such a run, whatever the order in which their calls are answered.
-/
namespace BoardRules

namespace Store

/-- Every place of every column, with the board and the column that it belongs to. -/
def places (s : Store) : List (BoardId × ColumnId × CardId) :=
  s.boards.flatMap fun board => board.columns.flatMap fun column =>
    column.cards.map fun card => (board.id, column.id, card)

structure Consistent (s : Store) : Prop where
  boardIds : (s.boards.map (·.id)).Nodup
  columnIds : (s.columns.map (·.id)).Nodup
  cardIds : (s.cards.map (·.id)).Nodup
  entityIds : (s.entities.map (·.id)).Nodup
  entityKeys : (s.entities.map (·.key)).Nodup
  /-- A known card lies in one column of one board, and there once. -/
  placed : ∀ card, (s.card? card).isSome → ∃ board column,
    s.places.filter (fun place => place.2.2 = card) = [(board, column, card)]
  /-- Only known cards lie in columns. -/
  known : ∀ place ∈ s.places, (s.card? place.2.2).isSome
  /-- A card either has a note or stands for an entity. -/
  contents : ∀ card ∈ s.cards, card.note.isSome = !card.entity.isSome

/-! ## Places -/

theorem map_places (s : Store) : s.places.map (·.2.2) = s.placedCards := by
  simp [places, placedCards, columns, List.map_flatMap, List.flatMap_assoc, Function.comp_def]

theorem WellFormed.known_place {s : Store} (wellFormed : s.WellFormed)
    {place : BoardId × ColumnId × CardId} (member : place ∈ s.places) :
    (s.card? place.2.2).isSome := by
  have placed : place.2.2 ∈ s.placedCards := s.map_places ▸ List.mem_map_of_mem member
  obtain ⟨column, listed, inside⟩ := List.mem_flatMap.mp placed
  exact (wellFormed.known_iff _).mpr ⟨column.id, by rwa [wellFormed.cardsIn_eq listed]⟩

theorem WellFormed.places_of_known {s : Store} (wellFormed : s.WellFormed) {card : CardId}
    (known : (s.card? card).isSome) :
    ∃ board column, s.places.filter (fun place => place.2.2 = card) = [(board, column, card)] := by
  obtain ⟨stored, found⟩ := Option.isSome_iff_exists.mp known
  obtain ⟨listed, rfl⟩ := card?_some found
  have placed : stored.id ∈ s.placedCards :=
    wellFormed.placed.mem_iff.mpr (List.mem_map_of_mem listed)
  have once := List.count_eq_one_of_mem wellFormed.placedCards_nodup placed
  -- A card that is counted once has a list of one as its places.
  rw [← s.map_places, List.count_eq_countP, List.countP_map, List.countP_eq_length_filter] at once
  obtain ⟨place, single⟩ := List.length_eq_one_iff.mp once
  have here : place ∈ s.places ∧ place.2.2 = stored.id := by
    have member : place ∈ [place] := List.mem_singleton_self place
    rw [← single] at member
    simpa using member
  refine ⟨place.1, place.2.1, ?_⟩
  rw [show (place.1, place.2.1, stored.id) = place by rw [← here.2]]
  simpa [Function.comp_def, Bool.beq_eq_decide_eq] using single

/-! ## Tables -/

/-- The card that an operation answers with, if it makes one. -/
def madeBy (s : Store) : Operation → Option CardId
  | .appendCard column content => (s.appendCard column content).1.toOption
  | .call (.createCard column content) => (s.createCard column content).1.toOption
  | _ => none

/-- The cards that operations make one after the other. -/
def madeCards (s : Store) : List Operation → List CardId
  | [] => []
  | operation :: rest => (s.madeBy operation).toList ++ (s.perform operation).madeCards rest

/-- What became of the tables: cards have been added, and entities have changed under their keys. -/
structure Grown (s : Store) (made : Option CardId) (s' : Store) : Prop where
  cards : s'.cards.map (·.id) = s.cards.map (·.id) ++ made.toList
  entities : ∃ change : StoredEntity → StoredEntity, (∀ entity, (change entity).key = entity.key) ∧
    s'.entities = s.entities.map change

namespace Grown

theorem of_same {s s' : Store} (cards : s'.cards = s.cards) (entities : s'.entities = s.entities) :
    Grown s none s' :=
  ⟨by simp [cards], id, fun _ => rfl, by simp [entities]⟩

theorem read {α : Type} (s : Store) (look : Store → Except TrackingError α) :
    Grown s none (s.read look).2 := by
  rcases s.read_cases look with ⟨_, answered⟩ | ⟨_, _, failed⟩
  · exact of_same (by rw [answered]) (by rw [answered])
  · exact of_same (by rw [failed]) (by rw [failed])

theorem makeCard (s : Store) (column : ColumnId) (note : Option String) (entity : Option EntityId)
    (insert : CardId → List CardId → List CardId) :
    Grown s (s.makeCard column note entity insert).1.toOption
      (s.makeCard column note entity insert).2 := by
  rcases s.makeCard_cases column note entity insert with ⟨error, failed⟩ | ⟨_, _, made⟩
  · rw [failed]
    exact of_same rfl rfl
  · rw [made]
    exact ⟨by simp [Except.toOption], id, fun _ => rfl, (List.map_id _).symm⟩

theorem createCard (s : Store) (column : ColumnId) (content : CardContent) :
    Grown s (s.createCard column content).1.toOption (s.createCard column content).2 := by
  rcases s.createCard_cases column content with ⟨error, failed⟩ | ⟨_, _, made⟩
  · rw [failed]
    exact of_same rfl rfl
  · rw [made]
    exact ⟨by simp [Except.toOption], id, fun _ => rfl, (List.map_id _).symm⟩

theorem moveCard (s : Store) (card : CardId) (column : ColumnId) (after : Option CardId) :
    Grown s none (s.moveCard card column after).2 := by
  rcases s.moveCard_cases card column after with ⟨error, failed⟩ | ⟨_, _, _, _, _, _, moved⟩
  · rw [failed]
    exact of_same rfl rfl
  · rw [moved]
    exact of_same rfl rfl

theorem closeIssue (s : Store) (id : EntityId) : Grown s none (s.closeIssue id).2 := by
  rcases s.closeIssue_cases id with ⟨error, failed⟩ | closed
  · rw [failed]
    exact of_same rfl rfl
  · rw [closed]
    refine ⟨by simp, closeEntity id, ?_, rfl⟩
    intro entity
    unfold closeEntity
    split <;> rfl

/-- Only a new entity takes the place of one that has the same key. -/
theorem perform (s : Store) (operation : Operation) (other : ∀ url, operation ≠ .addEntity url) :
    Grown s (s.madeBy operation) (s.perform operation) := by
  cases operation with
  | addBoard scope name => exact of_same rfl rfl
  | addColumn board name =>
    simp only [Store.perform, addColumn]
    split <;> exact of_same rfl rfl
  | addEntity url => exact absurd rfl (other url)
  | setBody url body =>
    simp only [Store.perform, setBody]
    split
    · exact of_same rfl rfl
    · exact ⟨by simp [madeBy], _, fun entity => by split <;> rfl, rfl⟩
  | appendCard column content => exact makeCard s column content.note? content.entity? _
  | addReview pullRequest review => exact of_same rfl rfl
  | failNextReads count => exact of_same rfl rfl
  | call call =>
    cases call with
    | boardsForEntity | cardContext | cardMemberships | pullRequestBody | reviews => exact read s _
    | createCard column content => exact createCard s column content
    | moveCard card column after => exact moveCard s card column after
    | closeIssue id => exact closeIssue s id

end Grown

/-- The table of entities keeps one entry for each key. -/
theorem entityKeys_perform {s : Store} (unique : (s.entities.map (·.key)).Nodup)
    (operation : Operation) : ((s.perform operation).entities.map (·.key)).Nodup := by
  by_cases added : ∃ url, operation = .addEntity url
  · obtain ⟨url, rfl⟩ := added
    have fewer := (List.filter_sublist (p := fun entity => decide (entity.key ≠ url.entityKey))
      (l := s.entities)).map (·.key)
    have fresh : url.entityKey ∉
        (s.entities.filter fun entity => decide (entity.key ≠ url.entityKey)).map (·.key) := by
      simp
    simp only [perform, addEntity, List.map_append, List.map_cons, List.map_nil]
    exact List.nodup_append_comm.mp (List.nodup_cons.mpr ⟨fresh, fewer.nodup unique⟩)
  · obtain ⟨change, same, changed⟩ := (Grown.perform s operation (by simpa using added)).entities
    rw [changed]
    simpa [Function.comp_def, same] using unique

theorem cards_perform (s : Store) (operation : Operation) :
    (s.perform operation).cards.map (·.id) =
      s.cards.map (·.id) ++ (s.madeBy operation).toList := by
  by_cases added : ∃ url, operation = .addEntity url
  · obtain ⟨url, rfl⟩ := added
    exact (List.append_nil _).symm
  · exact (Grown.perform s operation (by simpa using added)).cards

theorem cards_foldl (operations : List Operation) (s : Store) :
    (operations.foldl perform s).cards.map (·.id) = s.cards.map (·.id) ++ s.madeCards operations := by
  induction operations generalizing s with
  | nil => simp [madeCards]
  | cons operation rest others =>
    rw [List.foldl_cons, others, cards_perform, List.append_assoc]
    rfl

/-- An entity is found by its id, wherever it stands in the table. -/
theorem WellFormed.entityById?_perm {s : Store} (wellFormed : s.WellFormed)
    {entities : List StoredEntity} (same : entities.Perm s.entities) (id : EntityId) :
    entityById? { s with entities := entities } id = s.entityById? id := by
  have unique : (entities.map (·.id)).Nodup := by
    apply (same.map _).nodup_iff.mpr
    apply List.Nodup.of_map EntityId.text
    simpa [Function.comp_def] using wellFormed.entities.nodup
  cases found : s.entityById? id with
  | none =>
    have missing := List.find?_eq_none.mp found
    exact List.find?_eq_none.mpr fun entity member => missing entity (same.mem_iff.mp member)
  | some entity =>
    have member : entity ∈ entities := same.mem_iff.mpr (List.mem_of_find?_eq_some found)
    have here : entity.id = id := by simpa using List.find?_some found
    exact here ▸ find?_key unique member

/-- The column of a card is the one whose cards it is among. -/
theorem WellFormed.columnOf?_iff {s : Store} (wellFormed : s.WellFormed) (card : CardId)
    (id : ColumnId) :
    (s.columnOf? card).map (·.id) = some id ↔
      ∃ cards, s.columnCards id = .ok cards ∧ card ∈ cards := by
  constructor
  · intro found
    obtain ⟨column, there, rfl⟩ := Option.map_eq_some_iff.mp found
    have listed : column ∈ s.columns := List.mem_of_find?_eq_some there
    have inside : card ∈ column.cards := by simpa using List.find?_some there
    refine ⟨column.cards, ?_, inside⟩
    unfold columnCards
    rw [wellFormed.column?_eq listed]
  · intro found
    obtain ⟨cards, listed, inside⟩ := found
    have contents : s.cardsIn id = cards := by
      unfold columnCards at listed
      unfold cardsIn
      split at listed
      · next column there =>
        cases listed
        rw [there]
        rfl
      · cases listed
    rw [← contents] at inside
    obtain ⟨column, there, here, _⟩ := wellFormed.columnOf?_of_mem inside
    rw [there, ← here]
    rfl

theorem Reachable.consistent {s : Store} (reachable : Reachable s) : s.Consistent where
  boardIds := reachable.wellFormed.boardIds
  columnIds := reachable.wellFormed.columnIds
  cardIds := reachable.wellFormed.cardIds
  entityIds := by
    apply List.Nodup.of_map EntityId.text
    simpa [Function.comp_def] using reachable.wellFormed.entities.nodup
  entityKeys := by
    induction reachable with
    | empty => exact List.nodup_nil
    | perform s operation _ unique => exact entityKeys_perform unique operation
  placed _ known := reachable.wellFormed.places_of_known known
  known _ member := reachable.wellFormed.known_place member
  contents := reachable.wellFormed.contents

end Store

/-- Dialogues that are held with one service at the same time. Each call is answered before the next
one is made, by whichever of them. -/
inductive Dialogue.Interleaved {σ α : Type} (service : Service σ) :
    List (Dialogue α) → σ → List (Dialogue α) → σ → Prop where
  | stop (dialogues : List (Dialogue α)) (s : σ) : Interleaved service dialogues s dialogues s
  | ask (before after : List (Dialogue α)) (call : Call) (next : call.Result → Dialogue α) (s : σ)
      (others : List (Dialogue α)) (s' : σ) :
      Interleaved service (before ++ next (service call s).1 :: after) (service call s).2 others s' →
      Interleaved service (before ++ .ask call next :: after) s others s'

/-- Whoever makes them, the calls reach the store one after the other. -/
theorem Dialogue.Interleaved.calls {α : Type} {dialogues others : List (Dialogue α)} {s s' : Store}
    (held : Interleaved Store.service dialogues s others s') :
    ∃ calls : List Call, s' = (calls.map Operation.call).foldl Store.perform s := by
  induction held with
  | stop dialogues s => exact ⟨[], rfl⟩
  | ask before after call next s others s' _ later =>
    obtain ⟨calls, rfl⟩ := later
    exact ⟨call :: calls, rfl⟩

/-- Any run of operations leaves the store consistent. A card is in the column that is found for it
and in no other, all cards have been answered by operations that make cards, and entities are found
by their ids in whatever order the table is searched. Dialogues that are held at the same time
just add the calls that they make to the run. -/
theorem Store.consistent_run (operations : List Operation) :
    let s := operations.foldl perform empty
    s.Consistent ∧
      (∀ card column, (s.columnOf? card).map (·.id) = some column ↔
        ∃ cards, s.columnCards column = .ok cards ∧ card ∈ cards) ∧
      s.cards.map (·.id) = empty.madeCards operations ∧
      (∀ entities : List StoredEntity, entities.Perm s.entities → ∀ id,
        entityById? { s with entities := entities } id = s.entityById? id) ∧
      ∀ (α : Type) (dialogues others : List (Dialogue α)) (s' : Store),
        Dialogue.Interleaved service dialogues s others s' →
          ∃ calls : List Call, s' = (operations ++ calls.map Operation.call).foldl perform empty := by
  intro s
  have reachable : s.Reachable := Reachable.foldl operations empty .empty
  refine ⟨reachable.consistent, reachable.wellFormed.columnOf?_iff, cards_foldl operations empty,
    fun entities same => reachable.wellFormed.entityById?_perm same, ?_⟩
  intro α dialogues others s' held
  obtain ⟨calls, reached⟩ := held.calls
  exact ⟨calls, by rw [List.foldl_append]; exact reached⟩

/-- A board with two columns, two issues and three cards, one of which is moved. -/
def shared : List Operation :=
  [.addBoard (.owner "octo") "Plan", .addColumn ⟨"board-1"⟩ "To do", .addColumn ⟨"board-1"⟩ "Done",
    .addEntity ⟨.https, "github.com", "octo", "demo", .issue, 7⟩,
    .addEntity ⟨.https, "github.com", "octo", "demo", .issue, 8⟩,
    .appendCard ⟨"column-2"⟩ (.entity ⟨"entity-4"⟩),
    .appendCard ⟨"column-9"⟩ (.entity ⟨"entity-5"⟩),
    .call (.createCard ⟨"column-2"⟩ (.note "nothing")), .failNextReads 1,
    .call (.moveCard ⟨"card-8"⟩ ⟨"column-3"⟩ none), .call (.closeIssue ⟨"entity-4"⟩)]

/-- One of the three cards was meant for a column that does not exist. -/
theorem Store.consistent_run_shared :
    let s := shared.foldl perform empty
    s.Consistent ∧ s.cards.map (·.id) = [⟨"card-6"⟩, ⟨"card-8"⟩] ∧
      (s.columnOf? ⟨"card-8"⟩).map (·.id) = some ⟨"column-3"⟩ ∧
      (∃ cards, s.columnCards ⟨"column-3"⟩ = .ok cards ∧ ⟨"card-8"⟩ ∈ cards) ∧
      ∀ id, entityById? { s with entities := s.entities.reverse } id = s.entityById? id := by
  intro s
  obtain ⟨consistent, columns, cards, entities, _⟩ := consistent_run shared
  have found : (s.columnOf? ⟨"card-8"⟩).map (·.id) = some ⟨"column-3"⟩ := by decide +kernel
  exact ⟨consistent, cards.trans (by decide +kernel), found, (columns _ _).mp found,
    entities _ (List.reverse_perm _)⟩

end BoardRules
