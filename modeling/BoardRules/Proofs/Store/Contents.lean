import BoardRules.Proofs.Store.WellFormed
import Mathlib.Data.List.Pairwise

/-!
# Layout and contents

A store shows its boards as a layout, which columns there are on which boards, and what these
columns contain. Calls leave the layout alone, so what they do to the boards is said by the contents
of the columns before and after.
-/
namespace BoardRules

namespace Store

/-- A column with the contents that belong to its id. -/
def fill (contents : ColumnId → List CardId) (column : StoredColumn) : StoredColumn :=
  { column with cards := contents column.id }

def fillBoard (contents : ColumnId → List CardId) (board : StoredBoard) : StoredBoard :=
  { board with columns := board.columns.map (fill contents) }

/-- The boards with empty columns. -/
def layout (s : Store) : List StoredBoard := (s.mapColumns (fill fun _ => [])).boards

/-- The cards of a column from top to bottom; none if there is no such column. -/
def cardsIn (s : Store) (id : ColumnId) : List CardId := ((s.column? id).map (·.cards)).getD []

theorem column?_mapColumns (s : Store) (change : StoredColumn → StoredColumn)
    (same : ∀ column, (change column).id = column.id) (id : ColumnId) :
    (s.mapColumns change).column? id = (s.column? id).map change := by
  unfold column?
  rw [columns_mapColumns, List.find?_map]
  congr 2
  funext column
  exact congrArg (fun other => decide (other = id)) (same column)

theorem layout_mapColumns (s : Store) (change : StoredColumn → StoredColumn)
    (kept : ∀ column, (change column).id = column.id ∧ (change column).name = column.name) :
    (s.mapColumns change).layout = s.layout := by
  unfold layout
  rw [mapColumns_mapColumns]
  congr 2
  funext column
  obtain ⟨id, name⟩ := kept column
  simp [fill, id, name]

theorem cardsIn_of_column? {s : Store} {id : ColumnId} {column : StoredColumn}
    (there : s.column? id = some column) : s.cardsIn id = column.cards := by
  unfold cardsIn
  rw [there]
  rfl

/-- Only a column that there is has cards. -/
theorem column?_of_mem {s : Store} {card : CardId} {id : ColumnId} (inside : card ∈ s.cardsIn id) :
    ∃ column, s.column? id = some column ∧ card ∈ column.cards := by
  unfold cardsIn at inside
  cases there : s.column? id with
  | none => simp [there] at inside
  | some column => exact ⟨column, rfl, by simpa [there] using inside⟩

namespace WellFormed

variable {s : Store}

theorem cardsIn_eq (wellFormed : s.WellFormed) {column : StoredColumn} (member : column ∈ s.columns) :
    s.cardsIn column.id = column.cards :=
  cardsIn_of_column? (wellFormed.column?_eq member)

/-- Layout and contents make up the boards. -/
theorem boards_eq (wellFormed : s.WellFormed) :
    s.boards = s.layout.map (fillBoard s.cardsIn) := by
  unfold layout Store.mapColumns
  rw [List.map_map]
  refine ((List.map_congr_left ?_).trans (List.map_id s.boards)).symm
  intro board member
  have columns : (board.columns.map (fill fun _ => [])).map (fill s.cardsIn) = board.columns := by
    rw [List.map_map]
    refine (List.map_congr_left ?_).trans (List.map_id _)
    intro column inside
    have listed : column ∈ s.columns := List.mem_flatMap.mpr ⟨board, member, inside⟩
    change { column with cards := s.cardsIn column.id } = column
    rw [wellFormed.cardsIn_eq listed]
  change { board with columns := _ } = board
  rw [columns]

theorem nodup_cardsIn (wellFormed : s.WellFormed) (id : ColumnId) : (s.cardsIn id).Nodup := by
  unfold cardsIn
  cases there : s.column? id with
  | none => exact List.nodup_nil
  | some column =>
    exact (List.nodup_flatMap.mp wellFormed.placedCards_nodup).1 column (column?_some there).1

/-- A card lies in one column only. -/
theorem column_unique (wellFormed : s.WellFormed) {card : CardId} {one other : ColumnId}
    (first : card ∈ s.cardsIn one) (second : card ∈ s.cardsIn other) : one = other := by
  obtain ⟨column, there, inside⟩ := column?_of_mem first
  obtain ⟨column', here, inside'⟩ := column?_of_mem second
  obtain ⟨listed, rfl⟩ := column?_some there
  obtain ⟨listed', rfl⟩ := column?_some here
  by_contra different
  have apart := (List.nodup_flatMap.mp wellFormed.placedCards_nodup).2
  have symmetric : Std.Symm (Function.onFun List.Disjoint fun column : StoredColumn =>
      column.cards) := ⟨fun _ _ disjoint => disjoint.symm⟩
  have disjoint := apart.forall listed listed'
    fun same => different (congrArg StoredColumn.id same)
  exact disjoint inside inside'

/-- A card is in no column but its own. -/
theorem filter_elsewhere (wellFormed : s.WellFormed) {card : CardId} {id other : ColumnId}
    (inside : card ∈ s.cardsIn id) (different : other ≠ id) :
    (s.cardsIn other).filter (· ≠ card) = s.cardsIn other := by
  apply List.filter_eq_self.mpr
  intro there member
  have apart : there ≠ card := by
    rintro rfl
    exact different (wellFormed.column_unique member inside)
  simpa using apart

/-- The known cards are those that lie in some column. -/
theorem known_iff (wellFormed : s.WellFormed) (card : CardId) :
    (s.card? card).isSome ↔ ∃ id, card ∈ s.cardsIn id := by
  have placed : card ∈ s.placedCards ↔ card ∈ s.cards.map (·.id) := wellFormed.placed.mem_iff
  constructor
  · intro known
    obtain ⟨stored, found⟩ := Option.isSome_iff_exists.mp known
    obtain ⟨listed, rfl⟩ := card?_some found
    obtain ⟨column, member, inside⟩ :=
      List.mem_flatMap.mp (placed.mpr (List.mem_map_of_mem listed))
    exact ⟨column.id, (wellFormed.cardsIn_eq member).symm ▸ inside⟩
  · intro found
    obtain ⟨id, inside⟩ := found
    obtain ⟨column, there, inside⟩ := column?_of_mem inside
    have listed := placed.mp (List.mem_flatMap.mpr ⟨column, (column?_some there).1, inside⟩)
    obtain ⟨stored, member, rfl⟩ := List.mem_map.mp listed
    have found := find?_key wellFormed.cardIds member
    unfold card?
    rw [found]
    rfl

/-- The next card is not known yet. -/
theorem card?_next (wellFormed : s.WellFormed) : s.card? ⟨s.nextId "card"⟩ = none := by
  refine List.find?_eq_none.mpr ?_
  intro stored member found
  have named : stored.id = ⟨s.nextId "card"⟩ := by simpa using found
  apply wellFormed.cards.fresh
  exact List.mem_map.mpr ⟨stored, member, congrArg CardId.text named⟩

theorem columnOf?_of_mem (wellFormed : s.WellFormed) {card : CardId} {id : ColumnId}
    (inside : card ∈ s.cardsIn id) :
    ∃ column, s.columnOf? card = some column ∧ column.id = id ∧ column.cards = s.cardsIn id := by
  obtain ⟨column, there, member⟩ := column?_of_mem inside
  have somewhere : (s.columnOf? card).isSome :=
    List.find?_isSome.mpr ⟨column, (column?_some there).1, decide_eq_true member⟩
  obtain ⟨found, here⟩ := Option.isSome_iff_exists.mp somewhere
  have listed : found ∈ s.columns := List.mem_of_find?_eq_some here
  have holds := List.find?_some here
  have inside' : card ∈ found.cards := of_decide_eq_true holds
  rw [← wellFormed.cardsIn_eq listed] at inside'
  have same := wellFormed.column_unique inside' inside
  refine ⟨found, here, same, ?_⟩
  rw [← same, wellFormed.cardsIn_eq listed]

end WellFormed

/-! ## Calls and contents -/

theorem cardsIn_arrange (s : Store) (card : CardId) (target : ColumnId) (cards : List CardId)
    (there : (s.column? target).isSome) (id : ColumnId) :
    (s.mapColumns (arrange card target cards)).cardsIn id =
      if id = target then cards else (s.cardsIn id).filter (· ≠ card) := by
  unfold cardsIn
  rw [column?_mapColumns s (arrange card target cards) (fun _ => rfl)]
  cases found : s.column? id with
  | none =>
    have different : id ≠ target := by
      intro same
      subst same
      rw [found] at there
      cases there
    rw [if_neg different]
    rfl
  | some column =>
    obtain ⟨_, rfl⟩ := column?_some found
    rfl

theorem cardsIn_place (s : Store) (target : ColumnId) (insert : List CardId → List CardId)
    (there : (s.column? target).isSome) (id : ColumnId) :
    (s.mapColumns (place target insert)).cardsIn id =
      if id = target then insert (s.cardsIn id) else s.cardsIn id := by
  have same : ∀ column, (place target insert column).id = column.id := by
    intro column
    unfold place
    split <;> rfl
  unfold cardsIn
  rw [column?_mapColumns s (place target insert) same]
  cases found : s.column? id with
  | none =>
    have different : id ≠ target := by
      intro same
      subst same
      rw [found] at there
      cases there
    rw [if_neg different]
    rfl
  | some column =>
    obtain ⟨_, rfl⟩ := column?_some found
    unfold place
    by_cases here : column.id = target
    · simp [here]
    · simp [here]

/-- What a successful move does to the contents. -/
theorem moveCard_ok {s s' : Store} {card : CardId} {column : ColumnId} {after : Option CardId}
    (success : s.moveCard card column after = (.ok (), s')) :
    ∃ cards, insertAt card after ((s.cardsIn column).filter (· ≠ card)) = some cards ∧
      (∀ id, s'.cardsIn id = if id = column then cards else (s.cardsIn id).filter (· ≠ card)) ∧
      s'.layout = s.layout ∧
      s' = { s with boards := s'.boards, journal := s.journal ++ [.cardMoved card column after] } := by
  rcases s.moveCard_cases card column after with
    ⟨error, failed⟩ | ⟨stored, target, cards, known, there, inserted, moved⟩
  · rw [failed] at success
    cases success
  · rw [moved] at success
    cases success
    refine ⟨cards, ?_, ?_, ?_, rfl⟩
    · rw [cardsIn_of_column? there]
      exact inserted
    · exact s.cardsIn_arrange card column cards (by rw [there]; rfl)
    · exact s.layout_mapColumns (arrange card column cards) fun _ => ⟨rfl, rfl⟩

/-- A known card can be moved to every place that a column has for it. -/
theorem moveCard_of_insertAt {s : Store} {card : CardId} {id : ColumnId} {after : Option CardId}
    {cards : List CardId} {target : StoredColumn} (known : (s.card? card).isSome)
    (there : s.column? id = some target)
    (inserted : insertAt card after ((s.cardsIn id).filter (· ≠ card)) = some cards) :
    ∃ s', s.moveCard card id after = (.ok (), s') ∧ s'.cardsIn id = cards ∧
      s' = { s with boards := s'.boards, journal := s.journal ++ [.cardMoved card id after] } := by
  obtain ⟨stored, found⟩ := Option.isSome_iff_exists.mp known
  rcases result : s.moveCard card id after with ⟨_ | _, s'⟩
  · rw [cardsIn_of_column? there] at inserted
    unfold moveCard at result
    simp only [found, there, inserted] at result
    cases result
  · obtain ⟨placed, same, contents, _, frame⟩ := moveCard_ok result
    have equal : placed = cards := Option.some.inj (same.symm.trans inserted)
    exact ⟨s', rfl, by rw [contents, if_pos rfl, equal], frame⟩

/-- A move that fails leaves everything as it is. -/
theorem moveCard_error {s s' : Store} {card : CardId} {column : ColumnId} {after : Option CardId}
    {error : TrackingError} (failure : s.moveCard card column after = (.error error, s')) :
    s' = s := by
  rcases s.moveCard_cases card column after with ⟨reason, failed⟩ | ⟨_, _, _, _, _, _, moved⟩
  · rw [failed] at failure
    cases failure
    rfl
  · rw [moved] at failure
    cases failure

/-- What the creation of a card does to the contents. -/
theorem createCard_ok {s s' : Store} {column : ColumnId} {content : CardContent} {card : CardId}
    (success : s.createCard column content = (.ok card, s')) :
    card = ⟨s.nextId "card"⟩ ∧
      (∀ id, s'.cardsIn id = if id = column then card :: s.cardsIn id else s.cardsIn id) ∧
      s'.layout = s.layout ∧
      s' = { s.countId with
        boards := s'.boards
        cards := s.cards ++ [⟨card, content.note?, content.entity?⟩]
        journal := s.journal ++ [.cardCreated column card content] } := by
  rcases s.createCard_cases column content with ⟨error, failed⟩ | ⟨target, there, made⟩
  · rw [failed] at success
    cases success
  · rw [made] at success
    cases success
    refine ⟨rfl, ?_, ?_, rfl⟩
    · exact s.countId.cardsIn_place column _ (by change (s.column? column).isSome; rw [there]; rfl)
    · apply s.countId.layout_mapColumns _
      intro stored
      unfold place
      split <;> exact ⟨rfl, rfl⟩

theorem createCard_error {s s' : Store} {column : ColumnId} {content : CardContent}
    {error : TrackingError} (failure : s.createCard column content = (.error error, s')) :
    s' = s.countId := by
  rcases s.createCard_cases column content with ⟨reason, failed⟩ | ⟨_, _, made⟩
  · rw [failed] at failure
    cases failure
    rfl
  · rw [made] at failure
    cases failure

/-- Calls make at most one card, and never change those that there are. -/
theorem cards_service (s : Store) (call : Call) :
    (service call s).2.cards = s.cards ∨ ∃ column content, call = .createCard column content ∧
      (service call s).2.cards = s.cards ++ [⟨⟨s.nextId "card"⟩, content.note?, content.entity?⟩] := by
  have read {α : Type} (look : Store → Except TrackingError α) : (s.read look).2.cards = s.cards := by
    rcases s.read_cases look with ⟨_, answered⟩ | ⟨_, _, failed⟩
    · rw [answered]
    · rw [failed]
  cases call with
  | boardsForEntity | cardContext | cardMemberships | pullRequestBody | reviews =>
    exact .inl (read _)
  | moveCard card column after =>
    left
    change (s.moveCard card column after).2.cards = s.cards
    rcases s.moveCard_cases card column after with ⟨_, failed⟩ | ⟨_, _, _, _, _, _, moved⟩
    · rw [failed]
    · rw [moved]
      rfl
  | closeIssue issue =>
    left
    change (s.closeIssue issue).2.cards = s.cards
    rcases s.closeIssue_cases issue with ⟨_, failed⟩ | closed
    · rw [failed]
    · rw [closed]
  | createCard column content =>
    rcases s.createCard_cases column content with ⟨_, failed⟩ | ⟨_, _, made⟩
    · left
      change (s.createCard column content).2.cards = s.cards
      rw [failed]
      rfl
    · refine .inr ⟨column, content, rfl, ?_⟩
      change (s.createCard column content).2.cards = _
      rw [made]

end Store

end BoardRules
