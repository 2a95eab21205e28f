import BoardRules.Proofs.Board.PlacedRule
import BoardRules.Proofs.Store.Contents

/-!
# What reads show of the store

The windows of a column show its first card and its last two. A rule that is extracted from them
lies in its column, and its anchor is the last card of the column unless it is that card.
-/
namespace BoardRules

namespace Store

/-- The rules that a card declares. -/
def declarations (s : Store) (card : CardId) : List Declaration :=
  ((s.cardNote? card).map Note.rules).getD []

/-- What a rule that has just been read says of the store. -/
structure Shows (s : Store) (rule : PlacedRule) : Prop where
  placed : rule.card ∈ s.cardsIn rule.column.id
  declared : rule.declaration ∈ s.declarations rule.card
  anchored : rule.anchor = (s.cardsIn rule.column.id).getLast?.filter (· ≠ rule.card)

/-- The cards in the windows, the leading one first. -/
def windowOf (cards : List CardId) : List CardId :=
  cards.take leadingWindow ++ cards.drop (cards.length - trailingWindow)

theorem window_columnView (s : Store) (column : StoredColumn) :
    (s.columnView column).window = (windowOf column.cards).map s.cardView := by
  unfold Column.window columnView windowOf
  rw [List.map_append]

theorem mem_of_mem_windowOf {cards : List CardId} {card : CardId} (shown : card ∈ windowOf cards) :
    card ∈ cards := by
  rcases List.mem_append.mp shown with first | last
  · exact List.mem_of_mem_take first
  · exact List.mem_of_mem_drop last

/-- A short suffix is shown. -/
theorem mem_windowOf_of_suffix {cards below : List CardId} (suffix : below <:+ cards)
    (short : below.length ≤ 2) {card : CardId} (member : card ∈ below) : card ∈ windowOf cards := by
  obtain ⟨above, rfl⟩ := suffix
  apply List.mem_append_right _
  have start : (above ++ below).length - trailingWindow ≤ above.length := by
    unfold trailingWindow
    rw [List.length_append]
    omega
  rw [List.drop_append_of_le_length start]
  exact List.mem_append_right _ member

/-- The columns of a layout as a store shows them. -/
def viewsOf (s : Store) (columns : List StoredColumn) : List Column :=
  columns.map fun column => s.columnView (fill s.cardsIn column)

theorem lastCard?_columnView (s : Store) (column : StoredColumn) :
    (s.columnView column).lastCard?.map (·.id) = column.cards.getLast? := by
  unfold Column.lastCard? columnView trailingWindow
  rw [List.getLast?_map, Option.map_map, List.getLast?_drop]
  split
  · have empty : column.cards = [] := List.eq_nil_of_length_eq_zero (by omega)
    rw [empty]
    rfl
  · exact Option.map_id'

/-- The last card is the anchor of all other cards, and has none itself. -/
theorem anchor?_columnView (s : Store) (column : StoredColumn) {card : CardId}
    (member : card ∈ column.cards) :
    (s.columnView column).anchor?.filter (· ≠ card) = column.cards.getLast?.filter (· ≠ card) := by
  have nonempty : 0 < column.cards.length := List.length_pos_of_mem member
  have anchor : (s.columnView column).anchor? =
      if 1 < column.cards.length then column.cards.getLast? else none := by
    unfold Column.anchor? Column.lastCard? columnView trailingWindow
    rw [List.length_map, List.getLast?_map, Option.map_map, List.length_drop, List.getLast?_drop]
    by_cases several : 1 < column.cards.length
    · rw [if_pos several, if_pos (by omega), if_neg (by omega)]
      exact Option.map_id'
    · rw [if_neg several, if_neg (by omega)]
  rw [anchor]
  split
  · rfl
  · -- A single card is the last one itself.
    have single : column.cards = [card] := by
      obtain ⟨only, rest⟩ := List.length_eq_one_iff.mp (show column.cards.length = 1 by omega)
      rw [rest] at member ⊢
      rw [List.mem_singleton.mp member]
    rw [single]
    simp [Option.filter]

theorem ofCard_cardView (s : Store) (column : Column) (id : CardId) :
    PlacedRule.ofCard column (s.cardView id) = (s.declarations id).map fun declaration =>
      ⟨declaration, column.reference, id, column.anchor?.filter (· ≠ id)⟩ := by
  unfold PlacedRule.ofCard declarations cardView
  cases s.cardNote? id <;> rfl

theorem mem_declarations_of_mem_ofCard {s : Store} {column : Column} {id : CardId}
    {rule : PlacedRule} (extracted : rule ∈ PlacedRule.ofCard column (s.cardView id)) :
    rule.card = id ∧ rule.declaration ∈ s.declarations id ∧ rule.column = column.reference ∧
      rule.anchor = column.anchor?.filter (· ≠ id) := by
  rw [ofCard_cardView] at extracted
  obtain ⟨declaration, declared, rfl⟩ := List.mem_map.mp extracted
  exact ⟨rfl, declared, rfl, rfl⟩

/-- A rule that is extracted from views of columns belongs to one of them. -/
theorem column_of_extracted {s : Store} {seen : List CardId} {columns : List StoredColumn}
    {rule : PlacedRule}
    (extracted : rule ∈ PlacedRule.ofColumns seen (columns.map s.columnView)) :
    ∃ column ∈ columns, rule.column = ⟨column.id, column.name⟩ ∧ rule.card ∈ column.cards ∧
      rule.declaration ∈ s.declarations rule.card ∧
      rule.anchor = column.cards.getLast?.filter (· ≠ rule.card) := by
  obtain ⟨view, viewed, card, shown, declared⟩ := PlacedRule.mem_ofColumns extracted
  obtain ⟨column, member, rfl⟩ := List.mem_map.mp viewed
  rw [window_columnView] at shown
  obtain ⟨id, inside, rfl⟩ := List.mem_map.mp shown
  have placed := mem_of_mem_windowOf inside
  obtain ⟨same, declaration, column', anchor⟩ := mem_declarations_of_mem_ofCard declared
  refine ⟨column, member, column', ?_, ?_, ?_⟩
  · rw [same]
    exact placed
  · rw [same]
    exact declaration
  · rw [same, anchor]
    exact s.anchor?_columnView column placed

namespace WellFormed

variable {s : Store}

/-- Rules that are extracted from views of stored columns. -/
theorem shows (wellFormed : s.WellFormed) {seen : List CardId} {columns : List StoredColumn}
    (stored : ∀ column ∈ columns, column ∈ s.columns) {rule : PlacedRule}
    (extracted : rule ∈ PlacedRule.ofColumns seen (columns.map s.columnView)) : s.Shows rule := by
  obtain ⟨column, member, here, placed, declared, anchored⟩ := column_of_extracted extracted
  have cards : s.cardsIn rule.column.id = column.cards := by
    rw [here]
    exact wellFormed.cardsIn_eq (stored column member)
  refine ⟨?_, declared, ?_⟩
  · rw [cards]
    exact placed
  · rw [cards]
    exact anchored

/-- Rules of board views. -/
theorem shows_ofBoards (wellFormed : s.WellFormed) {boards : List StoredBoard}
    (stored : ∀ board ∈ boards, board ∈ s.boards) {rule : PlacedRule}
    (extracted : rule ∈ PlacedRule.ofBoards (boards.map s.boardView)) : s.Shows rule := by
  unfold PlacedRule.ofBoards at extracted
  have views : (boards.map s.boardView).flatMap (·.columns) =
      (boards.flatMap fun board => board.columns.take maxColumns).map s.columnView := by
    rw [List.flatMap_map, List.map_flatMap]
    rfl
  rw [views] at extracted
  refine wellFormed.shows ?_ extracted
  intro column member
  obtain ⟨board, listed, inside⟩ := List.mem_flatMap.mp member
  exact List.mem_flatMap.mpr ⟨board, stored board listed, List.mem_of_mem_take inside⟩

end WellFormed

/-! ## Answers of reads -/

theorem cardContext_ok {s : Store} {card : CardId} {context : CardContext}
    (found : cardContext card s = .ok context) :
    ∃ column ∈ s.columns, card ∈ column.cards ∧
      context = ⟨s.linkedEntity? card, s.columnView column⟩ := by
  unfold cardContext at found
  split at found
  · cases found
  · rename_i column there
    cases found
    have inside := List.find?_some there
    exact ⟨column, List.mem_of_find?_eq_some there, by simpa using inside, rfl⟩

/-- The boards of a scope that are shown. -/
def boardsOf (s : Store) (scope : BoardScope) : List StoredBoard :=
  (s.boards.filter fun board => board.scope = scope).take maxBoards

theorem mem_boards_of_mem_boardsOf {s : Store} {scope : BoardScope} {board : StoredBoard}
    (member : board ∈ s.boardsOf scope) : board ∈ s.boards :=
  List.mem_of_mem_filter (List.mem_of_mem_take member)

theorem boardsForEntity_ok {s : Store} {url : EntityUrl} {found : EntityBoards}
    (answer : boardsForEntity url s = .ok found) :
    ∃ boards : List StoredBoard, (∀ board ∈ boards, board ∈ s.boards) ∧
      found.boards = boards.map s.boardView := by
  unfold boardsForEntity at answer
  cases entity : s.entity url with
  | error error =>
    rw [entity] at answer
    cases answer
  | ok stored =>
    rw [entity] at answer
    cases answer
    refine ⟨s.boardsOf (.owner url.owner) ++ s.boardsOf (.repository url.owner url.repository), ?_, ?_⟩
    · intro board member
      rcases List.mem_append.mp member with owned | local_
      · exact mem_boards_of_mem_boardsOf owned
      · exact mem_boards_of_mem_boardsOf local_
    · rw [List.map_append]
      unfold EntityBoards.boards
      congr 1
      change (if (s.boardsIn _).isEmpty then none else some (s.boardsIn _)).getD [] = s.boardsIn _
      cases s.boardsIn (.owner url.owner) <;> rfl

/-- Every membership belongs to a card of the entity on the board that is shown with it. -/
theorem cardMemberships_ok {s : Store} {url : EntityUrl} {found : EntityMemberships}
    (answer : cardMemberships url s = .ok found) :
    ∃ entity, s.entity url = .ok entity ∧ ∀ membership ∈ found.cards.getD [],
      ∃ board ∈ s.boards, ∃ column ∈ board.columns, membership.card ∈ column.cards ∧
        s.isCardOf entity.id membership.card ∧ membership.board = s.boardView board := by
  unfold cardMemberships at answer
  cases known : s.entity url with
  | error error =>
    rw [known] at answer
    cases answer
  | ok entity =>
    rw [known] at answer
    cases answer
    refine ⟨entity, rfl, ?_⟩
    intro membership member
    obtain ⟨board, listed, here⟩ := List.mem_flatMap.mp (List.mem_of_mem_take member)
    obtain ⟨column, inside, there⟩ := List.mem_flatMap.mp here
    obtain ⟨card, filtered, rfl⟩ := List.mem_map.mp there
    obtain ⟨placed, belongs⟩ := List.mem_filter.mp filtered
    exact ⟨board, listed, column, inside, placed, belongs, rfl⟩

/-- The card of an entity has no note. -/
theorem WellFormed.cardNote?_of_isCardOf {s : Store} (wellFormed : s.WellFormed) {entity : EntityId}
    {card : CardId} (belongs : s.isCardOf entity card) : s.cardNote? card = none := by
  unfold isCardOf at belongs
  unfold cardNote?
  cases known : s.card? card with
  | none => rfl
  | some stored =>
    rw [known] at belongs
    have linked : stored.entity = some entity := by simpa using belongs
    have single := wellFormed.contents stored (card?_some known).1
    rw [linked] at single
    change stored.note = none
    simpa using single

/-! ## Linked issues -/

theorem entityById?_some {s : Store} {id : EntityId} {entity : StoredEntity}
    (known : s.entityById? id = some entity) : entity.id = id := by
  simpa using List.find?_some known

/-- A linked issue is registered. -/
theorem entityById?_of_linked {s : Store} {card : CardId} {issue : LinkedEntity}
    (linked : s.linkedEntity? card = some issue) : (s.entityById? issue.id).isSome := by
  unfold linkedEntity? at linked
  simp only [Option.bind_eq_bind, Option.bind_eq_some_iff] at linked
  obtain ⟨stored, _, id, _, entity, known, linked⟩ := linked
  split at linked
  · cases linked
    rw [entityById?_some known, known]
    rfl
  · cases linked

/-- Links see the state of issues as it is now. -/
theorem linkedEntity?_close (s : Store) (id : EntityId) (card : CardId) (journal : List Mutation) :
    linkedEntity? { s with
        entities := s.entities.map (closeEntity id)
        journal := journal } card =
      (s.linkedEntity? card).map fun issue =>
        if issue.id = id then { issue with closed := true } else issue := by
  have found (other : EntityId) :
      (s.entities.map (closeEntity id)).find? (fun entity => entity.id = other) =
        (s.entityById? other).map (closeEntity id) := by
    rw [List.find?_map]
    congr 2
    funext entity
    change decide ((closeEntity id entity).id = other) = _
    unfold closeEntity
    split <;> rfl
  unfold linkedEntity?
  simp only [Option.bind_eq_bind, Option.map_bind]
  change (s.card? card).bind _ = _
  cases s.card? card with
  | none => rfl
  | some stored =>
    cases content : stored.entity with
    | none => simp [content]
    | some other =>
      simp only [Option.bind_some, content, Function.comp_apply]
      unfold entityById?
      rw [found]
      unfold entityById?
      cases known : s.entities.find? fun entity => entity.id = other with
      | none => rfl
      | some entity =>
        by_cases closes : entity.id = id <;> by_cases issue : entity.kind = .issue <;>
          simp [closeEntity, closes, issue]

end Store

end BoardRules
