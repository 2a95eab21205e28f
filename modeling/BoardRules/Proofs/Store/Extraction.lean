import BoardRules.Proofs.Store.RuleCards

/-!
# What is extracted from pinned rules

If all rule cards are shown, the rules of a column depend on which rule cards it has, and only their
order depends on how these cards lie.
-/
namespace BoardRules

/-- A rule without its anchor. -/
def PlacedRule.content (rule : PlacedRule) : Declaration × ColumnRef × CardId :=
  (rule.declaration, rule.column, rule.card)

namespace Store

/-- The rules of a card that lies in the given column. -/
def rulesOn (s : Store) (column : ColumnRef) (card : CardId) :
    List (Declaration × ColumnRef × CardId) :=
  (s.declarations card).map fun declaration => (declaration, column, card)

theorem rulesOn_of_not_declares {s : Store} (column : ColumnRef) {card : CardId}
    (plain : s.declares card = false) : s.rulesOn column card = [] := by
  unfold declares at plain
  have nothing : s.declarations card = [] := by simpa using plain
  unfold rulesOn
  rw [nothing]
  rfl

/-- The cards of a view that count, given those that have been seen before. -/
def counted (s : Store) (seen : List CardId) (column : StoredColumn) : List CardId :=
  (PlacedRule.firstSeen seen (s.columnView column).window).1.map (·.id)

theorem content_ofCards (s : Store) (seen : List CardId) (column : StoredColumn) :
    ((PlacedRule.firstSeen seen (s.columnView column).window).1.flatMap
      (PlacedRule.ofCard (s.columnView column))).map PlacedRule.content =
        ((s.counted seen column).filter s.declares).flatMap
          (s.rulesOn ⟨column.id, column.name⟩) := by
  have views : ∀ card ∈ (PlacedRule.firstSeen seen (s.columnView column).window).1,
      card = s.cardView card.id := by
    intro card member
    have inside := (PlacedRule.firstSeen_sublist _ _).subset member
    rw [window_columnView] at inside
    obtain ⟨id, _, rfl⟩ := List.mem_map.mp inside
    rfl
  unfold counted
  generalize (PlacedRule.firstSeen seen (s.columnView column).window).1 = cards at views
  induction cards with
  | nil => rfl
  | cons card cards others =>
    have rest := others fun other member => views other (List.mem_cons_of_mem _ member)
    have here : (PlacedRule.ofCard (s.columnView column) card).map PlacedRule.content =
        s.rulesOn ⟨column.id, column.name⟩ card.id := by
      rw [views card List.mem_cons_self, ofCard_cardView, List.map_map]
      rfl
    rw [List.flatMap_cons, List.map_append, here, rest, List.map_cons]
    by_cases declares : s.declares card.id
    · rw [List.filter_cons_of_pos declares, List.flatMap_cons]
    · rw [List.filter_cons_of_neg declares,
        rulesOn_of_not_declares _ (by simpa using declares), List.nil_append]

theorem mem_counted (s : Store) (seen : List CardId) (column : StoredColumn) (card : CardId) :
    card ∈ s.counted seen column ↔ card ∉ seen ∧ card ∈ windowOf column.cards := by
  unfold counted
  rw [PlacedRule.mem_firstSeen_id, window_columnView, List.map_map]
  have ids : (windowOf column.cards).map ((·.id) ∘ s.cardView) = windowOf column.cards :=
    List.map_id' _
  rw [ids]

theorem windowIds (s : Store) (column : StoredColumn) :
    (s.columnView column).window.map (·.id) = windowOf column.cards := by
  rw [window_columnView, List.map_map]
  exact List.map_id' _

/-- A marked card is shown wherever it lies. -/
theorem mem_windowOf_marked {p : CardId → Bool} {cards : List CardId}
    (sunk : cards.filter p <:+ cards) (few : (cards.filter p).length ≤ 2) {card : CardId}
    (marked : p card = true) : card ∈ windowOf cards ↔ card ∈ cards.filter p := by
  constructor
  · intro shown
    exact List.mem_filter.mpr ⟨mem_of_mem_windowOf shown, marked⟩
  · exact mem_windowOf_of_suffix sunk few

theorem content_ofColumns_cons (s : Store) (seen : List CardId) (column : StoredColumn)
    (columns : List Column) :
    (PlacedRule.ofColumns seen (s.columnView column :: columns)).map PlacedRule.content =
      ((s.counted seen column).filter s.declares).flatMap (s.rulesOn ⟨column.id, column.name⟩) ++
        (PlacedRule.ofColumns (PlacedRule.firstSeen seen (s.columnView column).window).2
          columns).map PlacedRule.content := by
  rw [← content_ofCards, ← List.map_append]
  rfl

/-! ## Equal up to order -/

/-- Rules that differ only in their order inside a column. -/
structure SameInColumns (one other : List (Declaration × ColumnRef × CardId)) : Prop where
  perm : one.Perm other
  columns : one.map (·.2.1) = other.map (·.2.1)

namespace SameInColumns

variable {one other : List (Declaration × ColumnRef × CardId)}

theorem of_perm (column : ColumnRef) (perm : one.Perm other)
    (here : ∀ rule ∈ other, rule.2.1 = column) : SameInColumns one other := by
  have replicated {rules : List (Declaration × ColumnRef × CardId)}
      (all : ∀ rule ∈ rules, rule.2.1 = column) :
      rules.map (·.2.1) = List.replicate rules.length column := by
    refine List.eq_replicate_iff.mpr ⟨List.length_map _, ?_⟩
    intro other member
    obtain ⟨rule, inside, rfl⟩ := List.mem_map.mp member
    exact all rule inside
  refine ⟨perm, ?_⟩
  rw [replicated here, replicated fun rule member => here rule (perm.mem_iff.mp member),
    perm.length_eq]

theorem append {more others : List (Declaration × ColumnRef × CardId)}
    (first : SameInColumns one other) (second : SameInColumns more others) :
    SameInColumns (one ++ more) (other ++ others) := by
  refine ⟨first.perm.append second.perm, ?_⟩
  rw [List.map_append, List.map_append, first.columns, second.columns]

end SameInColumns

namespace SameRules

variable {s₀ s : Store}

/-- Seen cards that agree on the cards with rules. -/
def Agree (s₀ : Store) (seen seen₀ : List CardId) : Prop :=
  ∀ card, s₀.declares card = true → (card ∈ seen ↔ card ∈ seen₀)

/-- The windows of a column show the same rule cards in both stores. -/
theorem mem_windowOf_iff (same : SameRules s₀ s) (pinned : s₀.RulesPinned) (id : ColumnId)
    {card : CardId} (declares : s₀.declares card = true) :
    card ∈ windowOf (s.cardsIn id) ↔ card ∈ windowOf (s₀.cardsIn id) := by
  have declares' : s.declares card = true := by
    rw [same.declares]
    exact declares
  rw [mem_windowOf_marked (same.pinned pinned id).1 (same.pinned pinned id).2 declares',
    mem_windowOf_marked (pinned id).1 (pinned id).2 declares]
  exact (same.rules id).mem_iff

theorem agree_firstSeen (same : SameRules s₀ s) (pinned : s₀.RulesPinned)
    {seen seen₀ : List CardId} (agree : Agree s₀ seen seen₀) (column : StoredColumn) :
    Agree s₀ (PlacedRule.firstSeen seen (s.columnView (fill s.cardsIn column)).window).2
      (PlacedRule.firstSeen seen₀ (s₀.columnView (fill s₀.cardsIn column)).window).2 := by
  intro card declares
  rw [PlacedRule.mem_firstSeen_seen, PlacedRule.mem_firstSeen_seen, windowIds, windowIds]
  exact or_congr (agree card declares) (same.mem_windowOf_iff pinned column.id declares)

/-- In both stores the same rule cards of a column count. -/
theorem counted_perm (same : SameRules s₀ s) (pinned : s₀.RulesPinned)
    {seen seen₀ : List CardId} (agree : Agree s₀ seen seen₀) (column : StoredColumn) :
    ((s.counted seen (fill s.cardsIn column)).filter s.declares).Perm
      ((s₀.counted seen₀ (fill s₀.cardsIn column)).filter s₀.declares) := by
  have nodup (s : Store) (seen : List CardId) :
      ((s.counted seen (fill s.cardsIn column)).filter s.declares).Nodup :=
    (PlacedRule.nodup_firstSeen _ _).filter _
  apply (List.perm_ext_iff_of_nodup (nodup s seen) (nodup s₀ seen₀)).mpr
  intro card
  rw [List.mem_filter, List.mem_filter, mem_counted, mem_counted, same.declares]
  apply and_congr_left
  intro declares
  exact and_congr (not_congr (agree card declares))
    (same.mem_windowOf_iff pinned column.id declares)

theorem content_ofColumns (same : SameRules s₀ s) (pinned : s₀.RulesPinned)
    (columns : List StoredColumn) {seen seen₀ : List CardId} (agree : Agree s₀ seen seen₀) :
    SameInColumns
      ((PlacedRule.ofColumns seen (s.viewsOf columns)).map PlacedRule.content)
      ((PlacedRule.ofColumns seen₀ (s₀.viewsOf columns)).map PlacedRule.content) := by
  induction columns generalizing seen seen₀ with
  | nil => exact ⟨List.Perm.refl _, rfl⟩
  | cons column columns others =>
    unfold viewsOf
    rw [List.map_cons, List.map_cons, content_ofColumns_cons, content_ofColumns_cons]
    refine SameInColumns.append ?_ (others (same.agree_firstSeen pinned agree column))
    have rulesOn : s.rulesOn = s₀.rulesOn := by
      funext column card
      unfold Store.rulesOn
      rw [same.declarations]
    rw [rulesOn]
    refine SameInColumns.of_perm ⟨column.id, column.name⟩
      ((same.counted_perm pinned agree column).flatMap_right _) ?_
    intro rule member
    obtain ⟨card, _, inside⟩ := List.mem_flatMap.mp member
    obtain ⟨declaration, _, rfl⟩ := List.mem_map.mp inside
    rfl

end SameRules

/-! ## Board views -/

/-- The boards with the given ids, as reads show them. -/
def viewsNamed (s : Store) (ids : List BoardId) : List Board :=
  ids.filterMap fun id => (s.boards.find? fun board => board.id = id).map s.boardView

/-- The rules of the boards with the given ids, without their anchors. -/
def extracted (s : Store) (ids : List BoardId) : List (Declaration × ColumnRef × CardId) :=
  (PlacedRule.ofBoards (s.viewsNamed ids)).map PlacedRule.content

/-- Only the layout decides which columns are shown. -/
theorem columns_viewsNamed {s : Store} (wellFormed : s.WellFormed) (ids : List BoardId) :
    (s.viewsNamed ids).flatMap (·.columns) = s.viewsOf ((ids.filterMap fun id =>
      s.layout.find? fun board => board.id = id).flatMap fun board =>
        board.columns.take maxColumns) := by
  have found (id : BoardId) : s.boards.find? (fun board => board.id = id) =
      (s.layout.find? fun board => board.id = id).map (fillBoard s.cardsIn) := by
    rw [wellFormed.boards_eq, List.find?_map]
    rfl
  have views : s.viewsNamed ids = (ids.filterMap fun id =>
      s.layout.find? fun board => board.id = id).map fun board =>
        s.boardView (fillBoard s.cardsIn board) := by
    unfold viewsNamed
    rw [List.map_filterMap]
    apply List.filterMap_congr
    intro id _
    rw [found id, Option.map_map]
    rfl
  rw [views, List.flatMap_map]
  unfold viewsOf
  rw [List.map_flatMap]
  apply List.flatMap_congr
  intro board _
  change ((board.columns.map (fill s.cardsIn)).take maxColumns).map s.columnView = _
  rw [← List.map_take, List.map_map]
  rfl

theorem SameRules.extracted {s₀ s : Store} (same : SameRules s₀ s) (pinned : s₀.RulesPinned)
    (wellFormed : s₀.WellFormed) (ids : List BoardId) :
    SameInColumns (s.extracted ids) (s₀.extracted ids) := by
  unfold Store.extracted PlacedRule.ofBoards
  rw [columns_viewsNamed same.wellFormed, columns_viewsNamed wellFormed, same.layout]
  exact same.content_ofColumns pinned _ fun _ _ => Iff.rfl

end Store

end BoardRules
