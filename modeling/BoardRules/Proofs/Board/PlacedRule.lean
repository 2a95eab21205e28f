import BoardRules.Board.PlacedRule

/-!
# Which rules are extracted

Every extracted rule is declared by a card in a window, and every card counts once, in the first of
its places.
-/
namespace BoardRules.PlacedRule

theorem firstSeen_sublist (seen : List CardId) (cards : List Card) :
    (firstSeen seen cards).1.Sublist cards := by
  induction cards generalizing seen with
  | nil => exact List.Sublist.refl _
  | cons card rest others =>
    unfold firstSeen
    split
    · exact (others seen).cons card
    · exact (others (card.id :: seen)).cons_cons card

theorem mem_firstSeen_seen (seen : List CardId) (cards : List Card) (id : CardId) :
    id ∈ (firstSeen seen cards).2 ↔ id ∈ seen ∨ id ∈ cards.map (·.id) := by
  induction cards generalizing seen with
  | nil => simp [firstSeen]
  | cons card rest others =>
    unfold firstSeen
    rw [List.map_cons, List.mem_cons]
    split
    · rename_i before
      rw [others seen]
      constructor
      · intro either
        rcases either with old | later
        · exact .inl old
        · exact .inr (.inr later)
      · intro either
        rcases either with old | rfl | later
        · exact .inl old
        · exact .inl before
        · exact .inr later
    · change id ∈ (firstSeen (card.id :: seen) rest).2 ↔ _
      rw [others, List.mem_cons]
      constructor
      · intro either
        rcases either with (here | old) | later
        · exact .inr (.inl here)
        · exact .inl old
        · exact .inr (.inr later)
      · intro either
        rcases either with old | here | later
        · exact .inl (.inr old)
        · exact .inl (.inl here)
        · exact .inr later

/-- The cards that count are those that have not been seen before. -/
theorem mem_firstSeen_id (seen : List CardId) (cards : List Card) (id : CardId) :
    id ∈ (firstSeen seen cards).1.map (·.id) ↔ id ∉ seen ∧ id ∈ cards.map (·.id) := by
  induction cards generalizing seen with
  | nil => simp [firstSeen]
  | cons card rest others =>
    unfold firstSeen
    rw [List.map_cons, List.mem_cons]
    split
    · rename_i before
      rw [others seen]
      constructor
      · intro found
        obtain ⟨new, later⟩ := found
        exact ⟨new, .inr later⟩
      · intro found
        obtain ⟨new, rfl | later⟩ := found
        · exact absurd before new
        · exact ⟨new, later⟩
    · rename_i unseen
      change id ∈ (card :: (firstSeen (card.id :: seen) rest).1).map (·.id) ↔ _
      rw [List.map_cons, List.mem_cons, others, List.mem_cons, not_or]
      constructor
      · intro either
        rcases either with rfl | ⟨⟨_, new⟩, later⟩
        · exact ⟨unseen, .inl rfl⟩
        · exact ⟨new, .inr later⟩
      · intro found
        obtain ⟨new, here | later⟩ := found
        · exact .inl here
        · by_cases here : id = card.id
          · exact .inl here
          · exact .inr ⟨⟨here, new⟩, later⟩

theorem nodup_firstSeen (seen : List CardId) (cards : List Card) :
    ((firstSeen seen cards).1.map (·.id)).Nodup := by
  induction cards generalizing seen with
  | nil => exact List.nodup_nil
  | cons card rest others =>
    unfold firstSeen
    split
    · exact others seen
    · refine List.nodup_cons.mpr ⟨?_, others (card.id :: seen)⟩
      intro again
      exact ((mem_firstSeen_id _ _ _).mp again).1 List.mem_cons_self

theorem mem_ofColumns {seen : List CardId} {columns : List Column} {rule : PlacedRule}
    (extracted : rule ∈ ofColumns seen columns) :
    ∃ column ∈ columns, ∃ card ∈ column.window, rule ∈ ofCard column card := by
  induction columns generalizing seen with
  | nil => cases extracted
  | cons column rest others =>
    unfold ofColumns at extracted
    rcases List.mem_append.mp extracted with here | later
    · obtain ⟨card, counted, declared⟩ := List.mem_flatMap.mp here
      exact ⟨column, List.mem_cons_self, card, (firstSeen_sublist _ _).subset counted, declared⟩
    · obtain ⟨other, member, found⟩ := others later
      exact ⟨other, List.mem_cons_of_mem column member, found⟩

theorem mem_named {name : String} {rules : List PlacedRule} {rule : PlacedRule} :
    rule ∈ named name rules ↔ rule ∈ rules ∧ rule.declaration.name = name := by
  unfold named
  rw [List.mem_filter, beq_iff_eq]

end BoardRules.PlacedRule
