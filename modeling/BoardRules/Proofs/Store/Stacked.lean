import BoardRules.Proofs.Store.Frame
import BoardRules.Proofs.Store.Sinking

/-!
# Stacked columns

A column to which cards have been added at the top, and some of whose cards have been put behind its
last card, always that of the beginning. Other cards keep their order between the two.
-/
namespace BoardRules.Store

/-- The cards of a column with new ones on top, and with cards sunk below the last one. -/
def stacked (created cards sunk : List CardId) : List CardId :=
  created ++ cards.dropLast.filter (· ∉ sunk) ++ cards.getLast?.toList ++ sunk

variable {created cards sunk : List CardId} {card last : CardId}

theorem dropLast_append_getLast? (cards : List CardId) :
    cards.dropLast ++ cards.getLast?.toList = cards := by
  rcases List.eq_nil_or_concat cards with rfl | ⟨above, last, rfl⟩
  · rfl
  · simp

theorem stacked_nil (cards : List CardId) : stacked [] cards [] = cards := by
  have all : cards.dropLast.filter (· ∉ ([] : List CardId)) = cards.dropLast :=
    List.filter_eq_self.mpr (by simp)
  unfold stacked
  rw [all, List.nil_append, List.append_nil]
  exact dropLast_append_getLast? cards

/-- A column without cards has none but those that have been sunk. -/
theorem stacked_of_nil (sunk : List CardId) : stacked [] [] sunk = sunk := rfl

theorem stacked_cons (card : CardId) (created cards sunk : List CardId) :
    stacked (card :: created) cards sunk = card :: stacked created cards sunk := rfl

theorem stacked_split (final : cards.getLast? = some last) :
    stacked created cards sunk =
      (created ++ cards.dropLast.filter (· ∉ sunk)) ++ last :: sunk := by
  unfold stacked
  rw [final, Option.toList_some, List.append_assoc, List.singleton_append]

theorem mem_stacked (member : card ∈ cards) : card ∈ stacked created cards sunk := by
  rw [← dropLast_append_getLast? cards] at member
  unfold stacked
  by_cases low : card ∈ sunk
  · exact List.mem_append_right _ low
  · refine List.mem_append_left _ ?_
    rcases List.mem_append.mp member with above | last
    · refine List.mem_append_left _ (List.mem_append_right _ ?_)
      exact List.mem_filter.mpr ⟨above, by simpa using low⟩
    · exact List.mem_append_right _ last

/-- The card that sinks comes right behind the last card, wherever it has been. -/
theorem sink_stacked (nodup : (stacked created cards sunk).Nodup)
    (final : cards.getLast? = some last) (different : card ≠ last) :
    sink last (stacked created cards sunk) card =
      stacked (created.filter (· ≠ card)) cards (card :: sunk.filter (· ≠ card)) := by
  have others : (cards.dropLast.filter (· ∉ sunk)).filter (· ≠ card) =
      cards.dropLast.filter (· ∉ card :: sunk.filter (· ≠ card)) := by
    rw [List.filter_filter]
    apply List.filter_congr
    intro other _
    by_cases same : other = card <;> simp [same]
  rw [stacked_split final] at nodup ⊢
  rw [stacked_split final, sink_append nodup different, List.filter_append, others]

/-- Seen from the whole column: the cards that were sunk, and the last one if it was to be sunk, too,
make up the bottom, and all others are as before. -/
theorem stacked_eq_append (nodup : cards.Nodup) (distinct : sunk.Nodup) {lowers : CardId → Prop}
    (exactly : ∀ card, card ∈ sunk ↔ lowers card ∧ cards.getLast? ≠ some card) :
    ∃ lowered : List CardId, lowered.Nodup ∧ (∀ card, card ∈ lowered ↔ lowers card) ∧
      stacked created cards sunk = created ++ cards.filter (· ∉ lowered) ++ lowered := by
  rcases List.eq_nil_or_concat cards with rfl | ⟨above, last, rfl⟩
  · refine ⟨sunk, distinct, ?_, ?_⟩
    · intro card
      simpa using exactly card
    · unfold stacked
      simp
  · rw [List.concat_eq_append] at nodup exactly ⊢
    have final : (above ++ [last]).getLast? = some last := by simp
    have higher : last ∉ above := by
      intro inside
      exact (List.nodup_append.mp nodup).2.2 last inside last (List.mem_singleton_self last) rfl
    have resting : last ∉ sunk := fun low => ((exactly last).mp low).2 final
    rw [stacked_split final, List.dropLast_concat]
    by_cases low : lowers last
    · refine ⟨last :: sunk, List.nodup_cons.mpr ⟨resting, distinct⟩, ?_, ?_⟩
      · intro card
        rw [List.mem_cons, exactly card, final]
        constructor
        · rintro (rfl | ⟨lowered, _⟩)
          · exact low
          · exact lowered
        · intro lowered
          by_cases same : card = last
          · exact .inl same
          · exact .inr ⟨lowered, by simpa using Ne.symm same⟩
      · have others : above.filter (· ∉ last :: sunk) = above.filter (· ∉ sunk) := by
          apply List.filter_congr
          intro card inside
          have different : card ≠ last := fun same => higher (same ▸ inside)
          simp [different]
        rw [List.filter_append, others]
        simp
    · refine ⟨sunk, distinct, ?_, ?_⟩
      · intro card
        rw [exactly card, final]
        constructor
        · intro lowered
          exact lowered.1
        · intro lowered
          refine ⟨lowered, ?_⟩
          intro same
          rw [Option.some.inj same] at low
          exact low lowered
      · rw [List.filter_append, List.filter_cons_of_pos (by simpa using resting)]
        simp

/-! ## Later stores -/

/-- A store after some calls: there are the same columns and entities, and at most more cards. -/
structure Later (s₀ s : Store) : Prop where
  wellFormed : s.WellFormed
  layout : s.layout = s₀.layout
  cards : s₀.cards <+: s.cards
  entityIds : s.entities.map (·.id) = s₀.entities.map (·.id)

theorem column?_isSome_of_layout {s t : Store} (same : t.layout = s.layout) (id : ColumnId) :
    (t.column? id).isSome = (s.column? id).isSome := by
  have emptied (s : Store) : (s.column? id).isSome =
      ((s.mapColumns (fill fun _ => [])).column? id).isSome := by
    rw [column?_mapColumns s (fill fun _ => []) fun _ => rfl, Option.isSome_map]
  have boards : (t.mapColumns (fill fun _ => [])).column? id =
      (s.mapColumns (fill fun _ => [])).column? id := by
    unfold column? columns
    rw [show (t.mapColumns (fill fun _ => [])).boards = _ from same]
    rfl
  rw [emptied t, emptied s, boards]

theorem entityById?_isSome {s : Store} {id : EntityId} :
    (s.entityById? id).isSome ↔ id ∈ s.entities.map (·.id) := by
  unfold entityById?
  rw [List.find?_isSome, List.mem_map]
  simp

/-- The new card is known with what it holds, and the others are still known. -/
theorem WellFormed.card?_created {s s' : Store} (wellFormed : s.WellFormed) {column : ColumnId}
    {content : CardContent} {card : CardId} (success : s.createCard column content = (.ok card, s')) :
    s.card? card = none ∧ s'.card? card = some ⟨card, content.note?, content.entity?⟩ ∧
      s.cards <+: s'.cards := by
  obtain ⟨rfl, _, _, whole⟩ := createCard_ok success
  have unknown := wellFormed.card?_next
  have cards : s'.cards = s.cards ++ [⟨⟨s.nextId "card"⟩, content.note?, content.entity?⟩] := by
    rw [whole]
  refine ⟨unknown, ?_, cards ▸ List.prefix_append _ _⟩
  unfold card? at unknown ⊢
  rw [cards, List.find?_append, unknown]
  simp

namespace Later

variable {s₀ s s' : Store} {id : ColumnId}

theorem refl (wellFormed : s.WellFormed) : Later s s := ⟨wellFormed, rfl, List.prefix_refl _, rfl⟩

/-- A card that is not known has not been known in the beginning. -/
theorem unknown (later : Later s₀ s) (new : s.card? card = none) : s₀.card? card = none := by
  by_contra older
  have still := card?_of_longer later.cards (Option.isSome_iff_ne_none.mpr older)
  exact older (still.symm.trans new)

/-- A card can be made in every column that there was. -/
theorem createCard (later : Later s₀ s) (there : (s₀.column? id).isSome) (content : CardContent) :
    ∃ card s', s.createCard id content = (.ok card, s') ∧ Later s₀ s' := by
  obtain ⟨column, found⟩ :=
    Option.isSome_iff_exists.mp ((column?_isSome_of_layout later.layout id).trans there)
  have after := later.wellFormed.createCard id content
  rcases result : s.createCard id content with ⟨error | card, s'⟩ <;> rw [result] at after
  · unfold Store.createCard makeCard at result
    rw [found] at result
    cases result
  · obtain ⟨_, _, layout, whole⟩ := createCard_ok result
    refine ⟨card, s', rfl, after, layout.trans later.layout, ?_, ?_⟩
    · rw [whole]
      exact later.cards.trans (List.prefix_append _ _)
    · rw [whole]
      exact later.entityIds

theorem moveCard (later : Later s₀ s) {after : Option CardId}
    (success : s.moveCard card id after = (.ok (), s')) : Later s₀ s' := by
  obtain ⟨_, _, _, layout, whole⟩ := moveCard_ok success
  have wellFormed := later.wellFormed.moveCard card id after
  rw [success] at wellFormed
  refine ⟨wellFormed, layout.trans later.layout, ?_, ?_⟩
  · rw [whole]
    exact later.cards
  · rw [whole]
    exact later.entityIds

/-- Every entity that there was can be closed. -/
theorem closeIssue (later : Later s₀ s) {issue : EntityId} (known : (s₀.entityById? issue).isSome) :
    ∃ s', s.closeIssue issue = (.ok (), s') ∧ Later s₀ s' ∧ s'.cardsIn = s.cardsIn ∧
      s'.cards = s.cards := by
  have still : (s.entityById? issue).isSome := by
    rw [entityById?_isSome, later.entityIds]
    exact entityById?_isSome.mp known
  have after := later.wellFormed.closeIssue issue
  have closed := s.closeIssue_known still
  rw [closed] at after
  refine ⟨_, closed, ⟨after, later.layout, later.cards, ?_⟩, rfl, rfl⟩
  have ids : (s.entities.map (closeEntity issue)).map (·.id) = s.entities.map (·.id) := by
    rw [List.map_map]
    apply List.map_congr_left
    intro entity _
    unfold closeEntity
    dsimp only [Function.comp_apply]
    split <;> rfl
  exact ids.trans later.entityIds

end Later

/-! ## Stores with stacked columns -/

/-- What is to go to the bottom, with one card more. -/
def withCard (lowers : ColumnId → CardId → Prop) (id : ColumnId) (card : CardId) :
    ColumnId → CardId → Prop :=
  fun column other => lowers column other ∨ column = id ∧ other = card

/-- All columns have the created cards on top of what they had, and below the last card of what they
had those that were to be lowered. -/
def StackedOn (s₀ : Store) (created : ColumnId → List CardId) (lowers : ColumnId → CardId → Prop)
    (s : Store) : Prop :=
  ∀ id, ∃ sunk : List CardId, sunk.Nodup ∧
    (∀ card, card ∈ sunk ↔ lowers id card ∧ (s₀.cardsIn id).getLast? ≠ some card) ∧
    s.cardsIn id = stacked (created id) (s₀.cardsIn id) sunk

namespace StackedOn

variable {s₀ s s' : Store} {created : ColumnId → List CardId} {lowers : ColumnId → CardId → Prop}
  {id : ColumnId}

theorem refl (s : Store) (none : ∀ id card, ¬ lowers id card) : StackedOn s (fun _ => []) lowers s :=
  fun id => ⟨[], List.nodup_nil, by simp [none id], (stacked_nil _).symm⟩

/-- A card that has been in a column from the beginning is still there. -/
theorem inside (before : StackedOn s₀ created lowers s) (member : card ∈ s₀.cardsIn id) :
    card ∈ s.cardsIn id := by
  obtain ⟨sunk, _, _, contents⟩ := before id
  rw [contents]
  exact mem_stacked member

/-- What is not in a column cannot be taken away from its top. -/
theorem filter_created (before : StackedOn s₀ created lowers s) (absent : card ∉ s.cardsIn id) :
    (created id).filter (· ≠ card) = created id := by
  obtain ⟨sunk, _, _, contents⟩ := before id
  apply List.filter_eq_self.mpr
  intro other top
  have different : other ≠ card := by
    rintro rfl
    apply absent
    rw [contents]
    unfold stacked
    simp [top]
  simpa using different

/-- The last card is at the bottom anyway. -/
theorem rest (before : StackedOn s₀ created lowers s) (final : (s₀.cardsIn id).getLast? = some last) :
    StackedOn s₀ created (withCard lowers id last) s := by
  intro column
  obtain ⟨sunk, distinct, exactly, contents⟩ := before column
  refine ⟨sunk, distinct, ?_, contents⟩
  intro other
  rw [exactly other]
  unfold withCard
  constructor
  · intro lowered
    exact ⟨.inl lowered.1, lowered.2⟩
  · rintro ⟨lowered | ⟨rfl, rfl⟩, above⟩
    · exact ⟨lowered, above⟩
    · exact absurd final above

/-- Other columns do not notice that a card goes to the bottom of one. -/
theorem elsewhere (before : StackedOn s₀ created lowers s) (wellFormed : s.WellFormed)
    (member : card ∈ s.cardsIn id) {column : ColumnId} (other : column ≠ id) :
    ∃ sunk : List CardId, sunk.Nodup ∧
      (∀ c, c ∈ sunk ↔ withCard lowers id card column c ∧ (s₀.cardsIn column).getLast? ≠ some c) ∧
      s.cardsIn column = stacked ((created column).filter (· ≠ card)) (s₀.cardsIn column) sunk := by
  have absent : card ∉ s.cardsIn column := fun here => other (wellFormed.column_unique here member)
  rw [before.filter_created absent]
  obtain ⟨sunk, distinct, exactly, contents⟩ := before column
  refine ⟨sunk, distinct, ?_, contents⟩
  intro c
  rw [exactly c]
  simp [withCard, other]

/-- Of the card that goes to the bottom it does not matter where it has been. -/
theorem mem_cons_filter {sunk : List CardId}
    (exactly : ∀ c, c ∈ sunk ↔ lowers id c ∧ (s₀.cardsIn id).getLast? ≠ some c)
    (above : (s₀.cardsIn id).getLast? ≠ some card) (c : CardId) :
    c ∈ card :: sunk.filter (· ≠ card) ↔
      withCard lowers id card id c ∧ (s₀.cardsIn id).getLast? ≠ some c := by
  unfold withCard
  rw [List.mem_cons, List.mem_filter, exactly c]
  by_cases same : c = card
  · simp [same, above]
  · simp [same]

/-- A card of a column can be put behind the card that has been its last one. -/
theorem sink (before : StackedOn s₀ created lowers s) (wellFormed : s.WellFormed)
    (final : (s₀.cardsIn id).getLast? = some last) (member : card ∈ s.cardsIn id)
    (different : card ≠ last) :
    ∃ s', s.moveCard card id (some last) = (.ok (), s') ∧
      StackedOn s₀ (fun column => (created column).filter (· ≠ card)) (withCard lowers id card) s' := by
  have there := before.inside (List.mem_of_getLast? final)
  obtain ⟨s', success, here, _⟩ := wellFormed.moveCard_sink there member different
  obtain ⟨_, _, contents, _⟩ := moveCard_ok success
  refine ⟨s', success, ?_⟩
  intro column
  by_cases same : column = id
  · subst same
    obtain ⟨sunk, distinct, exactly, stack⟩ := before column
    have nodup := wellFormed.nodup_cardsIn column
    rw [stack] at nodup here
    rw [sink_stacked nodup final different] at here
    refine ⟨_, ?_, mem_cons_filter exactly (by simpa [final] using Ne.symm different), here⟩
    exact List.nodup_cons.mpr ⟨by simp, distinct.filter _⟩
  · rw [contents, if_neg same, wellFormed.filter_elsewhere member same]
    exact before.elsewhere wellFormed member same

/-- A new card comes to the top. -/
theorem create (before : StackedOn s₀ created lowers s) {content : CardContent}
    (success : s.createCard id content = (.ok card, s')) :
    StackedOn s₀ (fun column => if column = id then card :: created column else created column)
      lowers s' := by
  obtain ⟨_, contents, _⟩ := createCard_ok success
  intro column
  obtain ⟨sunk, distinct, exactly, stack⟩ := before column
  refine ⟨sunk, distinct, exactly, ?_⟩
  rw [contents, stack]
  dsimp only
  split
  · exact (stacked_cons _ _ _ _).symm
  · rfl

/-- In a column that had no cards, a single card on top is at the bottom. -/
theorem settle (before : StackedOn s₀ created lowers s) (wellFormed : s.WellFormed)
    (empty : s₀.cardsIn id = []) (single : created id = [card]) :
    StackedOn s₀ (fun column => (created column).filter (· ≠ card)) (withCard lowers id card) s := by
  have member : card ∈ s.cardsIn id := by
    obtain ⟨sunk, _, _, stack⟩ := before id
    rw [stack, single]
    exact List.mem_cons_self
  intro column
  by_cases same : column = id
  · subst same
    obtain ⟨sunk, distinct, exactly, stack⟩ := before column
    have nodup := wellFormed.nodup_cardsIn column
    rw [stack, single, empty, stacked_cons, stacked_of_nil] at nodup
    obtain ⟨new, _⟩ := List.nodup_cons.mp nodup
    have others : sunk.filter (· ≠ card) = sunk := by
      apply List.filter_eq_self.mpr
      intro other low
      have apart : other ≠ card := fun equal => new (equal ▸ low)
      simpa using apart
    refine ⟨card :: sunk.filter (· ≠ card), ?_, mem_cons_filter exactly (by simp [empty]), ?_⟩
    · rw [others]
      exact nodup
    · dsimp only
      rw [stack, single, empty, others]
      simp [stacked]
  · exact before.elsewhere wellFormed member same

end StackedOn

end BoardRules.Store
