import BoardRules.Proofs.Store.Consistency
import BoardRules.Proofs.Store.Frame

/-!
# Moves of cards

A card that is moved comes to one place, which is the place that was asked for, and nothing else
changes. A move is refused for three reasons only: there is no such card, there is no such column, or
the anchor is no other card of that column.
-/
namespace BoardRules

namespace Store

/-- Why a card cannot be moved. A card that is not known counts first, then the column. -/
inductive Refused (s : Store) (card : CardId) (column : ColumnId) :
    Option CardId → TrackingError → Prop where
  | unknownCard (after : Option CardId) :
      s.card? card = none → Refused s card column after (.notFound card.text)
  | unknownColumn (after : Option CardId) :
      (s.card? card).isSome → s.column? column = none →
        Refused s card column after (.notFound column.text)
  | noAnchor (anchor : CardId) :
      (s.card? card).isSome → (s.column? column).isSome →
        anchor = card ∨ anchor ∉ s.cardsIn column →
        Refused s card column (some anchor)
          (.query ("card " ++ anchor.text ++ " is not in column " ++ column.text))

/-- What has become of a store in which a card has been moved. -/
structure Moved (s : Store) (card : CardId) (column : ColumnId) (after : Option CardId)
    (s' : Store) : Prop where
  /-- The card lies in one place, and this is in the target column. -/
  once : ∃ board, s'.places.filter (fun place => place.2.2 = card) = [(board, column, card)]
  top : after = none → ∃ below, s'.cardsIn column = card :: below
  behind : ∀ anchor, after = some anchor →
    ∃ above below, s'.cardsIn column = above ++ anchor :: card :: below
  /-- Apart from the card, all boards show what they showed, in the same order. -/
  others : (s'.removeCard card).boards = (s.removeCard card).boards
  /-- Besides, only the journal has changed, by one entry. -/
  rest : s' = { s with boards := s'.boards, journal := s.journal ++ [.cardMoved card column after] }

/-! ## Anchors -/

theorem insertBehind_eq_none_iff {card anchor : CardId} {cards : List CardId} :
    insertBehind card anchor cards = none ↔ anchor ∉ cards := by
  constructor
  · intro refused inside
    obtain ⟨above, below, rfl, higher⟩ := List.eq_append_cons_of_mem inside
    rw [insertBehind_append higher] at refused
    cases refused
  · intro outside
    cases inserted : insertBehind card anchor cards with
    | none => rfl
    | some placed => exact absurd (insertBehind_anchor inserted) outside

/-- A place is missing only for want of an anchor. -/
theorem insertAt_eq_none_iff {card : CardId} {after : Option CardId} {cards : List CardId} :
    insertAt card after (cards.filter (· ≠ card)) = none ↔
      ∃ anchor, after = some anchor ∧ (anchor = card ∨ anchor ∉ cards) := by
  cases after with
  | none => simp [insertAt]
  | some anchor =>
    change insertBehind card anchor _ = none ↔ _
    rw [insertBehind_eq_none_iff, List.mem_filter]
    simp only [decide_eq_true_eq, Option.some.injEq, exists_eq_left']
    tauto

theorem insertBehind_split {card anchor : CardId} {cards placed : List CardId}
    (inserted : insertBehind card anchor cards = some placed) :
    ∃ above below, placed = above ++ anchor :: card :: below := by
  obtain ⟨above, below, rfl, higher⟩ := List.eq_append_cons_of_mem (insertBehind_anchor inserted)
  rw [insertBehind_append higher] at inserted
  cases inserted
  exact ⟨above, below, rfl⟩

/-! ## Refusals -/

theorem Refused.moveCard {s : Store} {card : CardId} {column : ColumnId} {after : Option CardId}
    {error : TrackingError} (refused : Refused s card column after error) :
    s.moveCard card column after = (.error error, s) := by
  unfold Store.moveCard
  cases refused with
  | unknownCard _ unknown => rw [unknown]
  | unknownColumn _ known missing =>
    obtain ⟨stored, found⟩ := Option.isSome_iff_exists.mp known
    rw [found, missing]
  | noAnchor anchor known there reason =>
    obtain ⟨stored, found⟩ := Option.isSome_iff_exists.mp known
    obtain ⟨target, here⟩ := Option.isSome_iff_exists.mp there
    rw [cardsIn_of_column? here] at reason
    rw [found, here]
    dsimp only
    rw [insertAt_eq_none_iff.mpr ⟨anchor, rfl, reason⟩]
    rfl

theorem refused_of_error {s s' : Store} {card : CardId} {column : ColumnId} {after : Option CardId}
    {error : TrackingError} (failure : s.moveCard card column after = (.error error, s')) :
    Refused s card column after error := by
  unfold moveCard at failure
  split at failure
  · rename_i unknown
    cases failure
    exact .unknownCard after unknown
  · rename_i stored known missing
    cases failure
    exact .unknownColumn after (by rw [known]; rfl) missing
  · rename_i stored target known there
    split at failure
    · rename_i unplaced
      obtain ⟨anchor, rfl, reason⟩ := insertAt_eq_none_iff.mp unplaced
      rw [← cardsIn_of_column? there] at reason
      cases failure
      exact .noAnchor anchor (by rw [known]; rfl) (by rw [there]; rfl) reason
    · cases failure

/-! ## Moves -/

/-- To take out a card that has been moved is to take it out where it was. -/
theorem without_arrange {card : CardId} {target column : StoredColumn} {after : Option CardId}
    {cards : List CardId}
    (inserted : insertAt card after (target.cards.filter (· ≠ card)) = some cards)
    (same : column.id = target.id → column = target) :
    without card (arrange card target.id cards column) = without card column := by
  unfold without arrange
  dsimp only
  by_cases here : column.id = target.id
  · rw [if_pos here, filter_insertAt (by simp) inserted, List.filter_filter, same here]
    simp
  · rw [if_neg here, List.filter_filter]
    simp

/-- A move changes nothing about the other cards. -/
theorem WellFormed.without_moveCard {s s' : Store} (wellFormed : s.WellFormed) {card : CardId}
    {column : ColumnId} {after : Option CardId}
    (success : s.moveCard card column after = (.ok (), s')) :
    (s'.mapColumns (without card)).boards = (s.mapColumns (without card)).boards := by
  rcases s.moveCard_cases card column after with
    ⟨error, failed⟩ | ⟨_, target, cards, _, there, inserted, moved⟩
  · rw [failed] at success
    cases success
  · rw [moved] at success
    cases success
    obtain ⟨listed, rfl⟩ := column?_some there
    change ((s.mapColumns (arrange card target.id cards)).mapColumns (without card)).boards =
      (s.mapColumns (without card)).boards
    rw [mapColumns_mapColumns]
    unfold Store.mapColumns
    dsimp only
    apply List.map_congr_left
    intro board stored
    congr 1
    apply List.map_congr_left
    intro column member
    apply without_arrange inserted
    intro same
    have found := wellFormed.column?_eq (List.mem_flatMap.mpr ⟨board, stored, member⟩)
    rw [same, there] at found
    exact (Option.some.inj found).symm

theorem WellFormed.moved {s s' : Store} (wellFormed : s.WellFormed) {card : CardId}
    {column : ColumnId} {after : Option CardId}
    (success : s.moveCard card column after = (.ok (), s')) : Moved s card column after s' := by
  have wellFormed' : s'.WellFormed := by
    have kept := wellFormed.moveCard card column after
    rwa [success] at kept
  obtain ⟨cards, placed, contents, _, rest⟩ := moveCard_ok success
  have arrived : s'.cardsIn column = cards := by rw [contents, if_pos rfl]
  have inside : card ∈ s'.cardsIn column := by
    rw [arrived, (insertAt_perm placed).mem_iff]
    exact List.mem_cons_self
  refine ⟨?_, ?_, ?_, ?_, rest⟩
  · obtain ⟨board, other, single⟩ :=
      wellFormed'.places_of_known ((wellFormed'.known_iff card).mpr ⟨column, inside⟩)
    have listed : (board, other, card) ∈ s'.places := by
      refine List.mem_of_mem_filter (p := fun place => place.2.2 = card) ?_
      rw [single]
      exact List.mem_singleton_self _
    obtain rfl : other = column :=
      wellFormed'.column_unique (wellFormed'.mem_places.mp listed).2 inside
    exact ⟨board, single⟩
  · rintro rfl
    cases placed
    exact ⟨_, arrived⟩
  · rintro anchor rfl
    obtain ⟨above, below, split⟩ := insertBehind_split placed
    exact ⟨above, below, arrived.trans split⟩
  · exact wellFormed.without_moveCard success

/-- A move that succeeds puts the card in its place and changes nothing else, and one that fails does
so for the reason given and changes nothing at all. -/
theorem moveCard_exact {s : Store} (reachable : s.Reachable) (card : CardId) (column : ColumnId)
    (after : Option CardId) :
    (∀ s', s.moveCard card column after = (.ok (), s') → Moved s card column after s') ∧
      ∀ error s', s.moveCard card column after = (.error error, s') ↔
        s' = s ∧ Refused s card column after error := by
  refine ⟨fun s' success => reachable.wellFormed.moved success, ?_⟩
  intro error s'
  constructor
  · intro failure
    exact ⟨moveCard_error failure, refused_of_error failure⟩
  · rintro ⟨rfl, refused⟩
    exact refused.moveCard

/-- A column with three cards, and an empty one. -/
def stack : Store :=
  [Operation.addBoard (.owner "octo") "Plan", .addColumn ⟨"board-1"⟩ "To do",
    .addColumn ⟨"board-1"⟩ "Done", .appendCard ⟨"column-2"⟩ (.note "one"),
    .appendCard ⟨"column-2"⟩ (.note "two"), .appendCard ⟨"column-2"⟩ (.note "three")].foldl
      perform empty

/-- The first card goes below the last one and comes back above it. It does not go behind a card of
another column. -/
theorem moveCard_exact_stack :
    let lowered := (stack.moveCard ⟨"card-4"⟩ ⟨"column-2"⟩ (some ⟨"card-6"⟩)).2
    let raised := (lowered.moveCard ⟨"card-4"⟩ ⟨"column-2"⟩ (some ⟨"card-5"⟩)).2
    Moved stack ⟨"card-4"⟩ ⟨"column-2"⟩ (some ⟨"card-6"⟩) lowered ∧
      lowered.cardsIn ⟨"column-2"⟩ = [⟨"card-5"⟩, ⟨"card-6"⟩, ⟨"card-4"⟩] ∧
      Moved lowered ⟨"card-4"⟩ ⟨"column-2"⟩ (some ⟨"card-5"⟩) raised ∧
      raised.cardsIn ⟨"column-2"⟩ = [⟨"card-5"⟩, ⟨"card-4"⟩, ⟨"card-6"⟩] ∧
      stack.moveCard ⟨"card-4"⟩ ⟨"column-3"⟩ (some ⟨"card-5"⟩) =
        (.error (.query "card card-5 is not in column column-3"), stack) := by
  intro lowered raised
  have reachable : stack.Reachable := Reachable.foldl _ _ .empty
  have reachable' : lowered.Reachable :=
    reachable.perform _ (.call (.moveCard ⟨"card-4"⟩ ⟨"column-2"⟩ (some ⟨"card-6"⟩)))
  refine ⟨(moveCard_exact reachable _ _ _).1 lowered (Prod.ext (by decide +kernel) rfl),
    by decide +kernel,
    (moveCard_exact reachable' _ _ _).1 raised (Prod.ext (by decide +kernel) rfl),
    by decide +kernel, ?_⟩
  refine ((moveCard_exact reachable _ _ _).2 _ _).mpr ⟨rfl, ?_⟩
  exact .noAnchor _ (by decide +kernel) (by decide +kernel) (.inr (by decide +kernel))

end Store

end BoardRules
