import BoardRules.Proofs.Store.Frame

/-!
# Cards of an entity

How many cards the entity of an event has on a board, and what keeps that number down: cards stay on
their boards, and only one kind of call makes cards for entities.
-/
namespace BoardRules

namespace Store

/-- At most one card of the event's entity on every board. -/
def SingleCards (s : Store) (target : Target) : Prop :=
  ∀ one ∈ s.places, ∀ other ∈ s.places, one.1 = other.1 → s.owns target one.2.2 = true →
    s.owns target other.2.2 = true → one.2.2 = other.2.2

instance (s : Store) (target : Target) : Decidable (s.SingleCards target) :=
  inferInstanceAs (Decidable (∀ one ∈ s.places, _))

/-- The card or the entity that an event is about is known. -/
def Registered (s : Store) : Target → Prop
  | .movedCard card => (s.columnOf? card).isSome
  | .entity url => (s.entity? url).isSome

instance (s : Store) (target : Target) : Decidable (s.Registered target) :=
  match target with
  | .movedCard card => inferInstanceAs (Decidable ((s.columnOf? card).isSome = true))
  | .entity url => inferInstanceAs (Decidable ((s.entity? url).isSome = true))

/-- What an event is about stays there. -/
theorem Registered.kept {s t : Store} {target : Target} {rules : List CardId}
    (registered : s.Registered target) (wellFormed : s.WellFormed)
    (frame : Frame s target rules t) : t.Registered target := by
  cases target with
  | movedCard card =>
    obtain ⟨column, found⟩ := Option.isSome_iff_exists.mp registered
    have inside : card ∈ column.cards := by simpa using List.find?_some found
    rw [← wellFormed.cardsIn_eq (List.mem_of_find?_eq_some found)] at inside
    obtain ⟨_, still, _⟩ :=
      frame.wellFormed.columnOf?_of_mem (frame.column column.id card inside rfl)
    exact Option.isSome_iff_exists.mpr ⟨_, still⟩
  | entity url =>
    unfold Registered entity?
    rw [frame.entities_eq]
    exact registered

/-- All cards that stand for entities have been there before. -/
def Unadded (s t : Store) : Prop :=
  ∀ entity card, t.isCardOf entity card = true → s.isCardOf entity card = true

/-- Calls make no cards for entities, but for the one that is meant for that. -/
theorem Unadded.service {s t : Store} (before : Unadded s t) {call : Call}
    (plain : ∀ column entity, call ≠ .createCard column (.entity entity)) :
    Unadded s (service call t).2 := by
  intro entity card belongs
  refine before entity card ?_
  unfold isCardOf card? at belongs ⊢
  rcases t.cards_service call with same | ⟨column, content, rfl, added⟩
  · rw [same] at belongs
    exact belongs
  · rw [added, List.find?_append] at belongs
    cases known : t.cards.find? fun stored => stored.id = card with
    | some stored =>
      rw [known] at belongs
      exact belongs
    | none =>
      -- The card is the new one, which has a note.
      rw [known] at belongs
      cases content with
      | entity another => exact absurd rfl (plain column another)
      | note text =>
        by_cases new : (⟨t.nextId "card"⟩ : CardId) = card <;>
          simp [new, CardContent.entity?] at belongs

/-- If no cards have been made for the entity, there are no more of them on any board. -/
theorem SingleCards.kept {s t : Store} {target : Target} {rules : List CardId}
    (single : s.SingleCards target) (wellFormed : s.WellFormed) (frame : Frame s target rules t)
    (unadded : Unadded s t) : t.SingleCards target := by
  have before {board : BoardId} {id : ColumnId} {card : CardId} (place : (board, id, card) ∈ t.places)
      (own : t.owns target card = true) :
      s.owns target card = true ∧ ∃ id', (board, id', card) ∈ s.places := by
    cases target with
    | movedCard _ => cases own
    | entity url =>
      obtain ⟨entity, found, belongs⟩ := owns_entity.mp own
      unfold entity? at found
      rw [frame.entities_eq] at found
      have older := unadded entity.id card belongs
      have known : (s.card? card).isSome := by
        unfold isCardOf at older
        cases there : s.card? card with
        | none =>
          rw [there] at older
          cases older
        | some _ => rfl
      obtain ⟨board', id', place'⟩ := wellFormed.place_of_known known
      obtain ⟨id'', still⟩ := frame.board board' id' card place'
      rw [(frame.wellFormed.place_unique place still).1]
      exact ⟨owns_entity.mpr ⟨entity, found, older⟩, id', place'⟩
  rintro ⟨board, id, card⟩ place ⟨board', id', card'⟩ place' same own own'
  obtain rfl : board = board' := same
  obtain ⟨owned, one, there⟩ := before place own
  obtain ⟨owned', other, there'⟩ := before place' own'
  exact single (board, one, card) there (board, other, card') there' rfl owned owned'

end Store

end BoardRules
