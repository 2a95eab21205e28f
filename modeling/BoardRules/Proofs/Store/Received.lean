import BoardRules.Proofs.Store.Frame
import BoardRules.Proofs.Store.Stacked

/-!
# Received notes

Note cards that are new in a column. A card with a note stays in its column, so what a column has
received at the end of a run is what it has received up to any point of it and from there on.
-/
namespace BoardRules

namespace Store

/-- The new cards with a note that a column has received. -/
def received (s s' : Store) (id : ColumnId) (text : String) : List CardId :=
  (s'.cardsIn id).filter fun card => s.card? card = none ∧ s'.cardNote? card = some text

/-- All new cards stand for entities. -/
def Unwritten (s s' : Store) : Prop := ∀ card, s.card? card = none → s'.cardNote? card = none

variable {s t u : Store} {id : ColumnId} {text : String} {card : CardId}

theorem mem_received : card ∈ s.received t id text ↔
    card ∈ t.cardsIn id ∧ s.card? card = none ∧ t.cardNote? card = some text := by
  unfold received
  rw [List.mem_filter, decide_eq_true_iff]

theorem WellFormed.received_self (wellFormed : s.WellFormed) : s.received s id text = [] := by
  apply List.eq_nil_iff_forall_not_mem.mpr
  intro card new
  obtain ⟨inside, unknown, _⟩ := mem_received.mp new
  have known := (wellFormed.known_iff card).mpr ⟨id, inside⟩
  rw [unknown] at known
  cases known

theorem WellFormed.nodup_received (wellFormed : t.WellFormed) : (s.received t id text).Nodup :=
  (wellFormed.nodup_cardsIn id).filter _

theorem known_of_note (note : s.cardNote? card = some text) : (s.card? card).isSome := by
  unfold cardNote? at note
  cases known : s.card? card with
  | none =>
    rw [known] at note
    cases note
  | some _ => rfl

theorem cardNote?_of_longer (longer : s.cards <+: t.cards) (known : (s.card? card).isSome) :
    t.cardNote? card = s.cardNote? card := by
  unfold cardNote?
  rw [card?_of_longer longer known]

/-! ## Stretches of a run -/

/-- What is received in one stretch and in the next adds up. -/
theorem Frame.length_received {target : Target} {rules others : List CardId}
    (first : Frame s target rules t) (second : Frame t target others u) :
    (s.received u id text).length =
      (s.received t id text).length + (t.received u id text).length := by
  have still {card : CardId} (inside : card ∈ t.cardsIn id) (note : t.cardNote? card = some text) :
      card ∈ u.cardsIn id := second.column id card inside
        (first.wellFormed.foreign_of_note note target)
  have apart : (s.received t id text).Disjoint (t.received u id text) := by
    intro card early late
    have known := known_of_note (mem_received.mp early).2.2
    rw [(mem_received.mp late).2.1] at known
    cases known
  have distinct : (s.received t id text ++ t.received u id text).Nodup :=
    first.wellFormed.nodup_received.append second.wellFormed.nodup_received apart
  have same : (s.received u id text).Perm (s.received t id text ++ t.received u id text) := by
    refine (List.perm_ext_iff_of_nodup second.wellFormed.nodup_received distinct).mpr ?_
    intro card
    rw [List.mem_append, mem_received, mem_received, mem_received]
    constructor
    · rintro ⟨inside, new, note⟩
      by_cases unknown : t.card? card = none
      · exact .inr ⟨inside, unknown, note⟩
      · have known := Option.isSome_iff_ne_none.mpr unknown
        rw [cardNote?_of_longer second.cards known] at note
        -- The card has been in a column then, and cannot have left it.
        obtain ⟨id', here⟩ := (first.wellFormed.known_iff card).mp known
        have there := second.column id' card here (first.wellFormed.foreign_of_note note target)
        rw [second.wellFormed.column_unique there inside] at here
        exact .inl ⟨here, new, note⟩
    · rintro (⟨inside, new, note⟩ | ⟨inside, unknown, note⟩)
      · refine ⟨still inside note, new, ?_⟩
        rw [cardNote?_of_longer second.cards (known_of_note note)]
        exact note
      · refine ⟨inside, ?_, note⟩
        by_contra older
        have known := first.known (Option.isSome_iff_ne_none.mpr older)
        rw [unknown] at known
        cases known
  rw [same.length_eq, List.length_append]

/-! ## Calls -/

theorem Unwritten.refl (s : Store) : Unwritten s s := by
  intro card unknown
  unfold cardNote?
  rw [unknown]
  rfl

theorem Unwritten.received (unwritten : Unwritten s t) : s.received t id text = [] := by
  apply List.eq_nil_iff_forall_not_mem.mpr
  intro card new
  obtain ⟨_, unknown, note⟩ := mem_received.mp new
  rw [unwritten card unknown] at note
  cases note

/-- Calls make no cards with notes, but for the one that is meant for that. -/
theorem Unwritten.service (before : Unwritten s t) {call : Call}
    (plain : ∀ column text, call ≠ .createCard column (.note text)) :
    Unwritten s (service call t).2 := by
  intro card unknown
  have without := before card unknown
  unfold cardNote? card? at without ⊢
  rcases t.cards_service call with same | ⟨column, content, rfl, added⟩
  · rw [same]
    exact without
  · rw [added, List.find?_append]
    cases known : t.cards.find? fun stored => stored.id = card with
    | some stored =>
      rw [known] at without
      exact without
    | none =>
      -- If the card is the new one, it stands for an entity.
      cases content with
      | entity entity =>
        by_cases new : (⟨t.nextId "card"⟩ : CardId) = card <;> simp [new, CardContent.note?]
      | note text => exact absurd rfl (plain column text)

/-- A new card with a note is received by its column. -/
theorem Later.length_received_createCard (later : Later s t) {column : ColumnId} {written : String}
    (success : t.createCard column (.note written) = (.ok card, u)) :
    (s.received u id text).length =
      (s.received t id text).length + if (column, written) = (id, text) then 1 else 0 := by
  obtain ⟨unknown, known, longer⟩ := later.wellFormed.card?_created success
  have note : u.cardNote? card = some written := by
    unfold cardNote?
    rw [known]
    rfl
  have earlier : (t.cardsIn id).filter (fun card => s.card? card = none ∧ u.cardNote? card = some text) =
      s.received t id text := by
    apply List.filter_congr
    intro other inside
    rw [cardNote?_of_longer longer ((later.wellFormed.known_iff other).mpr ⟨id, inside⟩)]
  unfold received at earlier ⊢
  rw [(createCard_ok success).2.1]
  by_cases here : id = column
  · subst here
    rw [if_pos rfl, List.filter_cons, earlier, later.unknown unknown, note]
    by_cases same : written = text <;> simp [same]
  · rw [if_neg here, earlier, if_neg (by simpa using fun same => absurd same.symm here)]
    rfl

/-- To move a card within its column adds nothing to any column. -/
theorem WellFormed.length_received_moveCard (wellFormed : t.WellFormed) {column : ColumnId}
    {after : Option CardId} (success : t.moveCard card column after = (.ok (), u))
    (inside : card ∈ t.cardsIn column) :
    (s.received u id text).length = (s.received t id text).length := by
  obtain ⟨cards, inserted, contents, _, whole⟩ := moveCard_ok success
  have notes : u.cardNote? = t.cardNote? := by
    rw [whole]
    rfl
  have same : (u.cardsIn id).Perm (t.cardsIn id) := by
    rw [contents]
    by_cases here : id = column
    · subst here
      rw [if_pos rfl]
      exact (insertAt_perm inserted).trans
        (cons_filter_ne_perm (wellFormed.nodup_cardsIn id) inside)
    · rw [if_neg here, wellFormed.filter_elsewhere inside here]
  unfold received
  rw [notes]
  exact (same.filter _).length_eq

end Store

end BoardRules
