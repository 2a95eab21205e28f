import BoardRules.Store.Service
import Mathlib.Data.List.Perm.Basic
import Mathlib.Data.List.Nodup

/-!
# The columns of the store

All changes of cards are changes of columns in place: boards and columns stay where they are and
keep their names. What a change answers and what it leaves behind is said once for every change.
-/
namespace BoardRules

namespace Store

/-- Changes all columns in place. -/
def mapColumns (s : Store) (change : StoredColumn → StoredColumn) : Store :=
  { s with
    boards := s.boards.map fun board => { board with columns := board.columns.map change } }

@[simp] theorem columns_mapColumns (s : Store) (change : StoredColumn → StoredColumn) :
    (s.mapColumns change).columns = s.columns.map change := by
  unfold columns mapColumns
  rw [List.flatMap_map, List.map_flatMap]

theorem mapColumns_mapColumns (s : Store) (first second : StoredColumn → StoredColumn) :
    (s.mapColumns first).mapColumns second = s.mapColumns fun column => second (first column) := by
  unfold mapColumns
  simp only [List.map_map, Function.comp_def]

/-! ## Inserting a card -/

/-- A card that is taken out and put back. -/
theorem cons_filter_ne_perm {card : CardId} {cards : List CardId} (nodup : cards.Nodup)
    (member : card ∈ cards) : (card :: cards.filter (· ≠ card)).Perm cards := by
  have erased : cards.filter (· ≠ card) = cards.erase card := by
    rw [nodup.erase_eq_filter]
    apply List.filter_congr
    intro other _
    by_cases same : other = card <;> simp [same]
  rw [erased]
  exact (List.perm_cons_erase member).symm

theorem insertBehind_perm {card anchor : CardId} {cards placed : List CardId}
    (inserted : insertBehind card anchor cards = some placed) : placed.Perm (card :: cards) := by
  induction cards generalizing placed with
  | nil => cases inserted
  | cons c cards others =>
    unfold insertBehind at inserted
    split at inserted
    · cases inserted
      exact List.Perm.swap card c cards
    · obtain ⟨rest, found, rfl⟩ := Option.map_eq_some_iff.mp inserted
      exact ((others found).cons c).trans (List.Perm.swap card c cards)

theorem insertAt_perm {card : CardId} {after : Option CardId} {cards placed : List CardId}
    (inserted : insertAt card after cards = some placed) : placed.Perm (card :: cards) := by
  cases after with
  | none => cases inserted; exact List.Perm.refl _
  | some anchor => exact insertBehind_perm inserted

theorem insertBehind_anchor {card anchor : CardId} {cards placed : List CardId}
    (inserted : insertBehind card anchor cards = some placed) : anchor ∈ cards := by
  induction cards generalizing placed with
  | nil => cases inserted
  | cons c cards others =>
    unfold insertBehind at inserted
    split at inserted
    · rename_i same
      exact same ▸ List.mem_cons_self
    · obtain ⟨rest, found, rfl⟩ := Option.map_eq_some_iff.mp inserted
      exact List.mem_cons_of_mem c (others found)

/-- There is a place behind every card that is there. -/
theorem insertBehind_append {card anchor : CardId} {above below : List CardId}
    (higher : anchor ∉ above) :
    insertBehind card anchor (above ++ anchor :: below) =
      some (above ++ anchor :: card :: below) := by
  induction above with
  | nil =>
    unfold insertBehind
    exact if_pos rfl
  | cons c above others =>
    rw [List.mem_cons, not_or] at higher
    rw [List.cons_append, insertBehind, if_neg (Ne.symm higher.1), others higher.2]
    rfl

/-! ## What changes do -/

def without (card : CardId) (column : StoredColumn) : StoredColumn :=
  { column with cards := column.cards.filter (· ≠ card) }

/-- The cards of the target column are replaced, and the card is gone from all other columns. -/
def arrange (card : CardId) (target : ColumnId) (cards : List CardId) (column : StoredColumn) :
    StoredColumn :=
  { column with
    cards := if column.id = target then cards else column.cards.filter (· ≠ card) }

/-- A move that fails changes nothing. One that succeeds rearranges columns and is noted. -/
theorem moveCard_cases (s : Store) (card : CardId) (column : ColumnId) (after : Option CardId) :
    (∃ error, s.moveCard card column after = (.error error, s)) ∨
      ∃ stored target cards, s.card? card = some stored ∧ s.column? column = some target ∧
        insertAt card after (target.cards.filter (· ≠ card)) = some cards ∧
        s.moveCard card column after = (.ok (), { s.mapColumns (arrange card column cards) with
          journal := s.journal ++ [.cardMoved card column after] }) := by
  unfold moveCard
  split
  · exact .inl ⟨_, rfl⟩
  · exact .inl ⟨_, rfl⟩
  · rename_i stored target known there
    split
    · exact .inl ⟨_, rfl⟩
    · rename_i cards inserted
      refine .inr ⟨stored, target, cards, known, there, inserted, ?_⟩
      have rearranged : (s.removeCard card).updateColumn column (fun _ => cards) =
          s.mapColumns (arrange card column cards) := by
        change (s.mapColumns (without card)).mapColumns _ = _
        rw [mapColumns_mapColumns]
        congr 1
        funext stored
        by_cases here : stored.id = column <;> simp [arrange, without, here]
      rw [rearranged]

/-- Puts a card at one place of a column and leaves the other columns alone. -/
def place (target : ColumnId) (insert : List CardId → List CardId) (column : StoredColumn) :
    StoredColumn :=
  if column.id = target then { column with cards := insert column.cards } else column

/-- To make a card uses up an id in any case. -/
theorem makeCard_cases (s : Store) (column : ColumnId) (note : Option String)
    (entity : Option EntityId) (insert : CardId → List CardId → List CardId) :
    (∃ error, s.makeCard column note entity insert = (.error error, s.countId)) ∨
      ∃ target, s.column? column = some target ∧
        s.makeCard column note entity insert = (.ok ⟨s.nextId "card"⟩,
          { s.countId.mapColumns (place column (insert ⟨s.nextId "card"⟩)) with
            cards := s.cards ++ [⟨⟨s.nextId "card"⟩, note, entity⟩] }) := by
  unfold makeCard
  cases there : s.column? column with
  | none => exact .inl ⟨_, rfl⟩
  | some target => exact .inr ⟨target, rfl, rfl⟩

theorem createCard_cases (s : Store) (column : ColumnId) (content : CardContent) :
    (∃ error, s.createCard column content = (.error error, s.countId)) ∨
      ∃ target, s.column? column = some target ∧
        s.createCard column content = (.ok ⟨s.nextId "card"⟩,
          { s.countId.mapColumns (place column (⟨s.nextId "card"⟩ :: ·)) with
            cards := s.cards ++ [⟨⟨s.nextId "card"⟩, content.note?, content.entity?⟩]
            journal := s.journal ++ [.cardCreated column ⟨s.nextId "card"⟩ content] }) := by
  unfold createCard
  rcases s.makeCard_cases column content.note? content.entity? fun id cards => id :: cards with
    ⟨error, failed⟩ | ⟨target, there, made⟩
  · rw [failed]
    exact .inl ⟨error, rfl⟩
  · rw [made]
    exact .inr ⟨target, there, rfl⟩

def closeEntity (id : EntityId) (entity : StoredEntity) : StoredEntity :=
  if entity.id = id then { entity with closed := true } else entity

theorem closeIssue_cases (s : Store) (id : EntityId) :
    (∃ error, s.closeIssue id = (.error error, s)) ∨
      s.closeIssue id = (.ok (), { s with
        entities := s.entities.map (closeEntity id)
        journal := s.journal ++ [.issueClosed id] }) := by
  unfold closeIssue
  split
  · exact .inl ⟨_, rfl⟩
  · exact .inr rfl

theorem closeIssue_known (s : Store) {id : EntityId} (known : (s.entityById? id).isSome) :
    s.closeIssue id = (.ok (), { s with
      entities := s.entities.map (closeEntity id)
      journal := s.journal ++ [.issueClosed id] }) := by
  obtain ⟨entity, found⟩ := Option.isSome_iff_exists.mp known
  unfold closeIssue
  rw [found]
  rfl

/-- A read changes at most the number of failures that are due. -/
theorem read_cases {α : Type} (s : Store) (look : Store → Except TrackingError α) :
    (s.failingReads = 0 ∧ s.read look = (look s, s)) ∨
      ∃ n, s.failingReads = n + 1 ∧
        s.read look = (.error (.transport "injected read failure"), { s with failingReads := n }) := by
  unfold read
  cases s.failingReads with
  | zero => exact .inl ⟨rfl, rfl⟩
  | succ n => exact .inr ⟨n, rfl, rfl⟩

theorem read_ok {α : Type} {s : Store} {look : Store → Except TrackingError α} {value : α}
    (success : (s.read look).1 = .ok value) : look s = .ok value := by
  rcases s.read_cases look with ⟨_, answered⟩ | ⟨n, _, failed⟩
  · rw [answered] at success
    exact success
  · rw [failed] at success
    cases success

theorem ok_of_read_eq {α : Type} {s s' : Store} {look : Store → Except TrackingError α} {value : α}
    (answer : s.read look = (.ok value, s')) : look s = .ok value :=
  read_ok (congrArg Prod.fst answer)

end Store

end BoardRules
