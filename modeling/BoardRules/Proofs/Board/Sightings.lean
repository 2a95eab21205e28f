import BoardRules.Proofs.Board.PlacedRule

/-!
# First sightings

The windows show cards at places: by board, by column, and by leading window before trailing one. What
is extracted from them are the rules at the first place of every card, and a card that boards have
shown hides itself on all later boards.
-/
namespace BoardRules

/-- A card at a place where it is shown. -/
structure Sighting where
  column : Column
  card : Card
  deriving DecidableEq, Repr

namespace Sighting

/-- The places of a column; a card in both windows has two. -/
def ofColumn (column : Column) : List Sighting :=
  column.leading.map (⟨column, ·⟩) ++ column.trailing.map (⟨column, ·⟩)

def ofBoards (boards : List Board) : List Sighting :=
  boards.flatMap fun board => board.columns.flatMap ofColumn

/-- Every card where it is seen first. -/
def firsts (places : List Sighting) : List Sighting :=
  places.eraseDupsBy fun later earlier => later.card.id == earlier.card.id

/-- The last card of at least two, unless it is the card itself. -/
def anchor (place : Sighting) : Option CardId :=
  match place.column.trailing.reverse with
  | last :: _ :: _ => if last.id = place.card.id then none else some last.id
  | _ => none

/-- The rules of the card's note, as they are extracted from this place. -/
def rules (place : Sighting) : List PlacedRule :=
  (place.card.note.toList.flatMap Note.rules).map fun declaration =>
    { declaration
      column := ⟨place.column.id, place.column.name⟩
      card := place.card.id
      anchor := place.anchor }

theorem ofBoards_append (first second : List Board) :
    ofBoards (first ++ second) = ofBoards first ++ ofBoards second :=
  List.flatMap_append

theorem ofBoards_eq (boards : List Board) :
    ofBoards boards = (boards.flatMap (·.columns)).flatMap ofColumn :=
  List.flatMap_assoc.symm

theorem anchor_eq (place : Sighting) :
    place.anchor = place.column.anchor?.filter (· ≠ place.card.id) := by
  unfold anchor Column.anchor? Column.lastCard?
  rw [List.getLast?_eq_head?_reverse, ← List.length_reverse]
  cases place.column.trailing.reverse with
  | nil => rfl
  | cons last above =>
    cases above with
    | nil => rfl
    | cons other rest =>
      by_cases own : last.id = place.card.id <;> simp [Option.filter, own]

theorem rules_eq (place : Sighting) : place.rules = PlacedRule.ofCard place.column place.card := by
  unfold rules PlacedRule.ofCard
  rw [anchor_eq]
  cases place.card.note with
  | none => rfl
  | some note => simp [Column.reference]

theorem card_of_mem_rules {place : Sighting} {rule : PlacedRule} (listed : rule ∈ place.rules) :
    rule.card = place.card.id := by
  obtain ⟨declaration, _, rfl⟩ := List.mem_map.mp listed
  rfl

/-! ## Places after others -/

/-- The first places of those cards that have not been seen before. -/
def unseen (seen : List CardId) (places : List Sighting) : List Sighting :=
  firsts (places.filter fun place => place.card.id ∉ seen)

theorem unseen_nil (places : List Sighting) : unseen [] places = firsts places :=
  congrArg firsts (List.filter_eq_self.mpr (by simp))

theorem unseen_congr {seen others : List CardId} (same : ∀ id, id ∈ seen ↔ id ∈ others)
    (places : List Sighting) : unseen seen places = unseen others places := by
  simp only [unseen, same]

theorem unseen_cons_of_mem {seen : List CardId} {place : Sighting} (before : place.card.id ∈ seen)
    (rest : List Sighting) : unseen seen (place :: rest) = unseen seen rest := by
  simp [unseen, before]

/-- A card that is new hides its later places. -/
theorem unseen_cons_of_not_mem {seen : List CardId} {place : Sighting}
    (new : place.card.id ∉ seen) (rest : List Sighting) :
    unseen seen (place :: rest) = place :: unseen (place.card.id :: seen) rest := by
  unfold unseen firsts
  rw [List.filter_cons_of_pos (by simpa using new), List.eraseDupsBy_cons, List.filter_filter]
  congr 2
  apply List.filter_congr
  intro later _
  simp

theorem unseen_append (seen : List CardId) (first second : List Sighting) :
    unseen seen (first ++ second) =
      unseen seen first ++ unseen (seen ++ first.map (·.card.id)) second := by
  induction first generalizing seen with
  | nil => simp [unseen, firsts]
  | cons place rest others =>
    rw [List.cons_append]
    by_cases before : place.card.id ∈ seen
    · rw [unseen_cons_of_mem before, unseen_cons_of_mem before, others]
      congr 1
      apply unseen_congr
      intro id
      by_cases here : id = place.card.id <;> simp [here, before]
    · rw [unseen_cons_of_not_mem before, unseen_cons_of_not_mem before, others, List.cons_append]
      congr 2
      apply unseen_congr
      intro id
      simp only [List.mem_append, List.mem_cons, List.map_cons]
      exact or_left_comm

/-- What is hidden can be left out afterwards. -/
theorem filter_unseen (seen hidden : List CardId) (places : List Sighting) :
    (unseen seen places).filter (fun place => place.card.id ∉ hidden) =
      unseen (seen ++ hidden) places := by
  induction places generalizing seen with
  | nil => rfl
  | cons place rest others =>
    by_cases before : place.card.id ∈ seen
    · rw [unseen_cons_of_mem before, unseen_cons_of_mem (List.mem_append_left _ before), others]
    · rw [unseen_cons_of_not_mem before]
      by_cases hides : place.card.id ∈ hidden
      · rw [List.filter_cons_of_neg (by simpa using hides), others,
          unseen_cons_of_mem (List.mem_append_right _ hides)]
        apply unseen_congr
        intro id
        by_cases here : id = place.card.id <;> simp [here, hides]
      · have new : place.card.id ∉ seen ++ hidden := by simp [before, hides]
        rw [List.filter_cons_of_pos (by simpa using hides), others, unseen_cons_of_not_mem new,
          List.cons_append]

theorem firsts_append (first second : List Sighting) :
    firsts (first ++ second) = firsts first ++
      (firsts second).filter fun place => place.card.id ∉ first.map (·.card.id) := by
  rw [← unseen_nil, ← unseen_nil, ← unseen_nil, unseen_append, filter_unseen]

end Sighting

/-! ## Extraction -/

namespace PlacedRule

/-- In a column those cards count that are seen first. -/
theorem firstSeen_unseen (column : Column) (seen : List CardId) (cards : List Card) :
    (firstSeen seen cards).1.map (⟨column, ·⟩) = Sighting.unseen seen (cards.map (⟨column, ·⟩)) := by
  induction cards generalizing seen with
  | nil => rfl
  | cons card rest others =>
    unfold firstSeen
    rw [List.map_cons]
    split
    · rename_i before
      rw [Sighting.unseen_cons_of_mem before, others]
    · rename_i new
      rw [Sighting.unseen_cons_of_not_mem new, ← others]
      rfl

theorem ofColumns_unseen (seen : List CardId) (columns : List Column) :
    ofColumns seen columns =
      (Sighting.unseen seen (columns.flatMap Sighting.ofColumn)).flatMap Sighting.rules := by
  induction columns generalizing seen with
  | nil => rfl
  | cons column rest others =>
    have places : Sighting.ofColumn column = column.window.map (⟨column, ·⟩) := by
      unfold Sighting.ofColumn Column.window
      rw [List.map_append]
    have rules : (Sighting.unseen seen (column.window.map (⟨column, ·⟩))).flatMap Sighting.rules =
        (firstSeen seen column.window).1.flatMap (ofCard column) := by
      rw [← firstSeen_unseen, List.flatMap_map]
      exact congrArg (List.flatMap · _) (funext fun card => Sighting.rules_eq ⟨column, card⟩)
    rw [List.flatMap_cons, places, Sighting.unseen_append, List.flatMap_append, rules]
    change _ ++ ofColumns _ rest = _
    rw [others]
    congr 2
    apply Sighting.unseen_congr
    intro id
    rw [mem_firstSeen_seen, List.mem_append, List.map_map]
    rfl

theorem ofBoards_firsts (boards : List Board) :
    ofBoards boards = (Sighting.firsts (Sighting.ofBoards boards)).flatMap Sighting.rules := by
  unfold ofBoards
  rw [ofColumns_unseen, Sighting.unseen_nil, Sighting.ofBoards_eq]

/-- The rules of places whose cards are not hidden. -/
theorem filter_rules (hidden : List CardId) (places : List Sighting) :
    (places.flatMap Sighting.rules).filter (fun rule => rule.card ∉ hidden) =
      (places.filter fun place => place.card.id ∉ hidden).flatMap Sighting.rules := by
  induction places with
  | nil => rfl
  | cons place rest others =>
    rw [List.flatMap_cons, List.filter_append, others]
    by_cases hides : place.card.id ∈ hidden
    · rw [List.filter_cons_of_neg (by simpa using hides), List.filter_eq_nil_iff.mpr ?_,
        List.nil_append]
      intro rule listed
      rw [Sighting.card_of_mem_rules listed]
      simpa using hides
    · rw [List.filter_cons_of_pos (by simpa using hides), List.filter_eq_self.mpr ?_,
        List.flatMap_cons]
      intro rule listed
      rw [Sighting.card_of_mem_rules listed]
      simpa using hides

/-- The extracted rules are those at the first places of all cards. So more boards add the rules of
those cards that have not been shown, and a column alone gives what a board with nothing else gives. -/
theorem ofBoards_firstOccurrences (boards more : List Board) (column : Column) (id : BoardId)
    (name : String) :
    ofBoards boards = (Sighting.firsts (Sighting.ofBoards boards)).flatMap Sighting.rules ∧
      ofBoards (boards ++ more) = ofBoards boards ++ (ofBoards more).filter (fun rule =>
        rule.card ∉ (Sighting.ofBoards boards).map (·.card.id)) ∧
      ofColumn column = ofBoards [⟨id, name, [column]⟩] := by
  refine ⟨ofBoards_firsts boards, ?_, rfl⟩
  rw [ofBoards_firsts, ofBoards_firsts, ofBoards_firsts, Sighting.ofBoards_append,
    Sighting.firsts_append, List.flatMap_append, filter_rules]

/-- The only card of a column lies in both windows; the second board shows it once more. -/
example :
    let rule : Card := ⟨⟨"card-1"⟩, some "- `new_issue`", none⟩
    let issue : Card := ⟨⟨"card-2"⟩, none, some "https://github.com/octo/api/issues/7"⟩
    let triage : Column := ⟨⟨"column-1"⟩, "Triage", none, [rule], [rule]⟩
    let done : Column := ⟨⟨"column-2"⟩, "Done", none, [rule], [rule, issue]⟩
    ofBoards [⟨⟨"board-1"⟩, "Plan", [triage]⟩, ⟨⟨"board-2"⟩, "Work", [done]⟩] =
      [⟨⟨"new_issue", []⟩, triage.reference, rule.id, none⟩] := by
  decide +kernel

end PlacedRule

end BoardRules
