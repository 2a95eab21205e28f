import BoardRules.Proofs.Note.Separators

/-!
# Space at the end of a line

Spaces and tabs after a line cannot be seen, and they mean nothing: in every state the scanner does
the same with the line and with the line followed by them (`line_append`). Every shape of line has
its own reason. A shape that reads a line up to some mark ends before the trail, one that reads it
to its end passes over the trail or trims it, and a marker without content is one with the trail as
well, though the column where the content would begin is another then (`contentColumn_followedBy`).
-/
namespace BoardRules.Note

open Text

/-- Spaces and tabs after a line. -/
structure Trail where
  text : List Char
  invisible : ∀ c ∈ text, isIndent c = true

/-- The line with spaces and tabs after it. -/
def Line.followedBy (line : Line) (trail : Trail) : Line where
  text := line.text ++ trail.text
  noFeed := by
    have absent : '\n' ∉ trail.text := fun member => absurd (trail.invisible _ member) (by decide)
    simp [line.noFeed, absent]
  noReturn := by
    have absent : '\r' ∉ trail.text := fun member => absurd (trail.invisible _ member) (by decide)
    simp [line.noReturn, absent]

namespace Trail

variable (trail : Trail)

theorem isBlank_of_mem {c : Char} (member : c ∈ trail.text) : isBlank c = true := by
  rcases isIndent_cases (trail.invisible c member) with rfl | rfl <;> decide

theorem not_mem {c : Char} (visible : isIndent c = false) : c ∉ trail.text := by
  intro member
  rw [trail.invisible c member] at visible
  cases visible

theorem eq_nil_or_cons : trail.text = [] ∨ ∃ rest : Trail, ∃ c, trail.text = c :: rest.text ∧
    isIndent c = true := by
  obtain ⟨text, invisible⟩ := trail
  cases text with
  | nil => exact Or.inl rfl
  | cons c text =>
    obtain ⟨first, others⟩ := List.forall_mem_cons.mp invisible
    exact Or.inr ⟨⟨text, others⟩, c, rfl, first⟩

/-- What holds at the end of a line and where a space or a tab stands holds at a trail. -/
theorem apply_eq {α : Type} {f : List Char → α} {value : α} (ends : f [] = value)
    (space : ∀ rest, f (' ' :: rest) = value) (tab : ∀ rest, f ('\t' :: rest) = value) :
    f trail.text = value := by
  rcases trail.eq_nil_or_cons with none | ⟨rest, c, some, indent⟩
  · rw [none, ends]
  · rw [some]
    rcases isIndent_cases indent with rfl | rfl
    · exact space rest.text
    · exact tab rest.text

/-! ## Scanning up to a mark -/

/-- What stops at the end of a line stops at the trail. -/
theorem takeWhile_append {p : Char → Bool} (stops : ∀ c, isIndent c = true → p c = false)
    (text : List Char) : (text ++ trail.text).takeWhile p = text.takeWhile p ∧
      (text ++ trail.text).dropWhile p = text.dropWhile p ++ trail.text := by
  induction text with
  | nil =>
    rcases trail.eq_nil_or_cons with none | ⟨rest, c, some, indent⟩
    · simp [none]
    · simp [some, stops c indent]
  | cons c text ih =>
    cases kept : p c with
    | true => simp [kept, ih]
    | false => simp [kept]

/-- A line may end where a space or a tab may stand. -/
theorem endsOrIndented_append (text : List Char) :
    ((text ++ trail.text).head?.map isIndent).getD true = (text.head?.map isIndent).getD true := by
  cases text with
  | nil =>
    exact trail.apply_eq (f := fun text => (text.head?.map isIndent).getD true) rfl
      (fun _ => rfl) (fun _ => rfl)
  | cons c text => rfl

theorem after?_append {lead : List Char} (visible : ∀ c ∈ lead, isIndent c = false)
    (text : List Char) :
    after? lead (text ++ trail.text) = (after? lead text).map (· ++ trail.text) := by
  induction lead generalizing text with
  | nil => rfl
  | cons l lead ih =>
    obtain ⟨first, others⟩ := List.forall_mem_cons.mp visible
    cases text with
    | nil =>
      rcases trail.eq_nil_or_cons with none | ⟨rest, c, some, indent⟩
      · rw [none]
        rfl
      · have different : l ≠ c := by
          intro same
          rw [same, indent] at first
          cases first
        have missing : after? (l :: lead) (c :: rest.text) = none := by
          rw [after?, if_neg different]
        rw [some, List.nil_append, missing]
        rfl
    | cons c text =>
      rw [List.cons_append, after?, after?]
      split
      · exact ih others text
      · rfl

theorem contains_append {mark : List Char} (visible : ∀ c ∈ mark, isIndent c = false)
    (filled : mark ≠ []) (text : List Char) :
    contains mark (text ++ trail.text) = contains mark text := by
  have bare : ∀ trail : Trail, contains mark trail.text = false := by
    intro trail
    obtain ⟨first, rest, rfl⟩ := List.exists_cons_of_ne_nil filled
    refine Bool.eq_false_iff.mpr fun found => ?_
    have inside := ((contains_iff _ _).mp found).subset List.mem_cons_self
    exact trail.not_mem (visible first List.mem_cons_self) inside
  induction text with
  | nil =>
    rw [List.nil_append, bare trail]
    exact (bare ⟨[], by simp⟩).symm
  | cons c text ih =>
    have begins := trail.after?_append visible (c :: text)
    unfold contains at ih ⊢
    rw [List.cons_append] at begins ⊢
    rw [cutAt?, cutAt?, begins]
    cases after? mark (c :: text) with
    | none => simpa using ih
    | some rest => rfl

/-! ## Shapes of lines -/

theorem trimEnd_append (text : List Char) : trimEnd (text ++ trail.text) = trimEnd text :=
  trimEnd_append_blank text trail.text fun _ => trail.isBlank_of_mem

theorem isThematicBreak_append (text : List Char) :
    isThematicBreak (text ++ trail.text) = isThematicBreak text := by
  have hidden : trail.text.filter (fun c => !isIndent c) = [] := by
    simpa [List.filter_eq_nil_iff] using trail.invisible
  rw [isThematicBreak, isThematicBreak, List.filter_append, hidden, List.append_nil]

theorem isUnderline_append (text : List Char) :
    isUnderline (text ++ trail.text) = isUnderline text := by
  rw [isUnderline, isUnderline, trail.trimEnd_append]

theorem closesFence_append (mark : Char) (length : Nat) (text : List Char) :
    closesFence mark length (text ++ trail.text) = closesFence mark length text := by
  rw [closesFence, closesFence, trail.trimEnd_append]

theorem isHeading_append (text : List Char) : isHeading (text ++ trail.text) = isHeading text := by
  have signs : ∀ c, isIndent c = true → (c == '#') = false := by
    intro c indent
    rcases isIndent_cases indent with rfl | rfl <;> rfl
  have level := (trail.takeWhile_append signs text).1
  have short : (text.takeWhile (· == '#')).length ≤ text.length :=
    (List.takeWhile_prefix _).length_le
  rw [isHeading, isHeading, level]
  simp only [List.drop_append_of_le_length short, trail.endsOrIndented_append]

theorem fence?_append (text : List Char) : fence? (text ++ trail.text) = fence? text := by
  cases text with
  | nil => exact trail.apply_eq (f := fence?) rfl (fun _ => rfl) (fun _ => rfl)
  | cons mark text =>
    cases marks : mark == '\x60' || mark == '~' with
    | false => simp [fence?, marks]
    | true =>
      have visible : isIndent mark = false := by
        rcases (by simpa using marks : mark = '\x60' ∨ mark = '~') with rfl | rfl <;> rfl
      have stops : ∀ c, isIndent c = true → (c == mark) = false := by
        intro c indent
        refine beq_eq_false_iff_ne.mpr fun same => ?_
        rw [← same, indent] at visible
        cases visible
      obtain ⟨run, info⟩ := trail.takeWhile_append stops text
      have absent := trail.not_mem visible
      simp only [List.cons_append, fence?, run, info, List.contains_eq_mem, List.mem_append, absent,
        or_false]

theorem isQuotation_append (text : List Char) :
    isQuotation (text ++ trail.text) = isQuotation text := by
  cases text with
  | nil => exact trail.apply_eq (f := isQuotation) rfl (fun _ => rfl) (fun _ => rfl)
  | cons c text => rfl

theorem comment?_append (text : List Char) :
    comment? (text ++ trail.text) = (comment? text).map (· ++ trail.text) :=
  trail.after?_append (by simp [commentOpening, isIndent]) text

theorem contains_commentClosing_append (text : List Char) :
    contains commentClosing (text ++ trail.text) = contains commentClosing text :=
  trail.contains_append (by simp [commentClosing, isIndent]) (by decide) text

theorem opensMarkup_append (text : List Char) :
    opensMarkup (text ++ trail.text) = opensMarkup text := by
  match text with
  | [] => exact trail.apply_eq (f := opensMarkup) rfl (fun _ => rfl) (fun _ => rfl)
  | [c] =>
    by_cases opening : c = '<'
    · subst opening
      exact trail.apply_eq (f := fun text => opensMarkup ('<' :: text)) rfl (fun _ => rfl)
        (fun _ => rfl)
    · simp [opensMarkup, opening]
  | c :: next :: text =>
    by_cases opening : c = '<'
    · subst opening
      rfl
    · simp [opensMarkup, opening]

end Trail

/-! ## Indentation and markers -/

/-- The line with a trail. Of a line without content only the column can tell of it. -/
def Indented.followedBy (line : Indented) (trail : Trail) : Indented :=
  if line.text = [] then skipIndent line.column trail.text
  else ⟨line.column, line.text ++ trail.text⟩

def Marker.followedBy (m : Marker) (trail : Trail) : Marker :=
  { m with content := m.content.followedBy trail }

namespace Trail

variable (trail : Trail)

theorem text_skipIndent (column : Nat) : (skipIndent column trail.text).text = [] := by
  have skipped := Note.text_skipIndent trail.text [] trail.invisible (by simp) column
  rwa [List.append_nil] at skipped

theorem skipIndent_append (column : Nat) (text : List Char) :
    skipIndent column (text ++ trail.text) = (skipIndent column text).followedBy trail := by
  fun_induction skipIndent column text with
  | case1 column rest ih => exact ih
  | case2 column rest ih => exact ih
  | case3 column text noSpace noTab =>
    cases text with
    | nil => rfl
    | cons c text =>
      rw [List.cons_append, skipIndent, Indented.followedBy, if_neg (List.cons_ne_nil c text)]
      · rfl
      · exact fun _ same => noSpace _ (by rw [(List.cons.inj same).1])
      · exact fun _ same => noTab _ (by rw [(List.cons.inj same).1])

theorem isEmpty_followedBy (line : Indented) :
    (line.followedBy trail).text.isEmpty = line.text.isEmpty := by
  rw [Indented.followedBy]
  split
  · next empty => rw [trail.text_skipIndent, empty]
  · next filled =>
    have longer : line.text ++ trail.text ≠ [] := by simp [filled]
    rw [List.isEmpty_eq_false_iff.mpr longer, List.isEmpty_eq_false_iff.mpr filled]

theorem contentColumn_followedBy (m : Marker) :
    (m.followedBy trail).contentColumn = m.contentColumn := by
  have empty := trail.isEmpty_followedBy m.content
  rw [Marker.contentColumn, Marker.contentColumn, Marker.followedBy, empty]
  by_cases filled : m.content.text = []
  · simp [filled]
  · simp [Indented.followedBy, filled]

theorem markerHead?_append (text : List Char) : markerHead? (text ++ trail.text) =
    (markerHead? text).map fun (number, width, after) => (number, width, after ++ trail.text) := by
  have noDigit : ∀ c, isIndent c = true → c.isDigit = false := by
    intro c indent
    rcases isIndent_cases indent with rfl | rfl <;> rfl
  cases text with
  | nil => exact trail.apply_eq (f := markerHead?) rfl (fun _ => rfl) (fun _ => rfl)
  | cons c text =>
    obtain ⟨digits, after⟩ := trail.takeWhile_append noDigit (c :: text)
    rw [List.cons_append] at digits after ⊢
    cases bullet : isBullet c with
    | true => simp [markerHead?, bullet]
    | false =>
      simp only [markerHead?, bullet, Bool.false_eq_true, if_false, digits, after]
      cases first : (c :: text).takeWhile Char.isDigit with
      | nil => rfl
      | cons digit more =>
        cases rest : (c :: text).dropWhile Char.isDigit with
        | nil =>
          -- Nothing but digits: the trail does not close the number.
          rcases trail.eq_nil_or_cons with none | ⟨_, d, some, indent⟩
          · rw [none]
            rfl
          · rw [some]
            rcases isIndent_cases indent with rfl | rfl <;> simp
        | cons close others =>
          dsimp only [List.cons_append]
          split <;> rfl

theorem marker?_append (column : Nat) (text : List Char) :
    marker? ⟨column, text ++ trail.text⟩ =
      (marker? ⟨column, text⟩).map (·.followedBy trail) := by
  simp only [marker?, trail.markerHead?_append]
  cases markerHead? text with
  | none => rfl
  | some head =>
    obtain ⟨number, width, after⟩ := head
    simp only [Option.map_some, trail.endsOrIndented_append, trail.skipIndent_append]
    split <;> rfl

theorem interrupts_append (column : Nat) (text : List Char) :
    interrupts ⟨column, text ++ trail.text⟩ = interrupts ⟨column, text⟩ := by
  simp only [interrupts, trail.isThematicBreak_append, trail.isHeading_append,
    trail.fence?_append, trail.comment?_append, trail.isQuotation_append, trail.marker?_append,
    Option.isSome_map]
  cases marker? ⟨column, text⟩ with
  | none => rfl
  | some m => simp only [Option.map_some, Marker.followedBy, trail.isEmpty_followedBy]

/-! ## The scanner -/

/-- The same items are opened, and what is left of the line keeps the trail. -/
theorem openItems_append (items : List Nat) (line : Indented) :
    openItems items ⟨line.column, line.text ++ trail.text⟩ =
      ((openItems items line).1, (openItems items line).2.map (· ++ trail.text)) := by
  fun_induction openItems items line with
  | case1 items line stops =>
    rw [openItems.eq_1, trail.isThematicBreak_append, if_pos stops]
    rfl
  | case2 items line goesOn missing =>
    rw [openItems.eq_1, trail.isThematicBreak_append, if_neg goesOn]
    have none := trail.marker?_append line.column line.text
    rw [missing] at none
    split
    · rfl
    · next m found => cases none.symm.trans found
  | case3 items line goesOn m found empty =>
    rw [openItems.eq_1, trail.isThematicBreak_append, if_neg goesOn]
    have some := trail.marker?_append line.column line.text
    rw [found] at some
    have bare : (m.followedBy trail).content.text.isEmpty = true :=
      (trail.isEmpty_followedBy m.content).trans empty
    split
    · next missing => cases some.symm.trans missing
    · next m' found' =>
      obtain rfl := Option.some.inj (some.symm.trans found')
      rw [trail.contentColumn_followedBy, if_pos bare]
      rfl
  | case4 items line goesOn m found filled ih =>
    rw [openItems.eq_1, trail.isThematicBreak_append, if_neg goesOn]
    have some := trail.marker?_append line.column line.text
    rw [found] at some
    have left : m.content.text ≠ [] := by simpa using filled
    have content : (m.followedBy trail).content =
        ⟨m.content.column, m.content.text ++ trail.text⟩ := if_neg left
    split
    · next missing => cases some.symm.trans missing
    · next m' found' =>
      obtain rfl := Option.some.inj (some.symm.trans found')
      rw [trail.contentColumn_followedBy, content, if_neg (by simp [left])]
      exact ih

theorem openBlock_append (items : List Nat) (text : List Char) :
    openBlock items (text ++ trail.text) = openBlock items text := by
  simp only [openBlock, trail.fence?_append, trail.isHeading_append, trail.isQuotation_append,
    trail.comment?_append, trail.opensMarkup_append, trail.trimEnd_append]
  cases comment? text with
  | none => rfl
  | some rest =>
    simp only [Option.map_some, trail.contains_commentClosing_append]

theorem begin_append (items : List Nat) (column : Nat) (text : List Char) :
    Scanner.begin items ⟨column, text ++ trail.text⟩ = Scanner.begin items ⟨column, text⟩ := by
  rw [Scanner.begin, Scanner.begin, trail.openItems_append items ⟨column, text⟩]
  obtain ⟨opened, _ | left⟩ := openItems items ⟨column, text⟩
  · rfl
  · simp only [Option.map_some, trail.openBlock_append]

theorem content_append (s : Scanner) (column : Nat) (text : List Char) :
    s.content ⟨column, text ++ trail.text⟩ = s.content ⟨column, text⟩ := by
  obtain ⟨items, block⟩ := s
  cases block <;>
    simp only [Scanner.content, trail.begin_append, trail.closesFence_append,
      trail.contains_commentClosing_append, trail.isUnderline_append, trail.interrupts_append,
      trail.trimEnd_append]

/-- In no state does a trail change what the scanner does with a line. -/
theorem line_append (s : Scanner) (text : List Char) :
    s.line (text ++ trail.text) = s.line text := by
  rw [Scanner.line, Scanner.line, trail.skipIndent_append]
  rw [trail.isEmpty_followedBy]
  split
  · rfl
  · next filled =>
    rw [Indented.followedBy, if_neg (by simpa using filled), trail.content_append]

end Trail

theorem Scanner.paragraphs_followedBy (s : Scanner) (rows : List (Line × Trail)) :
    s.paragraphs (rows.map fun row => (row.1.followedBy row.2).text) =
      s.paragraphs (rows.map fun row => row.1.text) := by
  induction rows generalizing s with
  | nil => rfl
  | cons row rows ih =>
    have same : s.line (row.1.followedBy row.2).text = s.line row.1.text :=
      row.2.line_append s row.1.text
    rw [List.map_cons, List.map_cons, paragraphs, paragraphs, same, ih]

/-- Whatever spaces and tabs are put after the lines of a note, it declares the same rules. -/
theorem rules_followedBy (rows : List (Line × Trail)) :
    Note.rules (ofLines (rows.map fun row => row.1.followedBy row.2)) =
      Note.rules (ofLines (rows.map Prod.fst)) := by
  rw [rules_ofLines, rules_ofLines, List.map_map, List.map_map]
  exact congrArg rulesOf (Scanner.start.paragraphs_followedBy rows)

end BoardRules.Note
