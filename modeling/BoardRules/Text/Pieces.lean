import BoardRules.Text.Blank

/-!
# Cutting texts

A text is cut into pieces at every separator; words and lines are pieces with their own rule for
what is left over.
-/
namespace BoardRules.Text

/-- The pieces between the elements that satisfy `p`; a text without any is one piece. -/
def pieces (p : α → Bool) : List α → List (List α)
  | [] => [[]]
  | x :: xs =>
    if p x then [] :: pieces p xs
    else match pieces p xs with
      | [] => [[x]]
      | piece :: rest => (x :: piece) :: rest

theorem pieces_ne_nil (p : α → Bool) (xs : List α) : pieces p xs ≠ [] := by
  cases xs with
  | nil => simp [pieces]
  | cons x xs =>
    unfold pieces
    split
    · simp
    · split <;> simp

/-- The maximal runs without a blank. -/
def words (cs : List Char) : List (List Char) :=
  (pieces isBlank cs).filter (fun piece => !piece.isEmpty)

/-- A line feed ends a line, together with one carriage return right before it. -/
def endedLine (cs : List Char) : List Char :=
  if cs.getLast? = some '\r' then cs.dropLast else cs

/-- All pieces but the last were ended by a line feed; an empty last piece is no line. -/
def linesOfPieces : List (List Char) → List (List Char)
  | [] => []
  | [piece] => if piece.isEmpty then [] else [piece]
  | piece :: rest => endedLine piece :: linesOfPieces rest

def lines (cs : List Char) : List (List Char) := linesOfPieces (pieces (· == '\n') cs)

/-- What follows `lead`, if the text begins with it. -/
def after? [DecidableEq α] : (lead xs : List α) → Option (List α)
  | [], xs => some xs
  | _ :: _, [] => none
  | l :: lead, x :: xs => if l = x then after? lead xs else none

/-- The text before and after the first occurrence of `mark`. -/
def cutAt? [DecidableEq α] (mark : List α) : List α → Option (List α × List α)
  | [] => (after? mark []).map fun rest => ([], rest)
  | x :: xs =>
    match after? mark (x :: xs) with
    | some rest => some ([], rest)
    | none => (cutAt? mark xs).map fun (before, rest) => (x :: before, rest)

/-- Whether `mark` occurs somewhere in the text. -/
def contains [DecidableEq α] (mark xs : List α) : Bool := (cutAt? mark xs).isSome

theorem length_after? [DecidableEq α] {lead xs rest : List α} (h : after? lead xs = some rest) :
    xs.length = lead.length + rest.length := by
  induction lead generalizing xs with
  | nil => simp [after?] at h; simp [h]
  | cons l lead ih =>
    cases xs with
    | nil => simp [after?] at h
    | cons x xs =>
      simp only [after?] at h
      split at h
      · simp [ih h]; omega
      · simp at h

end BoardRules.Text
