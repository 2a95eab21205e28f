import BoardRules.Text.Alphanumeric
import BoardRules.Text.Pieces

/-!
# Inline text

A paragraph is first cut into pieces: plain text, code spans, line breaks and runs of emphasis
marks. A run knows from its neighbours whether it can open or close emphasis.
-/
namespace BoardRules.Note

open Text

def backtick : Char := '\x60'

/-- A run of equal emphasis marks. -/
structure Run where
  mark : Char
  /-- The marks not yet used up. -/
  remaining : Nat
  length : Nat
  canOpen : Bool
  canClose : Bool
  deriving DecidableEq, Repr

inductive Piece where
  | text (cs : List Char)
  | code (cs : List Char)
  | lineBreak
  | run (r : Run)
  | strong (inner : List Piece)
  | emphasis (inner : List Piece)
  deriving Repr

/-- Emphasis is settled: marks without a partner are text. -/
inductive Inline where
  | text (cs : List Char)
  | code (cs : List Char)
  | lineBreak
  | strong (inner : List Inline)
  | emphasis (inner : List Inline)
  deriving Repr

/-- How long the run of `c` is that continues into the text. -/
def runLength (c : Char) (rest : List Char) : Nat := (rest.takeWhile (· == c)).length + 1

def afterRun (c : Char) (rest : List Char) : List Char := rest.dropWhile (· == c)

theorem length_afterRun_le (c : Char) (rest : List Char) : (afterRun c rest).length ≤ rest.length :=
  (List.dropWhile_sublist _).length_le

/-! ## Code spans -/

/-- The text up to the next run of exactly `length` backticks, and the text after that run. -/
def closeCode? (length : Nat) : List Char → Option (List Char × List Char)
  | [] => none
  | c :: rest =>
    if c ≠ backtick then (closeCode? length rest).map fun (code, after) => (c :: code, after)
    else if runLength c rest = length then some ([], afterRun c rest)
    else
      (closeCode? length (afterRun c rest)).map fun (code, after) =>
        (List.replicate (runLength c rest) c ++ code, after)
termination_by cs => cs.length
decreasing_by
  · exact Nat.lt_succ_self _
  · exact Nat.lt_succ_of_le (length_afterRun_le _ _)

/-- Line feeds count as spaces; one space on each side is dropped if there is more than spaces. -/
def codeText (cs : List Char) : List Char :=
  let spaced := cs.map fun c => if c = '\n' then ' ' else c
  if spaced.all (· == ' ') then spaced
  else if spaced.head? = some ' ' ∧ spaced.getLast? = some ' ' then spaced.tail.dropLast
  else spaced

/-! ## Runs of marks -/

/-- Whether a run between the two neighbours can open, and whether it can close. The ends of the
paragraph count as blanks. -/
def flanking (mark : Char) (before after : Option Char) : Bool × Bool :=
  let beforeBlank := (before.map isBlank).getD true
  let afterBlank := (after.map isBlank).getD true
  let beforePunctuation := (before.map isPunctuation).getD false
  let afterPunctuation := (after.map isPunctuation).getD false
  let left := !afterBlank && (!afterPunctuation || beforeBlank || beforePunctuation)
  let right := !beforeBlank && (!beforePunctuation || afterBlank || afterPunctuation)
  if mark = '_' then (left && (!right || beforePunctuation), right && (!left || afterPunctuation))
  else (left, right)

def Run.between (mark : Char) (length : Nat) (before after : Option Char) : Run :=
  let (canOpen, canClose) := flanking mark before after
  ⟨mark, length, length, canOpen, canClose⟩

/-! ## Pieces of a paragraph -/

/-- The piece for the text collected so far, which is kept last character first. -/
def flushText (pending : List Char) : List Piece :=
  if pending.isEmpty then [] else [.text pending.reverse]

theorem length_closeCode_lt {length : Nat} {cs code after : List Char}
    (h : closeCode? length cs = some (code, after)) : after.length < cs.length := by
  fun_induction closeCode? length cs generalizing code with
  | case1 => simp at h
  | case2 c rest _ ih =>
    simp only [Option.map_eq_some_iff, Prod.exists, Prod.mk.injEq] at h
    obtain ⟨code', after', found, _, rfl⟩ := h
    exact Nat.lt_succ_of_lt (ih found)
  | case3 c rest =>
    simp only [Option.some.injEq, Prod.mk.injEq] at h
    exact h.2 ▸ Nat.lt_succ_of_le (length_afterRun_le _ _)
  | case4 c rest _ _ ih =>
    simp only [Option.map_eq_some_iff, Prod.exists, Prod.mk.injEq] at h
    obtain ⟨code', after', found, _, rfl⟩ := h
    exact Nat.lt_succ_of_lt (Nat.lt_of_lt_of_le (ih found) (length_afterRun_le _ _))

/-- The pieces of a text that follows the character `before`; `pending` is text already read that
no piece holds yet, last character first. -/
def piecesAfter (before : Option Char) (pending : List Char) : List Char → List Piece
  | [] => flushText pending
  | '\\' :: '\n' :: rest => flushText pending ++ .lineBreak :: piecesAfter (some '\n') [] rest
  | '\\' :: c :: rest =>
    if isAsciiPunctuation c then piecesAfter (some c) (c :: pending) rest
    else piecesAfter (some '\\') ('\\' :: pending) (c :: rest)
  | '\n' :: rest =>
    flushText (pending.dropWhile (· == ' ')) ++ .lineBreak :: piecesAfter (some '\n') [] rest
  | c :: rest =>
    if c = backtick then
      match _found : closeCode? (runLength c rest) (afterRun c rest) with
      | some (code, after) =>
        flushText pending ++ .code (codeText code) :: piecesAfter (some c) [] after
      | none =>
        piecesAfter (some c) (List.replicate (runLength c rest) c ++ pending) (afterRun c rest)
    else if c = '*' ∨ c = '_' then
      flushText pending ++
        .run (.between c (runLength c rest) before (afterRun c rest).head?) ::
          piecesAfter (some c) [] (afterRun c rest)
    else piecesAfter (some c) (c :: pending) rest
termination_by cs => cs.length
decreasing_by
  · simp only [List.length_cons]; omega
  · simp only [List.length_cons]; omega
  · simp
  · simp
  · exact Nat.lt_succ_of_lt
      (Nat.lt_of_lt_of_le (length_closeCode_lt _found) (length_afterRun_le _ _))
  · exact Nat.lt_succ_of_le (length_afterRun_le _ _)
  · exact Nat.lt_succ_of_le (length_afterRun_le _ _)
  · simp

/-- The pieces of a whole paragraph. -/
def Piece.ofText (paragraph : List Char) : List Piece := piecesAfter none [] paragraph

end BoardRules.Note
