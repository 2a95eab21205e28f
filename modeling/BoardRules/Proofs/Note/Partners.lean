import BoardRules.Note.Emphasis

/-!
# Partners of emphasis marks

Which runs of a paragraph give their marks to each other, said without changing the pieces: all runs
stay as they were cut, and all that is kept is the list of pairs made so far. The closers are taken
from left to right. Each takes the nearest run before it that may open for it, as often as it has
marks left and there is such a run. In the end every run is replaced by its brackets, one for each
pair that it has a part in, and the marks left over between them.

What may be paired is a parameter: the rule of three looks at both runs (`ruleOfThree`), the rule
that the paragraphs of this library follow looks at the closer alone (`closerRule`).
-/
namespace BoardRules.Note

/-- Marks of two runs that enclose emphasis: the places of the runs among the pieces, and how many
marks each of them gives. -/
structure Pair where
  opener : Nat
  closer : Nat
  marks : Nat
  deriving DecidableEq, Repr

/-! ## The rule of three -/

def Run.bothWays (r : Run) : Bool := r.canOpen && r.canClose

/-- The lengths do not add up to a multiple of three, or each of them is one. -/
def lengthsFit (opener closer : Run) : Bool :=
  !(opener.length + closer.length) % 3 == 0 || (opener.length % 3 == 0 && closer.length % 3 == 0)

/-- Lengths have to fit if one of the two runs can both open and close. -/
def ruleOfThree (opener closer : Run) : Bool :=
  !(opener.bothWays || closer.bothWays) || lengthsFit opener closer

/-- Lengths have to fit if the closer can both open and close. -/
def closerRule (opener closer : Run) : Bool := !closer.bothWays || lengthsFit opener closer

/-! ## Pairs -/

section

variable (rule : Run → Run → Bool) (pieces : List Piece) (pairs : List Pair)

def runAt? (place : Nat) : Option Run :=
  match pieces[place]? with
  | some (.run r) => some r
  | _ => none

/-- How many marks the run at a place has given away. -/
def used : List Pair → Nat → Nat
  | [], _ => 0
  | pair :: rest, place =>
    (if pair.opener = place ∨ pair.closer = place then pair.marks else 0) + used rest place

def marksLeft (place : Nat) : Nat :=
  match runAt? pieces place with
  | some r => r.length - used pairs place
  | none => 0

/-- Whether a place lies between the runs of a pair. -/
def enclosed (place : Nat) : Bool :=
  pairs.any fun pair => pair.opener < place && place < pair.closer

/-- Whether the run at a place may open for the closer at another. -/
def opensFor (closer opener : Nat) : Bool :=
  match runAt? pieces opener, runAt? pieces closer with
  | some o, some c =>
    o.mark == c.mark && o.canOpen && c.canClose && rule o c && 0 < marksLeft pieces pairs opener &&
      0 < marksLeft pieces pairs closer && !enclosed pairs opener
  | _, _ => false

/-- The last place before another that satisfies `p`. -/
def nearest? (p : Nat → Bool) : Nat → Option Nat
  | 0 => none
  | place + 1 => if p place then some place else nearest? p place

/-- Two marks of each run if both still have two. -/
def pairMarks (opener closer : Nat) : Nat :=
  if 2 ≤ marksLeft pieces pairs opener ∧ 2 ≤ marksLeft pieces pairs closer then 2 else 1

/-- The pairs of one closer are added, at most as many as the closer is tried. -/
def pairCloser (closer : Nat) : Nat → List Pair → List Pair
  | 0, pairs => pairs
  | tries + 1, pairs =>
    match nearest? (opensFor rule pieces pairs closer) closer with
    | some opener =>
      pairCloser closer tries (pairs ++ [⟨opener, closer, pairMarks pieces pairs opener closer⟩])
    | none => pairs

/-- The pairs whose closers stand before a place. -/
def pairsBefore : Nat → List Pair
  | 0 => []
  | place + 1 =>
    pairCloser rule pieces place (marksLeft pieces (pairsBefore place) place) (pairsBefore place)

def pairsOf : List Pair := pairsBefore rule pieces pieces.length

/-- Whether the two runs of a pair satisfy the rule. -/
def Pair.keeps (pair : Pair) : Bool :=
  match runAt? pieces pair.opener, runAt? pieces pair.closer with
  | some opener, some closer => rule opener closer
  | _, _ => false

end

/-! ## The tree -/

/-- A piece, or the beginning or the end of an emphasised stretch. -/
inductive Bracket where
  | opening
  | piece (p : Piece)
  | closing (marks : Nat)

section

variable (pieces : List Piece) (pairs : List Pair)

def openings (place : Nat) : List Bracket :=
  List.replicate (pairs.countP fun pair => pair.opener = place) .opening

def closings (place : Nat) : List Bracket :=
  (pairs.filter fun pair => pair.closer = place).map fun pair => .closing pair.marks

/-- What is left of a run. As all closers have been tried, it closes nothing any more. -/
def Run.leftover (r : Run) (marks : Nat) : Run := { r with remaining := marks, canClose := false }

/-- What stands at a place besides brackets: a piece that is no run, or the marks left of a run. -/
def core (place : Nat) : List Bracket :=
  match pieces[place]? with
  | some (.run r) =>
    if marksLeft pieces pairs place = 0 then []
    else [.piece (.run (r.leftover (marksLeft pieces pairs place)))]
  | some p => [.piece p]
  | none => []

/-- A run closes what it encloses on its left before it opens anything on its right. -/
def brackets (place : Nat) : List Bracket :=
  closings pairs place ++ (core pieces pairs place ++ openings pairs place)

end

/-- Puts pieces into the emphasised stretches around them. `inner` holds the pieces of the innermost
open stretch, last piece first, `outer` those of the stretches around it. -/
def nest (inner : List Piece) : List (List Piece) → List Bracket → List Piece
  | _, [] => inner.reverse
  | outer, .piece p :: rest => nest (p :: inner) outer rest
  | outer, .opening :: rest => nest [] (inner :: outer) rest
  | level :: outer, .closing marks :: rest => nest (.wrap marks inner.reverse :: level) outer rest
  | [], .closing marks :: rest => nest [.wrap marks inner.reverse] [] rest

/-- The pieces with their pairs carried out. -/
def tree (pieces : List Piece) (pairs : List Pair) : List Piece :=
  nest [] [] ((List.range pieces.length).flatMap (brackets pieces pairs))

end BoardRules.Note
