import BoardRules.Note.Inline

/-!
# Emphasis

Runs of marks are paired from left to right: each run that can close takes the nearest run before
it that can open for it, two marks from both if both have two, one otherwise, and what lies between
becomes one piece. A closer is tried again while it has marks. Marks that find no partner are text.
-/
namespace BoardRules.Note

/-- Two runs do not pair if one of them can both open and close and their lengths add up to a
multiple of three, unless both lengths are multiples of three. -/
def Run.rulesOut (opener closer : Run) : Bool :=
  (opener.canClose || closer.canOpen) && (opener.length + closer.length) % 3 == 0 &&
    !(opener.length % 3 == 0 && closer.length % 3 == 0)

def Run.opensFor (opener closer : Run) : Bool :=
  opener.mark == closer.mark && opener.canOpen && 0 < opener.remaining && !opener.rulesOut closer

/-- Looks for the opener of a closer among the pieces before it, nearest first. The pieces nearer
than the opener and those farther away come with it. -/
def findOpener? (closer : Run) : List Piece → Option (List Piece × Run × List Piece)
  | [] => none
  | .run r :: farther =>
    if r.opensFor closer then some ([], r, farther)
    else (findOpener? closer farther).map fun (inner, opener, farther) =>
      (.run r :: inner, opener, farther)
  | piece :: farther =>
    (findOpener? closer farther).map fun (inner, opener, farther) =>
      (piece :: inner, opener, farther)

/-- How many marks a pair uses up on each side. -/
def Run.pairLength (opener closer : Run) : Nat :=
  if 2 ≤ opener.remaining ∧ 2 ≤ closer.remaining then 2 else 1

/-- The run without `n` of its marks, gone when none is left. -/
def Run.spend (r : Run) (n : Nat) : List Piece :=
  if r.remaining - n = 0 then [] else [.run { r with remaining := r.remaining - n }]

/-- One pair of marks makes emphasis, two make it strong. -/
def Piece.wrap (n : Nat) (inner : List Piece) : Piece :=
  if n = 2 then .strong inner else .emphasis inner

def Piece.weight : Piece → Nat
  | .run r => r.remaining + 1
  | _ => 1

def weight : List Piece → Nat
  | [] => 0
  | piece :: rest => piece.weight + weight rest

theorem weight_spend_lt (r : Run) {n : Nat} (pos : 0 < n) (rest : List Piece) :
    weight (r.spend n ++ rest) < weight (.run r :: rest) := by
  unfold Run.spend
  split
  · simp [weight, Piece.weight]
  · simp [weight, Piece.weight]; omega

theorem pairLength_pos (opener closer : Run) : 0 < opener.pairLength closer := by
  unfold Run.pairLength; split <;> decide

/-- Pairs the runs of the pieces ahead with those in `before`, which is kept nearest first. A
closer that found no opener is no longer one. -/
def pairRuns (before : List Piece) : List Piece → List Piece
  | [] => before.reverse
  | .run closer :: rest =>
    if closer.canClose then
      match findOpener? closer before with
      | some (inner, opener, farther) =>
        pairRuns
          (.wrap (opener.pairLength closer) inner.reverse ::
            (opener.spend (opener.pairLength closer) ++ farther))
          (closer.spend (opener.pairLength closer) ++ rest)
      | none => pairRuns (.run { closer with canClose := false } :: before) rest
    else pairRuns (.run closer :: before) rest
  | piece :: rest => pairRuns (piece :: before) rest
termination_by ahead => weight ahead
decreasing_by
  · exact weight_spend_lt _ (pairLength_pos _ _) _
  · simp [weight, Piece.weight]
  · simp [weight, Piece.weight]
  · cases piece <;> simp [weight, Piece.weight]

/-! ## Settled text -/

/-- Puts a node in front of others; neighbouring texts become one. -/
def Inline.before : Inline → List Inline → List Inline
  | .text a, .text b :: rest => .text (a ++ b) :: rest
  | node, rest => node :: rest

mutual

/-- Marks that found no partner are text. -/
def Piece.settle : Piece → Inline
  | .text cs => .text cs
  | .code cs => .code cs
  | .lineBreak => .lineBreak
  | .run r => .text (List.replicate r.remaining r.mark)
  | .strong inner => .strong (settleAll inner)
  | .emphasis inner => .emphasis (settleAll inner)

def settleAll : List Piece → List Inline
  | [] => []
  | piece :: rest => piece.settle.before (settleAll rest)

end

def Inline.ofText (paragraph : List Char) : List Inline :=
  settleAll (pairRuns [] (Piece.ofText paragraph))

end BoardRules.Note
