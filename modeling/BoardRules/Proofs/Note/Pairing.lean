import BoardRules.Proofs.Note.PairedText
import BoardRules.Proofs.Note.Partners
import Mathlib.Data.List.Infix
import Mathlib.Data.List.Range

/-!
# Pairing follows the partners

While the pieces of a paragraph are read, the list of pieces before a place stands for the brackets
of all places before it: the runs in it are those that may still open, and whatever lies between two
of them is what the brackets between their places make (`Laid`). Every step of `pairRuns` keeps
this. A closer finds the run that is its partner (`findOpener?_laid`), the pair that is made puts an
opening bracket at one place and a closing one at the other (`OpensAt.laid_pair`), and a place is
left when its closer has found all its partners (`pairRuns_closer`). So the pieces that are left at
the end are the tree of the pairs (`pairRuns_laid`).
-/
namespace BoardRules.Note

/-! ## Bracket sequences -/

/-- The brackets are balanced, and what they enclose and hold makes the given pieces. -/
def Forms (bs : List Bracket) (ps : List Piece) : Prop :=
  ∀ inner outer rest, nest inner outer (bs ++ rest) = nest (ps.reverse ++ inner) outer rest

namespace Forms

variable {bs bs' : List Bracket} {ps ps' : List Piece}

theorem nil : Forms [] [] := fun _ _ _ => rfl

theorem piece (p : Piece) : Forms [.piece p] [p] := fun _ outer _ => by
  cases outer <;> rfl

theorem append (first : Forms bs ps) (second : Forms bs' ps') : Forms (bs ++ bs') (ps ++ ps') := by
  intro inner outer rest
  rw [List.append_assoc, first, second, List.reverse_append, List.append_assoc]

theorem wrap (forms : Forms bs ps) (marks : Nat) :
    Forms (.opening :: (bs ++ [.closing marks])) [.wrap marks ps] := by
  intro inner outer rest
  have opened : nest inner outer (.opening :: (bs ++ (.closing marks :: rest))) =
      nest [] (inner :: outer) (bs ++ (.closing marks :: rest)) := by cases outer <;> rfl
  rw [List.cons_append, List.append_assoc, List.singleton_append, opened, forms, List.append_nil,
    nest, List.reverse_reverse]
  rfl

end Forms

/-! ## Places -/

section

variable {rule : Run → Run → Bool} {pieces : List Piece} {pairs : List Pair}

theorem nearest?_eq_some {p : Nat → Bool} {bound place : Nat} (below : place < bound)
    (holds : p place = true) (others : ∀ i, place < i → i < bound → p i = false) :
    nearest? p bound = some place := by
  induction bound with
  | zero => omega
  | succ bound ih =>
    by_cases last : place = bound
    · rw [nearest?, ← last, if_pos holds]
    · rw [nearest?, others bound (by omega) (by omega), if_neg Bool.false_ne_true]
      exact ih (by omega) fun i above inside => others i above (by omega)

theorem nearest?_eq_none {p : Nat → Bool} {bound : Nat} :
    nearest? p bound = none ↔ ∀ i < bound, p i = false := by
  induction bound with
  | zero => simp [nearest?]
  | succ bound ih =>
    rw [nearest?]
    cases last : p bound with
    | true =>
      refine ⟨fun nothing => (by cases nothing), fun none => ?_⟩
      exact absurd (last.symm.trans (none bound (Nat.lt_succ_self bound))) (by decide)
    | false =>
      rw [if_neg Bool.false_ne_true, ih]
      refine ⟨fun none i inside => ?_, fun none i inside => none i (by omega)⟩
      rcases Nat.lt_succ_iff_lt_or_eq.mp inside with below | rfl
      · exact none i below
      · exact last

theorem of_nearest? {p : Nat → Bool} {bound place : Nat} (found : nearest? p bound = some place) :
    place < bound ∧ p place = true ∧ ∀ i, place < i → i < bound → p i = false := by
  induction bound with
  | zero => cases found
  | succ bound ih =>
    rw [nearest?] at found
    split at found
    · next holds =>
      obtain rfl := Option.some.inj found
      exact ⟨Nat.lt_succ_self _, holds, fun i above inside => by omega⟩
    · next fails =>
      obtain ⟨below, holds, others⟩ := ih found
      refine ⟨by omega, holds, fun i above inside => ?_⟩
      rcases Nat.lt_succ_iff_lt_or_eq.mp inside with lower | rfl
      · exact others i above lower
      · simpa using fails

/-! ## One more pair -/

variable (pair : Pair) (place : Nat)

theorem openings_append : openings (pairs ++ [pair]) place =
    if pair.opener = place then .opening :: openings pairs place else openings pairs place := by
  by_cases opens : pair.opener = place
  · simp [openings, List.countP_append, opens, List.replicate_succ]
  · simp [openings, List.countP_append, opens]

theorem closings_append : closings (pairs ++ [pair]) place =
    closings pairs place ++ if pair.closer = place then [.closing pair.marks] else [] := by
  by_cases closes : pair.closer = place
  · simp [closings, List.filter_append, closes]
  · simp [closings, List.filter_append, closes]

theorem used_append : used (pairs ++ [pair]) place =
    used pairs place + if pair.opener = place ∨ pair.closer = place then pair.marks else 0 := by
  induction pairs with
  | nil => simp [used]
  | cons first pairs ih => rw [List.cons_append, used, used, ih, Nat.add_assoc]

theorem enclosed_append : enclosed (pairs ++ [pair]) place =
    (enclosed pairs place || (pair.opener < place && place < pair.closer)) := by
  simp [enclosed]

end

/-! ## Stretches of brackets -/

section

variable (pieces : List Piece) (pairs : List Pair)

/-- The brackets of the places from `lo` on, up to what stands at `hi` itself. -/
def upTo (lo hi : Nat) : List Bracket :=
  (List.range' lo (hi - lo)).flatMap (brackets pieces pairs) ++ closings pairs hi

theorem upTo_self (place : Nat) : upTo pieces pairs place place = closings pairs place := by
  simp [upTo]

theorem upTo_split {lo mid hi : Nat} (above : lo ≤ mid) (below : mid < hi) :
    upTo pieces pairs lo hi = upTo pieces pairs lo mid ++
      (core pieces pairs mid ++ (openings pairs mid ++ upTo pieces pairs (mid + 1) hi)) := by
  have range : List.range' lo (hi - lo) =
      List.range' lo (mid - lo) ++ mid :: List.range' (mid + 1) (hi - (mid + 1)) := by
    have first := List.range'_append_1 (s := lo) (m := mid - lo) (n := hi - mid)
    have next : List.range' mid (hi - mid) = mid :: List.range' (mid + 1) (hi - (mid + 1)) := by
      rw [show hi - mid = hi - (mid + 1) + 1 by omega, List.range'_succ]
    rw [show lo + (mid - lo) = mid by omega, show mid - lo + (hi - mid) = hi - lo by omega] at first
    rw [← first, next]
  simp only [upTo, range, List.flatMap_append, List.flatMap_cons, brackets, List.append_assoc]

/-- A run that is still there for closers: it has marks left and stands in no pair. -/
structure Available (place : Nat) (r : Run) : Prop where
  here : runAt? pieces place = some r
  unspent : 0 < marksLeft pieces pairs place
  free : enclosed pairs place = false

/-- The pieces read so far, nearest first, are what the brackets before a place make: its runs are
the available ones, and between two of them lies what their brackets enclose. -/
inductive Laid : Nat → List Piece → Prop
  | base {hi : Nat} {inner : List Piece} (none : ∀ i < hi, ∀ r, ¬ Available pieces pairs i r)
      (noRuns : NoRuns inner) (forms : Forms (upTo pieces pairs 0 hi) inner.reverse) : Laid hi inner
  | run {place hi : Nat} {r : Run} {inner farther : List Piece} (laid : Laid place farther)
      (below : place < hi) (available : Available pieces pairs place r)
      (none : ∀ i, place < i → i < hi → ∀ r, ¬ Available pieces pairs i r) (noRuns : NoRuns inner)
      (forms : Forms (openings pairs place ++ upTo pieces pairs (place + 1) hi) inner.reverse) :
      Laid hi (inner ++ .run (r.leftover (marksLeft pieces pairs place)) :: farther)

end

section

variable {pieces : List Piece} {pairs : List Pair}

theorem core_run {place : Nat} {r : Run} (here : runAt? pieces place = some r) :
    core pieces pairs place = if marksLeft pieces pairs place = 0 then []
      else [.piece (.run (r.leftover (marksLeft pieces pairs place)))] := by
  unfold runAt? at here
  unfold core
  split at here
  · next r' at_place =>
    obtain rfl := Option.some.inj here
    rw [at_place]
  · cases here

theorem Available.core {place : Nat} {r : Run} (available : Available pieces pairs place r) :
    core pieces pairs place = [.piece (.run (r.leftover (marksLeft pieces pairs place)))] := by
  have unspent := available.unspent
  rw [core_run available.here, if_neg (by omega)]

namespace Laid

/-- All that has been read is what the brackets make. -/
theorem forms {hi : Nat} {before : List Piece} (laid : Laid pieces pairs hi before) :
    Forms (upTo pieces pairs 0 hi) before.reverse := by
  induction laid with
  | base _ _ forms => exact forms
  | run _ below available _ _ forms ih =>
    rw [upTo_split pieces pairs (Nat.zero_le _) below, available.core, List.reverse_append,
      List.reverse_cons, List.append_assoc]
    exact ih.append ((Forms.piece _).append forms)

/-- Places whose run is spent or missing add pieces that hold no run. -/
theorem extend {lo hi : Nat} {before added : List Piece} (laid : Laid pieces pairs lo before)
    (below : lo < hi) (none : ∀ i, lo ≤ i → i < hi → ∀ r, ¬ Available pieces pairs i r)
    (noRuns : NoRuns added)
    (forms : Forms (core pieces pairs lo ++ (openings pairs lo ++ upTo pieces pairs (lo + 1) hi))
      added.reverse) : Laid pieces pairs hi (added ++ before) := by
  cases laid with
  | base others apart first =>
    refine .base (fun i inside => ?_) (noRuns.append apart) ?_
    · rcases Nat.lt_or_ge i lo with lower | upper
      · exact others i lower
      · exact none i upper inside
    · rw [upTo_split pieces pairs (Nat.zero_le lo) below, List.reverse_append]
      exact first.append forms
  | run laid lower available others apart first =>
    rw [← List.append_assoc]
    refine .run laid (by omega) available (fun i above inside => ?_) (noRuns.append apart) ?_
    · rcases Nat.lt_or_ge i lo with less | upper
      · exact others i above less
      · exact none i upper inside
    · rw [upTo_split pieces pairs (Nat.succ_le_of_lt lower) below, List.reverse_append,
        ← List.append_assoc]
      exact first.append forms

end Laid

end

/-! ## One closer -/

/-- The run with so many of its marks left. -/
def Run.having (r : Run) (marks : Nat) : Run := { r with remaining := marks }

theorem Run.spend_having (r : Run) (left n : Nat) :
    (r.having left).spend n = if left - n = 0 then [] else [.run (r.having (left - n))] := rfl

theorem Run.spend_leftover (r : Run) (left n : Nat) :
    (r.leftover left).spend n = if left - n = 0 then [] else [.run (r.leftover (left - n))] := rfl

section

variable {pieces : List Piece} {pairs : List Pair} {place closing : Nat} {r closer : Run}

theorem opensFor_leftover (available : Available pieces pairs place r)
    (here : runAt? pieces closing = some closer) (closes : closer.canClose = true)
    (unspent : 0 < marksLeft pieces pairs closing) :
    (r.leftover (marksLeft pieces pairs place)).opensFor
        (closer.having (marksLeft pieces pairs closing)) =
      opensFor closerRule pieces pairs closing place := by
  simp only [opensFor, available.here, here, closes, available.free, available.unspent, unspent,
    Run.opensFor, Run.leftover, Run.having, Run.rulesOut, closerRule, Run.bothWays, lengthsFit]
  cases closer.canOpen <;> simp

theorem not_opensFor (unavailable : ∀ r, ¬ Available pieces pairs place r)
    (rule : Run → Run → Bool) : opensFor rule pieces pairs closing place = false := by
  rw [Bool.eq_false_iff]
  intro opens
  unfold opensFor at opens
  split at opens
  · next o c here there =>
    simp only [Bool.and_eq_true, decide_eq_true_eq, Bool.not_eq_true'] at opens
    exact unavailable o ⟨here, opens.1.1.2, opens.2⟩
  · cases opens

/-- The run at `place` is the one that opens for a closer, among the pieces before `hi`: it is the
nearest one that may, and what lies nearer is what the brackets between the two make. -/
structure OpensAt (pieces : List Piece) (pairs : List Pair) (closing hi place : Nat) (r : Run)
    (inner farther : List Piece) : Prop where
  below : place < hi
  available : Available pieces pairs place r
  opens : opensFor closerRule pieces pairs closing place = true
  nearest : ∀ i, place < i → i < hi → opensFor closerRule pieces pairs closing i = false
  laid : Laid pieces pairs place farther
  forms : Forms (openings pairs place ++ upTo pieces pairs (place + 1) hi) inner.reverse

theorem findOpener?_laid {hi : Nat} {before : List Piece} (laid : Laid pieces pairs hi before)
    (here : runAt? pieces closing = some closer) (closes : closer.canClose = true)
    (unspent : 0 < marksLeft pieces pairs closing) :
    match findOpener? (closer.having (marksLeft pieces pairs closing)) before with
    | none => ∀ i < hi, opensFor closerRule pieces pairs closing i = false
    | some (inner, opener, farther) => ∃ place r,
        opener = r.leftover (marksLeft pieces pairs place) ∧
          OpensAt pieces pairs closing hi place r inner farther := by
  induction laid with
  | @base hi inner none noRuns forms =>
    rw [noRuns.findOpener?_eq_none]
    exact fun i inside => not_opensFor (none i inside) _
  | @run place hi r inner farther laid below available none noRuns forms ih =>
    rw [findOpener?_append (noRuns.findOpener?_eq_none _), findOpener?,
      opensFor_leftover available here closes unspent]
    cases opens : opensFor closerRule pieces pairs closing place with
    | true =>
      simp only [if_true, Option.map_some, List.append_nil]
      exact ⟨place, r, rfl, below, available, opens,
        fun i above inside => not_opensFor (none i above inside) _, laid, forms⟩
    | false =>
      have notAbove : ∀ i, place ≤ i → i < hi →
          opensFor closerRule pieces pairs closing i = false := by
        intro i above inside
        rcases Nat.eq_or_lt_of_le above with rfl | upper
        · exact opens
        · exact not_opensFor (none i upper inside) _
      rw [if_neg Bool.false_ne_true, Option.map_map]
      cases found : findOpener? (closer.having (marksLeft pieces pairs closing)) farther with
      | none =>
        rw [found] at ih
        intro i inside
        rcases Nat.lt_or_ge i place with lower | upper
        · exact ih i lower
        · exact notAbove i upper inside
      | some triple =>
        obtain ⟨nearer, opener, rest⟩ := triple
        rw [found] at ih
        obtain ⟨place', r', opener', there⟩ := ih
        refine ⟨place', r', opener', Nat.lt_trans there.below below, there.available, there.opens,
          fun i above inside => ?_, there.laid, ?_⟩
        · rcases Nat.lt_or_ge i place with lower | upper
          · exact there.nearest i above lower
          · exact notAbove i upper inside
        · rw [upTo_split pieces pairs (Nat.succ_le_of_lt there.below) below, available.core,
            ← List.append_assoc]
          simpa using there.forms.append ((Forms.piece _).append forms)

end

/-! ## What a new pair leaves as it is -/

section

variable {pieces : List Piece} {pairs : List Pair} {pair : Pair}

theorem marksLeft_append_pair {i : Nat} {r : Run} (here : runAt? pieces i = some r) :
    marksLeft pieces (pairs ++ [pair]) i = marksLeft pieces pairs i -
      if pair.opener = i ∨ pair.closer = i then pair.marks else 0 := by
  simp only [marksLeft, here, used_append]
  omega

theorem core_append_pair {i : Nat} (opener : pair.opener ≠ i) (closer : pair.closer ≠ i) :
    core pieces (pairs ++ [pair]) i = core pieces pairs i := by
  have same : marksLeft pieces (pairs ++ [pair]) i = marksLeft pieces pairs i := by
    simp [marksLeft, used_append, opener, closer]
  unfold core
  rw [same]

/-- Away from its runs a pair adds no brackets. -/
theorem upTo_append_pair {lo hi : Nat}
    (away : ∀ i, lo ≤ i → i < hi → pair.opener ≠ i ∧ pair.closer ≠ i) :
    upTo pieces (pairs ++ [pair]) lo hi = upTo pieces pairs lo hi ++
      if pair.closer = hi then [.closing pair.marks] else [] := by
  have same : (List.range' lo (hi - lo)).flatMap (brackets pieces (pairs ++ [pair])) =
      (List.range' lo (hi - lo)).flatMap (brackets pieces pairs) := by
    refine List.flatMap_congr fun i member => ?_
    obtain ⟨above, inside⟩ := List.mem_range'_1.mp member
    obtain ⟨opener, closer⟩ := away i above (by omega)
    rw [brackets, brackets, closings_append, openings_append, if_neg opener, if_neg closer,
      core_append_pair opener closer, List.append_nil]
  rw [upTo, upTo, same, closings_append, List.append_assoc]

theorem available_append_pair {i : Nat} {r : Run} (below : i < pair.opener)
    (ordered : pair.opener < pair.closer) :
    Available pieces (pairs ++ [pair]) i r ↔ Available pieces pairs i r := by
  have left : marksLeft pieces (pairs ++ [pair]) i = marksLeft pieces pairs i := by
    simp only [marksLeft, used_append, if_neg (show ¬ (pair.opener = i ∨ pair.closer = i) by omega),
      Nat.add_zero]
  have free : enclosed (pairs ++ [pair]) i = enclosed pairs i := by
    rw [enclosed_append, decide_eq_false (show ¬ pair.opener < i by omega), Bool.false_and,
      Bool.or_false]
  exact ⟨fun h => ⟨h.here, left ▸ h.unspent, free ▸ h.free⟩,
    fun h => ⟨h.here, left.symm ▸ h.unspent, free.symm ▸ h.free⟩⟩

/-- What lies before the opener of a pair stays. -/
theorem Laid.append_pair {hi : Nat} {before : List Piece} (laid : Laid pieces pairs hi before)
    (below : hi ≤ pair.opener) (ordered : pair.opener < pair.closer) :
    Laid pieces (pairs ++ [pair]) hi before := by
  have stretch : ∀ lo hi, hi ≤ pair.opener →
      upTo pieces (pairs ++ [pair]) lo hi = upTo pieces pairs lo hi := by
    intro lo hi below
    rw [upTo_append_pair fun i _ inside => by omega, if_neg (by omega), List.append_nil]
  induction laid with
  | base none noRuns forms =>
    refine .base (fun i inside r available => ?_) noRuns (by rwa [stretch _ _ below])
    exact none i inside r ((available_append_pair (by omega) ordered).mp available)
  | @run place hi r inner farther laid lower available none noRuns forms ih =>
    have left : marksLeft pieces (pairs ++ [pair]) place = marksLeft pieces pairs place := by
      rw [marksLeft_append_pair available.here, if_neg (by omega), Nat.sub_zero]
    have forms' : Forms (openings (pairs ++ [pair]) place ++
        upTo pieces (pairs ++ [pair]) (place + 1) hi) inner.reverse := by
      rwa [stretch _ _ below, openings_append, if_neg (by omega)]
    rw [← left]
    refine .run (ih (by omega)) lower ((available_append_pair (by omega) ordered).mpr available)
      (fun i above inside r others => ?_) noRuns forms'
    exact none i above inside r ((available_append_pair (by omega) ordered).mp others)

/-! ## Pairs up to a place -/

/-- The pairs are ordered, and their closers stand before a place. -/
def Within (pairs : List Pair) (hi : Nat) : Prop :=
  ∀ pair ∈ pairs, pair.opener < pair.closer ∧ pair.closer < hi

namespace Within

variable {hi : Nat}

theorem append_pair (within : Within pairs hi) (ordered : pair.opener < pair.closer)
    (below : pair.closer < hi) : Within (pairs ++ [pair]) hi := by
  intro other member
  rcases List.mem_append.mp member with old | new
  · exact within other old
  · rw [List.mem_singleton.mp new]
    exact ⟨ordered, below⟩

theorem mono {hi' : Nat} (within : Within pairs hi) (le : hi ≤ hi') : Within pairs hi' :=
  fun pair member => ⟨(within pair member).1, Nat.lt_of_lt_of_le (within pair member).2 le⟩

theorem closings_eq_nil {i : Nat} (within : Within pairs hi) (above : hi ≤ i) :
    closings pairs i = [] := by
  have none : pairs.filter (fun pair => pair.closer = i) = [] := by
    refine List.filter_eq_nil_iff.mpr fun pair member => ?_
    have := (within pair member).2
    simp only [decide_eq_true_eq]
    omega
  rw [closings, none, List.map_nil]

theorem openings_eq_nil {i : Nat} (within : Within pairs hi) (above : hi ≤ i + 1) :
    openings pairs i = [] := by
  have none : pairs.countP (fun pair => pair.opener = i) = 0 := by
    refine List.countP_eq_zero.mpr fun pair member => ?_
    have := within pair member
    simp only [decide_eq_true_eq]
    omega
  rw [openings, none, List.replicate_zero]

theorem enclosed_eq_false {i : Nat} (within : Within pairs hi) (above : hi ≤ i + 1) :
    enclosed pairs i = false := by
  refine List.any_eq_false.mpr fun pair member => ?_
  have := within pair member
  simp only [Bool.and_eq_true, decide_eq_true_eq]
  omega

/-- At the last place nothing opens, and nothing comes after it. -/
theorem openings_upTo (pieces : List Piece) {place : Nat} (within : Within pairs (place + 1)) :
    openings pairs place ++ upTo pieces pairs (place + 1) (place + 1) = [] := by
  rw [within.openings_eq_nil (Nat.le_refl _), upTo_self, within.closings_eq_nil (Nat.le_refl _)]
  rfl

theorem used_eq_zero {i : Nat} (within : Within pairs hi) (above : hi ≤ i) : used pairs i = 0 := by
  induction pairs with
  | nil => rfl
  | cons pair rest ih =>
    have first := within pair List.mem_cons_self
    have others := ih fun other member => within other (List.mem_cons_of_mem pair member)
    rw [used, others, if_neg (by omega)]

end Within

end

/-! ## A closer and its openers -/

section

variable {pieces : List Piece} {pairs : List Pair} {closing : Nat} {closer : Run}

theorem pairMarks_le {rule : Run → Run → Bool} {place : Nat}
    (opens : opensFor rule pieces pairs closing place = true) :
    0 < pairMarks pieces pairs place closing ∧
      pairMarks pieces pairs place closing ≤ marksLeft pieces pairs closing := by
  have unspent : 0 < marksLeft pieces pairs closing := by
    unfold opensFor at opens
    split at opens
    · simp only [Bool.and_eq_true, decide_eq_true_eq] at opens
      exact opens.1.2
    · cases opens
  unfold pairMarks
  split
  · next two => exact ⟨by decide, two.2⟩
  · exact ⟨by decide, unspent⟩

/-- The pair that is made wraps what lies between its runs, and what is left of the opener stays. -/
theorem OpensAt.laid_pair {place : Nat} {r : Run} {inner farther : List Piece}
    (found : OpensAt pieces pairs closing closing place r inner farther) (marks : Nat) :
    Laid pieces (pairs ++ [⟨place, closing, marks⟩]) closing
      (.wrap marks inner.reverse ::
        ((r.leftover (marksLeft pieces pairs place)).spend marks ++ farther)) := by
  have below := found.below
  have laid : Laid pieces (pairs ++ [⟨place, closing, marks⟩]) place farther :=
    found.laid.append_pair (Nat.le_refl place) below
  have left : marksLeft pieces (pairs ++ [⟨place, closing, marks⟩]) place =
      marksLeft pieces pairs place - marks := by
    rw [marksLeft_append_pair found.available.here, if_pos (Or.inl rfl)]
  have wraps : Forms (openings (pairs ++ [⟨place, closing, marks⟩]) place ++
      upTo pieces (pairs ++ [⟨place, closing, marks⟩]) (place + 1) closing)
        [.wrap marks inner.reverse] := by
    rw [openings_append, if_pos rfl, upTo_append_pair fun i above inside => by dsimp only; omega,
      if_pos rfl, ← List.append_assoc]
    exact found.forms.wrap marks
  have noRuns : NoRuns [.wrap marks inner.reverse] := fun r member =>
    wrap_ne_run _ _ r (List.mem_singleton.mp member).symm
  have between : ∀ i, place < i → i < closing → ∀ r,
      ¬ Available pieces (pairs ++ [⟨place, closing, marks⟩]) i r := by
    intro i above inside r available
    have free := available.free
    rw [enclosed_append, decide_eq_true above, decide_eq_true inside] at free
    simp at free
  rw [Run.spend_leftover]
  split
  · next spent =>
    have gone : core pieces (pairs ++ [⟨place, closing, marks⟩]) place = [] := by
      rw [core_run found.available.here, if_pos (left.trans spent)]
    refine Laid.extend laid below (fun i above inside r available => ?_) noRuns (by rwa [gone])
    rcases Nat.eq_or_lt_of_le above with rfl | upper
    · have := available.unspent
      omega
    · exact between i upper inside r available
  · next unspent =>
    have free : enclosed (pairs ++ [⟨place, closing, marks⟩]) place = false := by
      rw [enclosed_append, found.available.free, decide_eq_false (Nat.lt_irrefl place)]
      rfl
    have available : Available pieces (pairs ++ [⟨place, closing, marks⟩]) place r :=
      ⟨found.available.here, by omega, free⟩
    rw [← left]
    exact .run laid below available between noRuns wraps

/-- A run that is still there is laid down with the marks that it has left. -/
theorem Laid.stays {place : Nat} {r : Run} {before : List Piece}
    (laid : Laid pieces pairs place before) (within : Within pairs (place + 1))
    (available : Available pieces pairs place r) :
    Laid pieces pairs (place + 1) (.run (r.leftover (marksLeft pieces pairs place)) :: before) := by
  have forms : Forms (openings pairs place ++ upTo pieces pairs (place + 1) (place + 1)) [] := by
    rw [within.openings_upTo]
    exact Forms.nil
  exact .run laid (Nat.lt_succ_self place) available (fun i _ _ => by omega)
    (show NoRuns [] by simp [NoRuns]) forms

theorem pairCloser_of_none {rule : Run → Run → Bool} (tries : Nat)
    (none : ∀ i < closing, opensFor rule pieces pairs closing i = false) :
    pairCloser rule pieces closing tries pairs = pairs := by
  cases tries with
  | zero => rfl
  | succ tries => rw [pairCloser, nearest?_eq_none.mpr none]

/-- No run opens for a closer without marks. -/
theorem pairCloser_spent (rule : Run → Run → Bool) (tries : Nat)
    (spent : marksLeft pieces pairs closing = 0) :
    pairCloser rule pieces closing tries pairs = pairs := by
  refine pairCloser_of_none tries fun i _ => ?_
  unfold opensFor
  split <;> simp [spent]

/-- A closer that has been tried for as long as it had marks and openers: the pieces read so far are
laid out again, up to the place behind it. The induction is on the tries, which the marks bound. -/
theorem pairRuns_closer (here : runAt? pieces closing = some closer)
    (closes : closer.canClose = true) (rest : List Piece) (tries : Nat) {pairs : List Pair}
    {before : List Piece}
    (laid : Laid pieces pairs closing before) (within : Within pairs (closing + 1))
    (unspent : 0 < marksLeft pieces pairs closing)
    (enough : marksLeft pieces pairs closing ≤ tries) :
    ∃ before',
      Laid pieces (pairCloser closerRule pieces closing tries pairs) (closing + 1) before' ∧
      pairRuns before (.run (closer.having (marksLeft pieces pairs closing)) :: rest) =
        pairRuns before' rest := by
  induction tries generalizing pairs before with
  | zero => omega
  | succ tries ih =>
    have search := findOpener?_laid laid here closes unspent
    have tried : (closer.having (marksLeft pieces pairs closing)).canClose = true := closes
    rw [pairRuns.eq_2, if_pos tried, pairCloser]
    cases found : findOpener? (closer.having (marksLeft pieces pairs closing)) before with
    | none =>
      rw [found] at search
      rw [nearest?_eq_none.mpr search]
      have available : Available pieces pairs closing closer :=
        ⟨here, unspent, within.enclosed_eq_false (Nat.le_refl _)⟩
      exact ⟨_, laid.stays within available, rfl⟩
    | some triple =>
      obtain ⟨inner, opener, farther⟩ := triple
      rw [found] at search
      obtain ⟨place, r, rfl, there⟩ := search
      rw [nearest?_eq_some there.below there.opens there.nearest]
      have length : (r.leftover (marksLeft pieces pairs place)).pairLength
          (closer.having (marksLeft pieces pairs closing)) =
        pairMarks pieces pairs place closing := rfl
      simp only [length]
      obtain ⟨some, most⟩ := pairMarks_le there.opens
      generalize pairMarks pieces pairs place closing = marks at some most
      have laid' := there.laid_pair marks
      have within' : Within (pairs ++ [⟨place, closing, marks⟩]) (closing + 1) :=
        within.append_pair there.below (Nat.lt_succ_self _)
      have left : marksLeft pieces (pairs ++ [⟨place, closing, marks⟩]) closing =
          marksLeft pieces pairs closing - marks := by
        rw [marksLeft_append_pair here, if_pos (Or.inr rfl)]
      rw [Run.spend_having]
      split
      · next spent =>
        -- The closer is gone: nothing is laid down at its place.
        have gone : core pieces (pairs ++ [⟨place, closing, marks⟩]) closing = [] := by
          rw [core_run here, if_pos (left.trans spent)]
        rw [pairCloser_spent closerRule tries (left.trans spent)]
        refine ⟨_, Laid.extend laid' (Nat.lt_succ_self _) (fun i above inside r available => ?_)
          (show NoRuns [] by simp [NoRuns]) ?_, rfl⟩
        · obtain rfl : i = closing := by omega
          have := available.unspent
          omega
        · rw [gone, within'.openings_upTo]
          exact Forms.nil
      · next unspent =>
        -- Marks are left, so the closer is tried again; it has fewer of them than before.
        rw [← left] at unspent ⊢
        exact ih laid' within' (by omega) (by omega)

end

/-! ## All closers -/

section

variable {rule : Run → Run → Bool} {pieces : List Piece}

theorem Within.pairCloser {closing : Nat} (tries : Nat) {pairs : List Pair}
    (within : Within pairs (closing + 1)) :
    Within (pairCloser rule pieces closing tries pairs) (closing + 1) := by
  induction tries generalizing pairs with
  | zero => exact within
  | succ tries ih =>
    rw [Note.pairCloser]
    split
    · next opener found =>
      exact ih (within.append_pair (of_nearest? found).1 (Nat.lt_succ_self _))
    · exact within

theorem within_pairsBefore (place : Nat) : Within (pairsBefore rule pieces place) place := by
  induction place with
  | zero => intro pair member; cases member
  | succ place ih => exact (ih.mono (Nat.le_succ _)).pairCloser _

/-- Runs as they are cut: they have all their marks. -/
def Fresh (pieces : List Piece) : Prop :=
  ∀ r, .run r ∈ pieces → r.remaining = r.length ∧ 0 < r.length

theorem runAt?_eq_none {place : Nat} {p : Piece} (at_place : pieces[place]? = some p)
    (noRun : ∀ r, p ≠ .run r) : runAt? pieces place = none := by
  unfold runAt?
  rw [at_place]
  cases p with
  | run r => exact absurd rfl (noRun r)
  | _ => rfl

theorem core_piece {pairs : List Pair} {place : Nat} {p : Piece}
    (at_place : pieces[place]? = some p) (noRun : ∀ r, p ≠ .run r) :
    core pieces pairs place = [.piece p] := by
  unfold core
  rw [at_place]
  cases p with
  | run r => exact absurd rfl (noRun r)
  | _ => rfl

/-- A piece that is no run is laid down as it is. -/
theorem Laid.piece {pairs : List Pair} {place : Nat} {before : List Piece} {p : Piece}
    (laid : Laid pieces pairs place before) (within : Within pairs place)
    (at_place : pieces[place]? = some p) (noRun : ∀ r, p ≠ .run r) :
    Laid pieces pairs (place + 1) (p :: before) := by
  have unavailable : ∀ i, place ≤ i → i < place + 1 → ∀ r, ¬ Available pieces pairs i r := by
    intro i above below r available
    obtain rfl : i = place := by omega
    cases (runAt?_eq_none at_place noRun).symm.trans available.here
  refine Laid.extend laid (Nat.lt_succ_self _) unavailable (show NoRuns [p] from ?_) ?_
  · exact fun r member => noRun r (List.mem_singleton.mp member).symm
  · rw [core_piece at_place noRun, (within.mono (Nat.le_succ place)).openings_upTo]
    exact Forms.piece p

/-- From any place on, reading the rest of the pieces leads to what their brackets make. -/
theorem pairRuns_laid (fresh : Fresh pieces) (rest : List Piece) {place : Nat} {before : List Piece}
    (ahead : pieces.drop place = rest) (inside : place ≤ pieces.length)
    (laid : Laid pieces (pairsBefore closerRule pieces place) place before) :
    ∃ before', Laid pieces (pairsOf closerRule pieces) pieces.length before' ∧
      pairRuns before rest = before'.reverse := by
  induction rest generalizing place before with
  | nil =>
    obtain rfl : place = pieces.length :=
      Nat.le_antisymm inside (List.drop_eq_nil_iff.mp ahead)
    exact ⟨before, laid, by rw [pairRuns]⟩
  | cons p rest ih =>
    have within : Within (pairsBefore closerRule pieces place) place := within_pairsBefore place
    have at_place : pieces[place]? = some p := by
      rw [← List.head?_drop, ahead]
      rfl
    have next : pieces.drop (place + 1) = rest := by rw [← List.tail_drop, ahead, List.tail_cons]
    have below : place < pieces.length := (List.getElem?_eq_some_iff.mp at_place).1
    have step : pairsBefore closerRule pieces (place + 1) = pairCloser closerRule pieces place
        (marksLeft pieces (pairsBefore closerRule pieces place) place)
          (pairsBefore closerRule pieces place) := rfl
    cases p with
    | run r =>
      have here : runAt? pieces place = some r := by simp [runAt?, at_place]
      obtain ⟨full, long⟩ := fresh r (List.mem_of_getElem? at_place)
      have left : marksLeft pieces (pairsBefore closerRule pieces place) place = r.length := by
        simp [marksLeft, here, within.used_eq_zero (Nat.le_refl _)]
      cases closes : r.canClose with
      | true =>
        obtain ⟨before', laid', run⟩ := pairRuns_closer here closes rest _ laid
          (within.mono (Nat.le_succ _)) (by omega) (Nat.le_refl _)
        rw [left] at run
        rw [← full] at run
        obtain ⟨before'', laid'', same⟩ := ih next below laid'
        exact ⟨before'', laid'', run.trans same⟩
      | false =>
        have closed : ∀ i < place,
            opensFor closerRule pieces (pairsBefore closerRule pieces place) place i = false := by
          intro i _
          unfold opensFor
          rw [here]
          split <;> simp_all
        have available : Available pieces (pairsBefore closerRule pieces place) place r :=
          ⟨here, by omega, within.enclosed_eq_false (Nat.le_succ _)⟩
        have kept :
            r.leftover (marksLeft pieces (pairsBefore closerRule pieces place) place) = r := by
          rw [left]
          cases r
          simp_all [Run.leftover]
        have laid' := laid.stays (within.mono (Nat.le_succ place)) available
        rw [kept, ← pairCloser_of_none (marksLeft pieces _ place) closed,
          ← step] at laid'
        obtain ⟨before', laid'', same⟩ := ih next below laid'
        refine ⟨before', laid'', ?_⟩
        rw [pairRuns.eq_2, if_neg (by simp [closes]), same]
    | _ =>
      have laid' := laid.piece within at_place (by simp)
      have spent : marksLeft pieces (pairsBefore closerRule pieces place) place = 0 := by
        rw [marksLeft, runAt?_eq_none at_place (by simp)]
      rw [← pairCloser_spent closerRule _ spent, ← step] at laid'
      obtain ⟨before', laid'', same⟩ := ih next below laid'
      exact ⟨before', laid'', by rw [pairRuns.eq_3 _ _ _ (by simp), same]⟩

end

end BoardRules.Note
