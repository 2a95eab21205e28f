import BoardRules.Proofs.Note.Pairing

/-!
# The rule of three

The emphasis of every paragraph is what its partners make of it, where a pair is ruled out for its
lengths only if the *closer* can both open and close. Whether the opener can close does not count: a
run before the closer has been tried as a closer itself, and is none any more. So the partners are
those under the rule of three as long as no pair is made that this rule forbids; from the first such
pair on they may differ.
-/
namespace BoardRules.Note

/-! ## Runs of a paragraph -/

/-- What holds of the pieces of every kind that are cut holds of all pieces of a text. -/
theorem forall_piecesAfter {P : Piece → Prop} (plain : ∀ cs, P (.text cs))
    (code : ∀ cs, P (.code cs)) (lineBreak : P .lineBreak)
    (run : ∀ mark length before after, P (.run (.between mark (length + 1) before after)))
    (before : Option Char) (pending text : List Char) :
    ∀ p ∈ piecesAfter before pending text, P p := by
  have flush (pending : List Char) : ∀ p ∈ flushText pending, P p := by
    unfold flushText
    split
    · simp
    · simpa using plain _
  have flushed {pending : List Char} {p : Piece} {rest : List Piece} (first : P p)
      (others : ∀ q ∈ rest, P q) : ∀ q ∈ flushText pending ++ p :: rest, P q :=
    List.forall_mem_append.mpr ⟨flush pending, List.forall_mem_cons.mpr ⟨first, others⟩⟩
  fun_induction piecesAfter before pending text with
  | case1 => exact flush _
  | case2 _ _ _ ih => exact flushed lineBreak ih
  | case3 _ _ _ _ _ _ ih => exact ih
  | case4 _ _ _ _ _ _ ih => exact ih
  | case5 _ _ _ ih => exact flushed lineBreak ih
  | case6 => exact flushed (code _) ‹_›
  | case7 => assumption
  | case8 => exact flushed (run _ _ _ _) ‹_›
  | case9 => assumption

/-- Every run is cut with all its marks, and has at least one. -/
theorem fresh_piecesAfter (before : Option Char) (pending text : List Char) :
    Fresh (piecesAfter before pending text) := by
  refine fun r member => forall_piecesAfter
    (P := fun p => ∀ r, p = .run r → r.remaining = r.length ∧ 0 < r.length)
    (by simp) (by simp) (by simp) (fun mark length before after r same => ?_) before pending text _
    member r rfl
  obtain rfl := Piece.run.inj same
  exact ⟨rfl, Nat.succ_pos length⟩

section

variable {rule : Run → Run → Bool} {pieces : List Piece} {pairs : List Pair}
  {closer opener marks : Nat}

/-! ## The tree of the pairs -/

/-- Reading pieces leads to the tree of their partners. -/
theorem pairRuns_eq_tree (fresh : Fresh pieces) :
    pairRuns [] pieces = tree pieces (pairsOf closerRule pieces) := by
  have start : Laid pieces (pairsBefore closerRule pieces 0) 0 [] :=
    .base (fun i below => absurd below (Nat.not_lt_zero i)) (by simp [NoRuns]) Forms.nil
  obtain ⟨before, laid, read⟩ := pairRuns_laid fresh pieces List.drop_zero (Nat.zero_le _) start
  have within : Within (pairsOf closerRule pieces) pieces.length := within_pairsBefore _
  have whole := laid.forms [] [] []
  rw [upTo, within.closings_eq_nil (Nat.le_refl _), Nat.sub_zero, ← List.range_eq_range',
    List.append_nil, List.append_nil, List.append_nil, List.reverse_reverse] at whole
  exact read.trans whole.symm

/-! ## Pairs under the two rules -/

theorem closerRule_of_ruleOfThree {opener closer : Run} (fits : ruleOfThree opener closer = true) :
    closerRule opener closer = true := by
  simp only [ruleOfThree, Bool.or_eq_true, Bool.not_eq_true', Bool.or_eq_false_iff] at fits
  simp only [closerRule, Bool.or_eq_true, Bool.not_eq_true']
  exact fits.imp_left And.right

/-- A pair may be made under a rule exactly if it may be made under any other and keeps the rule. -/
theorem opensFor_of_keeps {rule' : Run → Run → Bool}
    (opens : opensFor rule pieces pairs closer opener = true)
    (keeps : Pair.keeps rule' pieces ⟨opener, closer, marks⟩ = true) :
    opensFor rule' pieces pairs closer opener = true := by
  unfold Pair.keeps at keeps
  unfold opensFor at opens ⊢
  split at opens
  · next o c here there =>
    simp only [here, there] at keeps ⊢
    simp only [Bool.and_eq_true] at opens ⊢
    exact ⟨⟨⟨⟨opens.1.1.1.1, keeps⟩, opens.1.1.2⟩, opens.1.2⟩, opens.2⟩
  · cases opens

theorem keeps_of_opensFor (opens : opensFor rule pieces pairs closer opener = true) :
    Pair.keeps rule pieces ⟨opener, closer, marks⟩ = true := by
  unfold opensFor at opens
  unfold Pair.keeps
  split at opens
  · next o c here there =>
    simp only [here, there]
    simp only [Bool.and_eq_true] at opens
    exact opens.1.1.1.2
  · cases opens

theorem opensFor_closerRule (opens : opensFor ruleOfThree pieces pairs closer opener = true) :
    opensFor closerRule pieces pairs closer opener = true := by
  have keeps : Pair.keeps ruleOfThree pieces ⟨opener, closer, 0⟩ = true := keeps_of_opensFor opens
  have kept : Pair.keeps closerRule pieces ⟨opener, closer, 0⟩ = true := by
    simp only [Pair.keeps] at keeps ⊢
    split at keeps
    · exact closerRule_of_ruleOfThree keeps
    · cases keeps
  exact opensFor_of_keeps opens kept

/-! ### Pairs stay pairs -/

theorem mem_pairCloser (tries : Nat) {pair : Pair} (member : pair ∈ pairs) :
    pair ∈ pairCloser rule pieces closer tries pairs := by
  induction tries generalizing pairs with
  | zero => exact member
  | succ tries ih =>
    rw [pairCloser]
    split
    · exact ih (List.mem_append_left _ member)
    · exact member

theorem keeps_pairCloser (tries : Nat) (kept : ∀ pair ∈ pairs, pair.keeps rule pieces = true) :
    ∀ pair ∈ pairCloser rule pieces closer tries pairs, pair.keeps rule pieces = true := by
  induction tries generalizing pairs with
  | zero => exact kept
  | succ tries ih =>
    rw [pairCloser]
    split
    · next opener found =>
      refine ih fun pair member => ?_
      rcases List.mem_append.mp member with old | new
      · exact kept pair old
      · rw [List.mem_singleton.mp new]
        exact keeps_of_opensFor (of_nearest? found).2.1
    · exact kept

/-- Under a rule only pairs are made that keep it. -/
theorem keeps_pairsBefore (place : Nat) :
    ∀ pair ∈ pairsBefore rule pieces place, pair.keeps rule pieces = true := by
  induction place with
  | zero => exact fun pair member => absurd member List.not_mem_nil
  | succ place ih => exact keeps_pairCloser _ ih

/-! ### Where the rules agree -/

/-- A closer that makes no pair against the rule of three makes the same pairs under both rules: the
nearest opener is the nearest one under the rule of three as well. -/
theorem pairCloser_eq (tries : Nat)
    (kept : ∀ pair ∈ pairCloser closerRule pieces closer tries pairs,
      pair.keeps ruleOfThree pieces = true) :
    pairCloser closerRule pieces closer tries pairs =
      pairCloser ruleOfThree pieces closer tries pairs := by
  induction tries generalizing pairs with
  | zero => rfl
  | succ tries ih =>
    have farther : ∀ i, opensFor closerRule pieces pairs closer i = false →
        opensFor ruleOfThree pieces pairs closer i = false := by
      intro i closed
      cases opens : opensFor ruleOfThree pieces pairs closer i with
      | false => rfl
      | true => exact (opensFor_closerRule opens).symm.trans closed
    rw [pairCloser] at kept ⊢
    cases found : nearest? (opensFor closerRule pieces pairs closer) closer with
    | none =>
      have none := nearest?_eq_none.mp found
      rw [pairCloser, nearest?_eq_none.mpr fun i below => farther i (none i below)]
    | some opener =>
      rw [found] at kept
      obtain ⟨below, opens, nearest⟩ := of_nearest? found
      have keeps := kept _ (mem_pairCloser tries (List.mem_append_right _ List.mem_cons_self))
      have same := nearest?_eq_some below (opensFor_of_keeps opens keeps)
        fun i above inside => farther i (nearest i above inside)
      rw [pairCloser, same]
      exact ih kept

theorem pairsBefore_eq (place : Nat)
    (kept : ∀ pair ∈ pairsBefore closerRule pieces place, pair.keeps ruleOfThree pieces = true) :
    pairsBefore closerRule pieces place = pairsBefore ruleOfThree pieces place := by
  induction place with
  | zero => rfl
  | succ place ih =>
    have before := ih fun pair member => kept pair (mem_pairCloser _ member)
    rw [pairsBefore] at kept ⊢
    rw [pairCloser_eq _ kept, before]
    rfl

theorem pairsOf_eq_iff : pairsOf closerRule pieces = pairsOf ruleOfThree pieces ↔
    ∀ pair ∈ pairsOf closerRule pieces, pair.keeps ruleOfThree pieces = true := by
  constructor
  · intro same
    rw [same]
    exact keeps_pairsBefore _
  · exact pairsBefore_eq _

end

/-- The emphasis of a paragraph is that of its partners, and these are the partners under the rule
of three exactly if all of them keep that rule. -/
theorem pairRuns_ofText (paragraph : List Char) :
    pairRuns [] (Piece.ofText paragraph) =
        tree (Piece.ofText paragraph) (pairsOf closerRule (Piece.ofText paragraph)) ∧
      (pairsOf closerRule (Piece.ofText paragraph) = pairsOf ruleOfThree (Piece.ofText paragraph) ↔
        ∀ pair ∈ pairsOf closerRule (Piece.ofText paragraph),
          pair.keeps ruleOfThree (Piece.ofText paragraph) = true) :=
  ⟨pairRuns_eq_tree (fresh_piecesAfter none [] paragraph), pairsOf_eq_iff⟩

/-- The first star both opens and closes, and three marks in all are a multiple of three; but as it
closes nothing itself, it opens for the last two. -/
theorem pairRuns_starInWord : ¬ ∀ paragraph, pairRuns [] (Piece.ofText paragraph) =
    tree (Piece.ofText paragraph) (pairsOf ruleOfThree (Piece.ofText paragraph)) := by
  intro all
  have same := congrArg List.length (all ['a', '*', 'b', '*', '*'])
  revert same
  decide +kernel

end BoardRules.Note
