import BoardRules.Proofs.Note.LeavesAndMarks

/-!
# Pairing in place

Pairing can also be done in one list. An index runs over the pieces and stays at a closer while that
finds openers: what lies between the two runs is cut out and put back as one piece, marks are taken
off the runs, runs without marks are removed, and the index follows. What one turn of this loop does
is said by `turn_cases`; so the turns are bounded by what the loop starts with (`Reaches.bounded`),
and it ends with the pieces that `pairRuns` makes (`reaches_end`). No turn takes more marks off a
run than it has, and none loses a leaf or a mark (`pairing_conserves`).
-/
namespace BoardRules.Note

/-! ## The loop -/

/-- All pieces, and the index of the one that is looked at next. -/
structure Pass where
  pieces : List Piece
  index : Nat

/-- What a turn of the loop comes to. It may try to take more marks off a run than the run has. -/
inductive Turn where
  | finished
  | next (pass : Pass)
  | underflow

def isSpentAt (pieces : List Piece) (place : Nat) : Bool :=
  (runAt? pieces place).any fun r => r.remaining == 0

/-- Takes marks off the run at a place, if it has so many. -/
def takeMarks? (n place : Nat) (pieces : List Piece) : Option (List Piece) :=
  match runAt? pieces place with
  | some r =>
    if n ≤ r.remaining then
      some (pieces.set place (.run { r with remaining := r.remaining - n }))
    else none
  | none => some pieces

def dropSpent (place : Nat) (pieces : List Piece) : List Piece :=
  if isSpentAt pieces place then pieces.eraseIdx place else pieces

/-- Cuts out what lies between two places and puts it back as one piece. -/
def enclose (n opener closer : Nat) (pieces : List Piece) : List Piece :=
  pieces.take (opener + 1) ++
    .wrap n ((pieces.take closer).drop (opener + 1)) :: pieces.drop closer

/-- Pairs the runs at two places. The loop goes on at the closer or, if that is spent, behind it. -/
def wrapBetween? (pieces : List Piece) (opener closer : Nat) : Option Pass :=
  match runAt? pieces opener, runAt? pieces closer with
  | some o, some c => do
    let n := o.pairLength c
    let pieces ← takeMarks? n opener (enclose n opener closer pieces)
    let pieces ← takeMarks? n (opener + 2) pieces
    let resume := if isSpentAt pieces opener then opener + 1 else opener + 2
    return ⟨dropSpent resume (dropSpent opener pieces), resume⟩
  | _, _ => some ⟨pieces, closer + 1⟩

def opensAt (closer : Run) (pieces : List Piece) (place : Nat) : Bool :=
  (runAt? pieces place).any fun opener => opener.opensFor closer

def Pass.turn (pass : Pass) : Turn :=
  match pass.pieces[pass.index]? with
  | none => .finished
  | some (.run closer) =>
    if closer.canClose then
      match nearest? (opensAt closer pass.pieces) pass.index with
      | some opener => (wrapBetween? pass.pieces opener pass.index).elim .underflow .next
      | none => .next ⟨pass.pieces.set pass.index (.run closer.tried), pass.index + 1⟩
    else .next ⟨pass.pieces, pass.index + 1⟩
  | some _ => .next ⟨pass.pieces, pass.index + 1⟩

/-- The pass that so many turns lead to. -/
inductive Reaches (start : Pass) : Nat → Pass → Prop
  | start : Reaches start 0 start
  | turn {turns : Nat} {pass pass' : Pass} (reaches : Reaches start turns pass)
      (turned : pass.turn = .next pass') : Reaches start (turns + 1) pass'

/-! ## One list and two -/

/-- The pieces read so far, nearest first, and those ahead, put into one list. -/
def Pass.between (before ahead : List Piece) : Pass := ⟨before.reverse ++ ahead, before.length⟩

section

variable (front rest : List Piece)

theorem getElem?_place (p : Piece) : (front ++ p :: rest)[front.length]? = some p := by
  simp

theorem runAt?_place (p : Piece) : runAt? (front ++ p :: rest) front.length = p.run? := by
  unfold runAt?
  rw [getElem?_place]
  cases p <;> rfl

theorem set_place (p q : Piece) :
    (front ++ p :: rest).set front.length q = front ++ q :: rest := by
  simp

theorem takeMarks?_place {r : Run} {n : Nat} (enough : n ≤ r.remaining) :
    takeMarks? n front.length (front ++ .run r :: rest) =
      some (front ++ .run (r.having (r.remaining - n)) :: rest) := by
  unfold takeMarks?
  rw [runAt?_place, Piece.run?]
  dsimp only
  rw [if_pos enough, set_place]
  rfl

theorem isSpentAt_place (r : Run) :
    isSpentAt (front ++ .run r :: rest) front.length = (r.remaining == 0) := by
  unfold isSpentAt
  rw [runAt?_place]
  rfl

theorem dropSpent_place (r : Run) (n : Nat) :
    dropSpent front.length (front ++ .run (r.having (r.remaining - n)) :: rest) =
      front ++ (r.spend n ++ rest) := by
  unfold dropSpent Run.spend
  rw [isSpentAt_place]
  by_cases spent : r.remaining - n = 0
  · simp [Run.having, spent, List.eraseIdx_append_of_length_le]
  · simp [Run.having, spent]

theorem enclose_place (n : Nat) (o c : Piece) (inner : List Piece) :
    enclose n front.length (front.length + 1 + inner.length) (front ++ o :: (inner ++ c :: rest)) =
      front ++ o :: .wrap n inner :: c :: rest := by
  have split : front ++ o :: (inner ++ c :: rest) = (front ++ [o]) ++ (inner ++ c :: rest) := by
    simp
  have start : front.length + 1 = (front ++ [o]).length := by simp
  unfold enclose
  rw [split, start, List.take_left, List.take_length_add_append, List.drop_left,
    List.take_left, List.drop_length_add_append, List.drop_left]
  simp

/-- Both runs give their marks, and the pass goes on behind what has been put between them. -/
theorem wrapBetween?_place (o c : Run) (inner : List Piece) (opens : o.pairLength c ≤ o.remaining)
    (closes : o.pairLength c ≤ c.remaining) :
    wrapBetween? (front ++ .run o :: (inner ++ .run c :: rest)) front.length
        (front.length + 1 + inner.length) =
      some ⟨front ++ (o.spend (o.pairLength c) ++
          .wrap (o.pairLength c) inner :: (c.spend (o.pairLength c) ++ rest)),
        front.length + ((o.spend (o.pairLength c)).length + 1)⟩ := by
  have closer : runAt? (front ++ .run o :: (inner ++ .run c :: rest))
      (front.length + 1 + inner.length) = some c := by
    have place := runAt?_place (front ++ .run o :: inner) rest (.run c)
    simpa [Piece.run?, Nat.add_assoc, Nat.add_comm 1] using place
  unfold wrapBetween?
  rw [runAt?_place, closer, Piece.run?]
  dsimp only
  generalize o.pairLength c = n at opens closes
  rw [enclose_place, takeMarks?_place _ _ opens, Option.bind_eq_bind, Option.bind_some]
  -- Behind the enclosed pieces stands the closer, two places after the opener.
  have second := takeMarks?_place (front ++ [.run (o.having (o.remaining - n)), .wrap n inner]) rest
    closes
  simp only [List.length_append, List.length_cons, List.length_nil, List.append_assoc,
    List.cons_append, List.nil_append] at second
  rw [second, Option.bind_some, dropSpent_place, isSpentAt_place]
  have resume : (if (o.having (o.remaining - n)).remaining == 0 then front.length + 1
      else front.length + 2) = front.length + ((o.spend n).length + 1) := by
    unfold Run.spend
    by_cases spent : o.remaining - n = 0 <;> simp [Run.having, spent]
  have last := dropSpent_place (front ++ (o.spend n ++ [.wrap n inner])) rest c n
  simp only [List.length_append, List.length_cons, List.length_nil, List.append_assoc,
    List.cons_append, List.nil_append] at last
  rw [resume, last]
  rfl

theorem opensAt_place (closer : Run) (p : Piece) :
    opensAt closer (front ++ p :: rest) front.length = p.run?.any fun r => r.opensFor closer := by
  rw [opensAt, runAt?_place]

end

/-- The nearest place of an opener is behind the pieces that are farther away. -/
theorem nearest?_opensAt (closer : Run) (before rest : List Piece) :
    nearest? (opensAt closer (before.reverse ++ rest)) before.length =
      (findOpener? closer before).map fun (_, _, farther) => farther.length := by
  induction before generalizing rest with
  | nil => rfl
  | cons p farther ih =>
    have opens := opensAt_place farther.reverse rest closer p
    rw [List.length_reverse] at opens
    rw [List.reverse_cons, List.append_assoc, List.singleton_append, List.length_cons, nearest?, ih]
    cases p with
    | run r =>
      have here : _ = r.opensFor closer := opens
      rw [here, findOpener?]
      split
      · rfl
      · rw [Option.map_map]
        rfl
    | _ =>
      have closed : _ = false := opens
      rw [closed, if_neg Bool.false_ne_true, findOpener?.eq_3 _ _ _ (by simp), Option.map_map]
      rfl

/-! ## Turns -/

theorem pairLength_le {opener closer : Run} (opens : opener.opensFor closer = true)
    (unspent : 0 < closer.remaining) : opener.pairLength closer ≤ opener.remaining ∧
      opener.pairLength closer ≤ closer.remaining := by
  have opening : 0 < opener.remaining := by
    simp only [Run.opensFor, Bool.and_eq_true, decide_eq_true_eq] at opens
    exact opens.1.2
  rcases pairLength_cases opener closer with ⟨two, first, second⟩ | one
  · exact ⟨two ▸ first, two ▸ second⟩
  · exact ⟨one ▸ opening, one ▸ unspent⟩

section

variable {before rest : List Piece} {closer : Run}

theorem getElem?_between (p : Piece) :
    (Pass.between before (p :: rest)).pieces[(Pass.between before (p :: rest)).index]? =
      some p := by
  simp [Pass.between]

/-- The index moves on from a piece that closes nothing. -/
theorem turn_on {p : Piece} (closed : ∀ r, p = .run r → r.canClose = false) :
    (Pass.between before (p :: rest)).turn = .next (.between (p :: before) rest) := by
  have moved : (⟨before.reverse ++ p :: rest, before.length + 1⟩ : Pass) =
      .between (p :: before) rest := by simp [Pass.between]
  unfold Pass.turn
  rw [getElem?_between]
  cases p with
  | run r =>
    dsimp only
    rw [closed r rfl, if_neg Bool.false_ne_true]
    exact congrArg Turn.next moved
  | _ => exact congrArg Turn.next moved

/-- A closer without an opener is none any more. -/
theorem turn_tried (closes : closer.canClose = true) (none : findOpener? closer before = none) :
    (Pass.between before (.run closer :: rest)).turn =
      .next (.between (.run closer.tried :: before) rest) := by
  have place := nearest?_opensAt closer before (.run closer :: rest)
  rw [none, Option.map_none] at place
  unfold Pass.turn
  rw [getElem?_between]
  dsimp only [Pass.between]
  rw [if_pos closes, place]
  simp

/-- A closer that finds its opener. -/
theorem turn_pair {opener : Run} {inner farther : List Piece} (closes : closer.canClose = true)
    (unspent : 0 < closer.remaining)
    (found : findOpener? closer before = some (inner, opener, farther)) :
    (Pass.between before (.run closer :: rest)).turn =
      .next (.between
        (.wrap (opener.pairLength closer) inner.reverse ::
          (opener.spend (opener.pairLength closer) ++ farther))
        (closer.spend (opener.pairLength closer) ++ rest)) := by
  obtain ⟨split, opens⟩ := of_findOpener? found
  obtain ⟨first, second⟩ := pairLength_le opens unspent
  have place := nearest?_opensAt closer before (.run closer :: rest)
  have made := wrapBetween?_place farther.reverse rest opener closer inner.reverse first second
  have pieces : before.reverse ++ .run closer :: rest =
      farther.reverse ++ .run opener :: (inner.reverse ++ .run closer :: rest) := by simp [split]
  have index : before.length = farther.length + 1 + inner.length := by
    simp [split, Nat.add_comm]
  rw [found, Option.map_some] at place
  rw [List.length_reverse, List.length_reverse, ← pieces, ← index] at made
  unfold Pass.turn
  rw [getElem?_between]
  dsimp only [Pass.between]
  rw [if_pos closes, place]
  dsimp only
  rw [made]
  simp [reverse_spend, Nat.add_comm, Nat.add_left_comm]

end

/-- What a turn does: it ends the loop behind the last piece, or it leads to a pass from which the
same pieces are made, with less ahead. -/
theorem turn_cases (before ahead : List Piece)
    (inUse : ∀ r ∈ runs (Pass.between before ahead).pieces, r.InUse) :
    ahead = [] ∧ (Pass.between before ahead).turn = .finished ∨
      ∃ before' ahead', (Pass.between before ahead).turn = .next (.between before' ahead') ∧
        pairRuns before' ahead' = pairRuns before ahead ∧ weight ahead' < weight ahead ∧
        Keeps (Pass.between before ahead).pieces (Pass.between before' ahead').pieces := by
  cases ahead with
  | nil => exact .inl ⟨rfl, by simp [Pass.turn, Pass.between]⟩
  | cons p rest =>
    right
    cases p with
    | run closer =>
      cases closes : closer.canClose with
      | false =>
        refine ⟨_, _, turn_on (by simp [closes]), ?_, ?_, ?_⟩
        · rw [pairRuns.eq_2, if_neg (by simp [closes])]
        · simp [weight, Piece.weight]
        · simpa [Pass.between] using Keeps.refl _
      | true =>
        cases found : findOpener? closer before with
        | none =>
          refine ⟨_, _, turn_tried closes found, ?_, ?_, ?_⟩
          · rw [pairRuns.eq_2, if_pos closes, found]
            rfl
          · simp [weight, Piece.weight]
          · simpa [Pass.between] using (Keeps.tried closer).inside before.reverse rest
        | some triple =>
          obtain ⟨inner, opener, farther⟩ := triple
          obtain ⟨split, opens⟩ := of_findOpener? found
          have unspent : 0 < closer.remaining := by
            refine (inUse closer ?_).1
            rw [Pass.between, runs_append]
            exact List.mem_append_right _ List.mem_cons_self
          obtain ⟨first, second⟩ := pairLength_le opens unspent
          refine ⟨_, _, turn_pair closes unspent found, ?_, ?_, ?_⟩
          · rw [pairRuns.eq_2 before closer rest, if_pos closes, found]
          · exact weight_spend_lt _ (pairLength_pos _ _) _
          · have marks : opener.pairLength closer = 1 ∨ opener.pairLength closer = 2 :=
              (pairLength_cases opener closer).elim (fun two => .inr two.1) .inl
            have keeps := (Keeps.pair marks first second inner.reverse).inside farther.reverse rest
            simpa [Pass.between, split, reverse_spend] using keeps
    | _ =>
      refine ⟨_, _, turn_on (by simp), ?_, ?_, ?_⟩
      · rw [pairRuns.eq_3 _ _ _ (by simp)]
      · simp [weight, Piece.weight]
      · simpa [Pass.between] using Keeps.refl _

/-! ## Runs of the loop -/

section

variable {before ahead : List Piece}

/-- Each turn leaves less ahead, so the turns are bounded by what the loop starts with; and whatever
is reached, no leaf and no mark is lost on the way. -/
theorem Reaches.bounded {turns : Nat} {pass : Pass}
    (reaches : Reaches (.between before ahead) turns pass)
    (inUse : ∀ r ∈ runs (Pass.between before ahead).pieces, r.InUse) :
    ∃ before' ahead', pass = .between before' ahead' ∧ turns + weight ahead' ≤ weight ahead ∧
      Keeps (Pass.between before ahead).pieces pass.pieces := by
  induction reaches with
  | start => exact ⟨before, ahead, rfl, by omega, Keeps.refl _⟩
  | turn _ turned ih =>
    obtain ⟨before', ahead', rfl, bound, keeps⟩ := ih
    rcases turn_cases before' ahead' (keeps.inUse inUse) with ⟨_, ended⟩ | again
    · cases ended.symm.trans turned
    · obtain ⟨b, a, next, _, less, kept⟩ := again
      obtain rfl := Turn.next.inj (next.symm.trans turned)
      exact ⟨b, a, rfl, by omega, keeps.trans kept⟩

theorem Reaches.from_next {turns : Nat} {start next pass : Pass} (turned : start.turn = .next next)
    (reaches : Reaches next turns pass) : Reaches start (turns + 1) pass := by
  induction reaches with
  | start => exact .turn .start turned
  | turn _ last ih => exact .turn ih last

/-- The loop ends, and with the pieces that `pairRuns` makes. -/
theorem reaches_end (before ahead : List Piece)
    (inUse : ∀ r ∈ runs (Pass.between before ahead).pieces, r.InUse) :
    ∃ turns pass, Reaches (.between before ahead) turns pass ∧ pass.turn = .finished ∧
      pass.pieces = pairRuns before ahead := by
  induction measured : weight ahead using Nat.strongRecOn generalizing before ahead with
  | ind bound ih =>
    rcases turn_cases before ahead inUse with ⟨rfl, ended⟩ | ⟨b, a, next, same, less, keeps⟩
    · exact ⟨0, _, .start, ended, by simp [Pass.between, pairRuns]⟩
    · obtain ⟨turns, pass, reaches, ended, made⟩ :=
        ih _ (measured ▸ less) b a (keeps.inUse inUse) rfl
      exact ⟨turns + 1, pass, reaches.from_next next, ended, made.trans same⟩

end

/-! ## Paragraphs -/

/-- What pairing leaves of the pieces of a text. -/
structure Conserved (pieces paired : List Piece) : Prop where
  inUse : ∀ r ∈ runs paired, 1 ≤ r.remaining ∧ r.remaining ≤ r.length
  leaves : leaves paired = leaves pieces
  marks : looseMarks paired + 2 * emphasisCount paired + 4 * strongCount paired =
    ((runs pieces).map Run.length).sum

theorem conserved_ofText {paragraph : List Char} {paired : List Piece}
    (keeps : Keeps (Piece.ofText paragraph) paired) :
    Conserved (Piece.ofText paragraph) paired := by
  refine ⟨keeps.inUse fun r member => ?_, keeps.leaves,
    keeps.marks.trans (markCount_ofText paragraph)⟩
  obtain ⟨whole, marked⟩ := whole_runs_ofText paragraph r member
  exact ⟨whole ▸ marked, Nat.le_of_eq whole⟩

/-- The emphasis of any text is settled in a bounded number of turns, and what comes of it are the
pieces that `pairRuns` makes. Neither they nor the pieces on the way have lost a leaf or a mark: of
all the marks in the runs of the text, two stand around every emphasised stretch, four around every
strong one, and the others are left in runs, each of which has at least one mark and no more than at
first. No turn fails for lack of marks. -/
theorem pairing_conserves (paragraph : List Char) :
    let pieces := Piece.ofText paragraph
    Conserved pieces (pairRuns [] pieces) ∧
      (∃ turns pass, Reaches ⟨pieces, 0⟩ turns pass ∧ pass.turn = .finished ∧
        pass.pieces = pairRuns [] pieces) ∧
      ∀ turns pass, Reaches ⟨pieces, 0⟩ turns pass →
        turns ≤ weight pieces ∧ pass.turn ≠ .underflow ∧ Conserved pieces pass.pieces := by
  intro pieces
  have inUse : ∀ r ∈ runs (Pass.between [] pieces).pieces, r.InUse :=
    (conserved_ofText (Keeps.refl _)).inUse
  obtain ⟨turns, last, reached, ended, made⟩ := reaches_end [] pieces inUse
  have kept : ∀ turns pass, Reaches (.between [] pieces) turns pass →
      turns ≤ weight pieces ∧ pass.turn ≠ .underflow ∧ Conserved pieces pass.pieces := by
    intro turns pass reaches
    obtain ⟨before, ahead, rfl, bound, keeps⟩ := reaches.bounded inUse
    refine ⟨by omega, ?_, conserved_ofText keeps⟩
    rcases turn_cases before ahead (keeps.inUse inUse) with ⟨_, ended⟩ | ⟨_, _, next, _⟩
    · rw [ended]
      simp
    · rw [next]
      simp
  exact ⟨made ▸ (kept turns last reached).2.2, ⟨turns, last, reached, ended, made⟩, kept⟩

end BoardRules.Note
