import BoardRules.Note.Emphasis
import Mathlib.Data.List.Basic

/-!
# What pairing does to a text

Pairing takes marks off runs and puts pieces under emphasis, and nothing else: every character of
the text stays, in a piece or as one of the marks of an emphasised stretch (`width_pairRuns`). It
changes nothing exactly if no run meets an opener before it (`pairRuns_of_allApart`,
`allApart_of_pairRuns`), and a run minds only runs of its own mark (`pairRuns_beside`).
-/
namespace BoardRules.Note

/-! ## The runs among pieces -/

section

variable {P : Run → Prop} {p : Piece} {pieces first second : List Piece}

theorem forall_run_cons : (∀ r, .run r ∈ p :: pieces → P r) ↔
    (∀ r, p = .run r → P r) ∧ ∀ r, .run r ∈ pieces → P r := by
  simp only [List.mem_cons, or_imp, forall_and, eq_comm]

theorem forall_run_append : (∀ r, .run r ∈ first ++ second → P r) ↔
    (∀ r, .run r ∈ first → P r) ∧ ∀ r, .run r ∈ second → P r := by
  simp only [List.mem_append, or_imp, forall_and]

end

/-- No run stands beside these pieces; there may be some inside them. -/
def NoRuns (pieces : List Piece) : Prop := ∀ r, .run r ∉ pieces

theorem NoRuns.append {first second : List Piece} (noFirst : NoRuns first)
    (noSecond : NoRuns second) : NoRuns (first ++ second) :=
  forall_run_append.mpr ⟨noFirst, noSecond⟩

theorem forall_run_spend {P : Run → Prop} {r : Run} {n : Nat}
    (spent : 0 < r.remaining - n → P { r with remaining := r.remaining - n }) :
    ∀ s, .run s ∈ r.spend n → P s := by
  intro s member
  unfold Run.spend at member
  split at member
  · cases member
  · next left =>
    rw [Piece.run.inj (List.mem_singleton.mp member)]
    exact spent (Nat.pos_of_ne_zero left)

/-- What is left of a run is one piece at most. -/
theorem reverse_spend (r : Run) (n : Nat) : (r.spend n).reverse = r.spend n := by
  unfold Run.spend
  split <;> rfl

theorem wrap_ne_run (n : Nat) (inner : List Piece) (r : Run) : Piece.wrap n inner ≠ .run r := by
  unfold Piece.wrap
  split <;> simp

/-! ## Looking for an opener -/

section

variable {closer : Run}

theorem findOpener?_eq_none {pieces : List Piece} :
    findOpener? closer pieces = none ↔ ∀ r, .run r ∈ pieces → r.opensFor closer = false := by
  fun_induction findOpener? closer pieces with
  | case1 => simp
  | case2 r farther opens =>
    simp only [reduceCtorEq, false_iff, not_forall]
    exact ⟨r, List.mem_cons_self, by simp [opens]⟩
  | case3 r farther closed ih =>
    rw [Option.map_eq_none_iff, ih, forall_run_cons]
    refine (and_iff_right fun s same => ?_).symm
    rw [← Piece.run.inj same]
    simpa using closed
  | case4 p farther noRun ih =>
    rw [Option.map_eq_none_iff, ih, forall_run_cons]
    exact (and_iff_right fun s same => absurd same (noRun s)).symm

theorem of_findOpener? {pieces inner farther : List Piece} {opener : Run}
    (found : findOpener? closer pieces = some (inner, opener, farther)) :
    pieces = inner ++ .run opener :: farther ∧ opener.opensFor closer = true := by
  fun_induction findOpener? closer pieces generalizing inner with
  | case1 => cases found
  | case2 r rest opens =>
    obtain ⟨rfl, rfl, rfl⟩ : [] = inner ∧ r = opener ∧ rest = farther := by simpa using found
    exact ⟨rfl, opens⟩
  | case3 r rest closed ih =>
    obtain ⟨⟨nearer, _, _⟩, deeper, same⟩ := Option.map_eq_some_iff.mp found
    obtain ⟨rfl, rfl, rfl⟩ := same
    obtain ⟨split, opens⟩ := ih deeper
    exact ⟨by rw [split, List.cons_append], opens⟩
  | case4 p rest noRun ih =>
    obtain ⟨⟨nearer, _, _⟩, deeper, same⟩ := Option.map_eq_some_iff.mp found
    obtain ⟨rfl, rfl, rfl⟩ := same
    obtain ⟨split, opens⟩ := ih deeper
    exact ⟨by rw [split, List.cons_append], opens⟩

/-- Behind pieces without an opener the search goes on. -/
theorem findOpener?_append {nearer : List Piece} (none : findOpener? closer nearer = none)
    (farther : List Piece) : findOpener? closer (nearer ++ farther) =
      (findOpener? closer farther).map fun (inner, opener, rest) =>
        (nearer ++ inner, opener, rest) := by
  fun_induction findOpener? closer nearer with
  | case1 =>
    rw [List.nil_append]
    cases findOpener? closer farther <;> rfl
  | case2 => cases none
  | case3 r rest closed ih =>
    rw [List.cons_append, findOpener?.eq_2, if_neg closed, ih (Option.map_eq_none_iff.mp none),
      Option.map_map]
    rfl
  | case4 p rest noRun ih =>
    rw [List.cons_append, findOpener?.eq_3 _ _ _ noRun, ih (Option.map_eq_none_iff.mp none),
      Option.map_map]
    rfl

/-- The nearest opener is found whatever lies behind it. -/
theorem findOpener?_append_of_some {nearer inner rest : List Piece} {opener : Run}
    (found : findOpener? closer nearer = some (inner, opener, rest)) (farther : List Piece) :
    findOpener? closer (nearer ++ farther) = some (inner, opener, rest ++ farther) := by
  fun_induction findOpener? closer nearer generalizing inner with
  | case1 => cases found
  | case2 r more opens =>
    obtain ⟨rfl, rfl, rfl⟩ : [] = inner ∧ r = opener ∧ more = rest := by simpa using found
    rw [List.cons_append, findOpener?.eq_2, if_pos opens]
  | case3 r more closed ih =>
    obtain ⟨⟨nearer, _, _⟩, deeper, same⟩ := Option.map_eq_some_iff.mp found
    obtain ⟨rfl, rfl, rfl⟩ := same
    rw [List.cons_append, findOpener?.eq_2, if_neg closed, ih deeper]
    rfl
  | case4 p more noRun ih =>
    obtain ⟨⟨nearer, _, _⟩, deeper, same⟩ := Option.map_eq_some_iff.mp found
    obtain ⟨rfl, rfl, rfl⟩ := same
    rw [List.cons_append, findOpener?.eq_3 _ _ _ noRun, ih deeper]
    rfl

theorem NoRuns.findOpener?_eq_none {inner : List Piece} (noRuns : NoRuns inner) (closer : Run) :
    findOpener? closer inner = none :=
  Note.findOpener?_eq_none.mpr fun r member => absurd member (noRuns r)

end

/-! ## One mark at a time -/

/-- Runs of one mark are paired as if no runs of other marks lay before them. -/
theorem pairRuns_beside {mark : Char} {outer ahead : List Piece} (inner : List Piece)
    (marked : ∀ r, .run r ∈ ahead → r.mark = mark) (foreign : ∀ r, .run r ∈ outer → r.mark ≠ mark)
    (rest : List Piece) : pairRuns (inner ++ outer) (ahead ++ rest) =
      pairRuns ((pairRuns inner ahead).reverse ++ outer) rest := by
  fun_induction pairRuns inner ahead with
  | case1 before => rw [List.reverse_reverse, List.nil_append]
  | case2 before closer more closes nearer opener farther found ih =>
    obtain ⟨closing, later⟩ := forall_run_cons.mp marked
    have still := forall_run_append.mpr
      ⟨forall_run_spend (n := opener.pairLength closer) fun _ => closing closer rfl, later⟩
    rw [List.cons_append, pairRuns.eq_2, if_pos closes, findOpener?_append_of_some found]
    simpa using ih still
  | case3 before closer more closes none ih =>
    have others : findOpener? closer outer = .none := by
      refine findOpener?_eq_none.mpr fun r member => ?_
      have different : r.mark ≠ closer.mark := by
        rw [marked closer List.mem_cons_self]
        exact foreign r member
      simp [Run.opensFor, different]
    rw [List.cons_append, pairRuns.eq_2, if_pos closes, findOpener?_append none, others]
    exact ih fun r member => marked r (List.mem_cons_of_mem _ member)
  | case4 before closer more closed ih =>
    rw [List.cons_append, pairRuns.eq_2, if_neg closed]
    exact ih fun r member => marked r (List.mem_cons_of_mem _ member)
  | case5 before p more noRun ih =>
    rw [List.cons_append, pairRuns.eq_3 _ _ _ noRun]
    exact ih fun r member => marked r (List.mem_cons_of_mem _ member)

/-- The runs that are left have the marks that were there. -/
theorem mark_of_mem_pairRuns {mark : Char} {before ahead : List Piece}
    (read : ∀ r, .run r ∈ before → r.mark = mark) (marked : ∀ r, .run r ∈ ahead → r.mark = mark) :
    ∀ r, .run r ∈ pairRuns before ahead → r.mark = mark := by
  fun_induction pairRuns before ahead with
  | case1 before => exact fun r member => read r (List.mem_reverse.mp member)
  | case2 before closer rest closes inner opener farther found ih =>
    obtain ⟨rfl, _⟩ := of_findOpener? found
    obtain ⟨opening, behind⟩ := forall_run_cons.mp (forall_run_append.mp read).2
    obtain ⟨closing, later⟩ := forall_run_cons.mp marked
    refine ih (forall_run_cons.mpr ⟨fun r same => absurd same (wrap_ne_run _ _ r), ?_⟩) ?_
    · exact forall_run_append.mpr ⟨forall_run_spend fun _ => opening opener rfl, behind⟩
    · exact forall_run_append.mpr ⟨forall_run_spend fun _ => closing closer rfl, later⟩
  | case3 before closer rest closes none ih =>
    obtain ⟨closing, later⟩ := forall_run_cons.mp marked
    refine ih (forall_run_cons.mpr ⟨fun r same => ?_, read⟩) later
    rw [← Piece.run.inj same]
    exact closing closer rfl
  | case4 before closer rest closed ih =>
    obtain ⟨closing, later⟩ := forall_run_cons.mp marked
    exact ih (forall_run_cons.mpr ⟨closing, read⟩) later
  | case5 before p rest noRun ih =>
    obtain ⟨first, later⟩ := forall_run_cons.mp marked
    exact ih (forall_run_cons.mpr ⟨first, read⟩) later

/-! ## No character gets lost -/

mutual

/-- How many characters of the text a piece stands for. -/
def Piece.width : Piece → Nat
  | .text cs => cs.length
  | .code cs => cs.length
  | .lineBreak => 1
  | .run r => r.remaining
  | .strong inner => widthOf inner + 4
  | .emphasis inner => widthOf inner + 2

def widthOf : List Piece → Nat
  | [] => 0
  | piece :: rest => piece.width + widthOf rest

end

theorem widthOf_append (first second : List Piece) :
    widthOf (first ++ second) = widthOf first + widthOf second := by
  induction first with
  | nil => simp [widthOf]
  | cons p first ih => rw [List.cons_append, widthOf, widthOf, ih, Nat.add_assoc]

theorem widthOf_reverse (pieces : List Piece) : widthOf pieces.reverse = widthOf pieces := by
  induction pieces with
  | nil => rfl
  | cons p pieces ih => rw [List.reverse_cons, widthOf_append, ih, widthOf, widthOf, widthOf]; omega

theorem widthOf_spend (r : Run) (n : Nat) : widthOf (r.spend n) = r.remaining - n := by
  unfold Run.spend
  split
  · next spent => exact spent.symm
  · rfl

theorem width_wrap {n : Nat} (marks : n = 1 ∨ n = 2) (inner : List Piece) :
    (Piece.wrap n inner).width = widthOf inner + 2 * n := by
  rcases marks with rfl | rfl <;> rfl

theorem pairLength_cases (opener closer : Run) :
    opener.pairLength closer = 2 ∧ 2 ≤ opener.remaining ∧ 2 ≤ closer.remaining ∨
      opener.pairLength closer = 1 := by
  unfold Run.pairLength
  split
  · next both => exact Or.inl ⟨rfl, both⟩
  · exact Or.inr rfl

/-- Pairing keeps the width: a pair takes as many marks from its two runs as its stretch stands
for. -/
theorem width_pairRuns (before ahead : List Piece)
    (unspent : ∀ r, .run r ∈ ahead → 0 < r.remaining) :
    widthOf (pairRuns before ahead) = widthOf before + widthOf ahead := by
  fun_induction pairRuns before ahead with
  | case1 before => rw [widthOf_reverse, widthOf, Nat.add_zero]
  | case2 before closer rest closes inner opener farther found ih =>
    obtain ⟨rfl, opens⟩ := of_findOpener? found
    have closing : 0 < closer.remaining := unspent closer List.mem_cons_self
    have opening : 0 < opener.remaining := by
      simp only [Run.opensFor, Bool.and_eq_true, decide_eq_true_eq] at opens
      exact opens.1.2
    have still := forall_run_append.mpr ⟨forall_run_spend (P := fun r => 0 < r.remaining)
      (n := opener.pairLength closer) (r := closer) id, (forall_run_cons.mp unspent).2⟩
    have marks : opener.pairLength closer = 1 ∨ opener.pairLength closer = 2 :=
      (pairLength_cases opener closer).elim (fun two => Or.inr two.1) Or.inl
    rw [ih still]
    simp only [widthOf, widthOf_append, widthOf_spend, width_wrap marks, widthOf_reverse,
      Piece.width]
    rcases pairLength_cases opener closer with ⟨two, _, _⟩ | one <;> omega
  | case3 before closer rest closes none ih =>
    rw [ih fun r member => unspent r (List.mem_cons_of_mem _ member)]
    simp only [widthOf, Piece.width]
    omega
  | case4 before closer rest closed ih =>
    rw [ih fun r member => unspent r (List.mem_cons_of_mem _ member)]
    simp only [widthOf]
    omega
  | case5 before p rest noRun ih =>
    rw [ih fun r member => unspent r (List.mem_cons_of_mem _ member)]
    simp only [widthOf]
    omega

/-! ## Texts without pairs -/

def Piece.isWrap : Piece → Bool
  | .strong _ => true
  | .emphasis _ => true
  | _ => false

theorem isWrap_wrap (n : Nat) (inner : List Piece) : (Piece.wrap n inner).isWrap = true := by
  unfold Piece.wrap
  split <;> rfl

/-- What has been emphasised stays so. -/
theorem any_isWrap_pairRuns (before ahead : List Piece) (wrapped : before.any Piece.isWrap = true) :
    (pairRuns before ahead).any Piece.isWrap = true := by
  fun_induction pairRuns before ahead with
  | case1 before => rwa [List.any_reverse]
  | case2 before closer rest closes inner opener farther found ih =>
    exact ih (by rw [List.any_cons, isWrap_wrap, Bool.true_or])
  | case3 before closer rest closes none ih => exact ih (by rw [List.any_cons, wrapped, Bool.or_true])
  | case4 before closer rest closed ih => exact ih (by rw [List.any_cons, wrapped, Bool.or_true])
  | case5 before p rest noRun ih => exact ih (by rw [List.any_cons, wrapped, Bool.or_true])

/-- The run once it has been tried as a closer in vain. -/
def Run.tried (r : Run) : Run := { r with canClose := false }

def Piece.tried : Piece → Piece
  | .run r => .run r.tried
  | p => p

/-- The first of two pieces does not open for the second. -/
def Apart (first second : Piece) : Prop :=
  ∀ opener closer, first = .run opener → second = .run closer → closer.canClose = true →
    opener.tried.opensFor closer = false

theorem apart_tried {first second : Piece} : Apart first.tried second ↔ Apart first second := by
  cases first with
  | run r =>
    refine ⟨fun apart opener closer same => ?_, fun apart opener closer same => ?_⟩
    · obtain rfl := Piece.run.inj same
      exact apart r.tried closer rfl
    · obtain rfl := Piece.run.inj same
      exact apart r closer rfl
  | _ => exact Iff.rfl

theorem apart_of_not_canClose {first : Piece} {r : Run} (closed : r.canClose = false) :
    Apart first (.run r) := by
  intro opener closer _ same closes
  rw [← Piece.run.inj same, closed] at closes
  cases closes

theorem apart_of_noRun {first p : Piece} (noRun : ∀ r, p ≠ .run r) : Apart first p :=
  fun _ closer _ same => absurd same (noRun closer)

theorem findOpener?_eq_none_iff_apart {closer : Run} {before : List Piece}
    (closes : closer.canClose = true) (tried : ∀ p ∈ before, p.tried = p) :
    findOpener? closer before = none ↔ ∀ p ∈ before, Apart p (.run closer) := by
  rw [findOpener?_eq_none]
  constructor
  · intro none p member opener closer' isOpener isCloser _
    subst isOpener
    rw [← Piece.run.inj isCloser, Piece.run.inj (tried _ member)]
    exact none opener member
  · intro apart r member
    have fails := apart _ member r closer rfl rfl closes
    rwa [Piece.run.inj (tried _ member)] at fails

/-- What has been read lies apart from all that is ahead, and the pieces ahead from each other. -/
structure AllApart (before ahead : List Piece) : Prop where
  tried : ∀ p ∈ before, p.tried = p
  across : ∀ p ∈ before, ∀ q ∈ ahead, Apart p q
  within : ahead.Pairwise Apart

theorem allApart_cons {before rest : List Piece} {p : Piece} (tried : ∀ q ∈ before, q.tried = q)
    (first : ∀ q ∈ before, Apart q p) :
    AllApart before (p :: rest) ↔ AllApart (p.tried :: before) rest := by
  have twice : p.tried.tried = p.tried := by cases p <;> rfl
  constructor
  · rintro ⟨_, across, within⟩
    obtain ⟨next, within⟩ := List.pairwise_cons.mp within
    refine ⟨List.forall_mem_cons.mpr ⟨twice, tried⟩, List.forall_mem_cons.mpr ⟨?_, ?_⟩, within⟩
    · exact fun q member => apart_tried.mpr (next q member)
    · exact fun q member r later => across q member r (List.mem_cons_of_mem p later)
  · rintro ⟨_, across, within⟩
    obtain ⟨next, across⟩ := List.forall_mem_cons.mp across
    refine ⟨tried, fun q member => List.forall_mem_cons.mpr ⟨first q member, across q member⟩, ?_⟩
    exact List.pairwise_cons.mpr ⟨fun q member => apart_tried.mp (next q member), within⟩

/-- A text is left as it is, but for the runs that have been tried, if no run opens for another. -/
theorem pairRuns_of_allApart (before ahead : List Piece) (apart : AllApart before ahead) :
    pairRuns before ahead = before.reverse ++ ahead.map Piece.tried := by
  induction ahead generalizing before with
  | nil => simp [pairRuns]
  | cons p rest ih =>
    have first : ∀ q ∈ before, Apart q p := fun q member =>
      apart.across q member p List.mem_cons_self
    have next := ih (p.tried :: before) ((allApart_cons apart.tried first).mp apart)
    rw [List.reverse_cons, List.append_assoc, List.singleton_append] at next
    rw [List.map_cons, ← next]
    cases p with
    | run r =>
      rw [pairRuns.eq_2]
      split
      · next closes =>
        rw [(findOpener?_eq_none_iff_apart closes apart.tried).mpr first]
        rfl
      · next closed =>
        have same : r.tried = r := by
          cases r
          simp_all [Run.tried]
        rw [Piece.tried, same]
    | _ =>
      rw [pairRuns.eq_3 _ _ _ (by simp)]
      rfl

/-- If a run opens for another, something is emphasised, though maybe not between these two. -/
theorem allApart_of_pairRuns (before ahead : List Piece) (tried : ∀ p ∈ before, p.tried = p)
    (plain : (pairRuns before ahead).any Piece.isWrap = false) : AllApart before ahead := by
  induction ahead generalizing before with
  | nil => exact ⟨tried, by simp, List.Pairwise.nil⟩
  | cons p rest ih =>
    have extend : ∀ {q : Piece}, q.tried = q → ∀ r ∈ q :: before, r.tried = r := fun same =>
      List.forall_mem_cons.mpr ⟨same, tried⟩
    cases p with
    | run r =>
      rw [pairRuns.eq_2] at plain
      split at plain
      · next closes =>
        cases found : findOpener? r before with
        | none =>
          rw [found] at plain
          have first := (findOpener?_eq_none_iff_apart closes tried).mp found
          exact (allApart_cons tried first).mpr (ih _ (extend rfl) plain)
        | some triple =>
          obtain ⟨inner, opener, farther⟩ := triple
          rw [found] at plain
          have wrapped := any_isWrap_pairRuns
            (.wrap (opener.pairLength r) inner.reverse ::
              (opener.spend (opener.pairLength r) ++ farther))
            (r.spend (opener.pairLength r) ++ rest)
            (by rw [List.any_cons, isWrap_wrap, Bool.true_or])
          cases plain.symm.trans wrapped
      · next closed =>
        have same : Piece.tried (.run r) = .run r := by
          cases r
          simp_all [Run.tried, Piece.tried]
        refine (allApart_cons tried fun q _ => apart_of_not_canClose (by simpa using closed)).mpr ?_
        rw [same]
        exact ih _ (extend same) plain
    | _ =>
      rw [pairRuns.eq_3 _ _ _ (by simp)] at plain
      exact (allApart_cons tried fun q _ => apart_of_noRun (by simp)).mpr (ih _ (extend rfl) plain)

/-! ## Settled text -/

/-- The characters of a piece that become text of their own. -/
def Piece.spelling : Piece → List Char
  | .text cs => cs
  | .run r => List.replicate r.remaining r.mark
  | _ => []

def Piece.isText : Piece → Bool
  | .text _ => true
  | .run _ => true
  | _ => false

theorem settle_of_isText {p : Piece} (text : p.isText = true) : p.settle = .text p.spelling := by
  cases p with
  | text cs => rfl
  | run r => rfl
  | _ => cases text

theorem settle_ne_text {p : Piece} (noText : p.isText = false) (cs : List Char) :
    p.settle ≠ .text cs := by
  cases p with
  | text | run => cases noText
  | _ => simp [Piece.settle]

/-- Text at the beginning is the beginning of what the pieces spell. -/
theorem prefix_of_settleAll {pieces : List Piece} {cs : List Char} {more : List Inline}
    (settled : settleAll pieces = .text cs :: more) : cs <+: pieces.flatMap Piece.spelling := by
  induction pieces generalizing cs more with
  | nil => cases settled
  | cons p rest ih =>
    rw [settleAll] at settled
    rw [List.flatMap_cons]
    cases text : p.isText with
    | true =>
      rw [settle_of_isText text] at settled
      unfold Inline.before at settled
      split at settled
      · next first last later isText isRest =>
        obtain rfl := Inline.text.inj isText
        obtain rfl := Inline.text.inj (List.cons.inj settled).1
        exact (List.prefix_append_right_inj _).mpr (ih isRest)
      · obtain rfl := Inline.text.inj (List.cons.inj settled).1
        exact List.prefix_append _ _
    | false =>
      have apart := settle_ne_text text
      rw [Inline.before] at settled
      · exact absurd (List.cons.inj settled).1 (apart cs)
      · exact fun first _ _ same => absurd same (apart first)

/-- Texts and runs that are left become one text. -/
theorem settleAll_text {pieces : List Piece} (texts : ∀ p ∈ pieces, p.isText = true)
    (filled : pieces ≠ []) : settleAll pieces = [.text (pieces.flatMap Piece.spelling)] := by
  induction pieces with
  | nil => exact absurd rfl filled
  | cons p rest ih =>
    obtain ⟨first, others⟩ := List.forall_mem_cons.mp texts
    rw [settleAll, settle_of_isText first, List.flatMap_cons]
    cases rest with
    | nil => simp [settleAll, Inline.before]
    | cons q rest =>
      rw [ih others (List.cons_ne_nil q rest)]
      rfl

theorem widthOf_text {pieces : List Piece} (texts : ∀ p ∈ pieces, p.isText = true) :
    widthOf pieces = (pieces.flatMap Piece.spelling).length := by
  induction pieces with
  | nil => rfl
  | cons p rest ih =>
    obtain ⟨first, others⟩ := List.forall_mem_cons.mp texts
    have width : p.width = p.spelling.length := by
      cases p with
      | text cs => rfl
      | run r => exact List.length_replicate.symm
      | _ => cases first
    rw [widthOf, ih others, width, List.flatMap_cons, List.length_append]

/-- What is spelled is shorter than what stands there if something is emphasised. -/
theorem length_spelling_le (pieces : List Piece) :
    (pieces.flatMap Piece.spelling).length + (if pieces.any Piece.isWrap then 2 else 0) ≤
      widthOf pieces := by
  induction pieces with
  | nil => simp [widthOf]
  | cons p rest ih =>
    have first : p.spelling.length + (if p.isWrap then 2 else 0) ≤ p.width := by
      cases p <;> simp [Piece.spelling, Piece.isWrap, Piece.width]
    rw [List.flatMap_cons, List.length_append, List.any_cons, widthOf]
    cases wrap : p.isWrap with
    | true =>
      rw [wrap, if_pos rfl] at first
      rw [Bool.true_or, if_pos rfl]
      omega
    | false =>
      rw [wrap, if_neg Bool.false_ne_true] at first
      rw [Bool.false_or]
      omega

end BoardRules.Note
