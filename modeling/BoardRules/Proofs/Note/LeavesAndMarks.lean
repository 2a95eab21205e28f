import BoardRules.Proofs.Note.RuleOfThree
import Mathlib.Algebra.GroupWithZero.Nat

/-!
# Leaves and marks

Emphasis makes a tree of the pieces of a text. Its leaves are the texts, the code spans and the line
breaks; its marks are those left in runs, two more around every emphasised stretch and four more
around every strong one. To pair two runs changes neither the leaves nor the number of marks
(`Keeps.pair`).
-/
namespace BoardRules.Note

/-! ## The pieces of a tree -/

mutual

/-- A piece and all pieces inside it, in the order of the text. -/
def Piece.parts : Piece → List Piece
  | .text cs => [.text cs]
  | .code cs => [.code cs]
  | .lineBreak => [.lineBreak]
  | .run r => [.run r]
  | .strong inner => .strong inner :: partsOf inner
  | .emphasis inner => .emphasis inner :: partsOf inner

def partsOf : List Piece → List Piece
  | [] => []
  | piece :: rest => piece.parts ++ partsOf rest

end

def Piece.isLeaf : Piece → Bool
  | .text _ => true
  | .code _ => true
  | .lineBreak => true
  | _ => false

def Piece.isStrong : Piece → Bool
  | .strong _ => true
  | _ => false

def Piece.isEmphasis : Piece → Bool
  | .emphasis _ => true
  | _ => false

def Piece.run? : Piece → Option Run
  | .run r => some r
  | _ => none

section

variable (pieces : List Piece)

/-- Texts, code spans and line breaks at any depth. -/
def leaves : List Piece := (partsOf pieces).filter Piece.isLeaf

/-- The runs at any depth. -/
def runs : List Run := (partsOf pieces).filterMap Piece.run?

def strongCount : Nat := (partsOf pieces).countP Piece.isStrong

def emphasisCount : Nat := (partsOf pieces).countP Piece.isEmphasis

/-- The marks that no pair has used up. -/
def looseMarks : Nat := ((runs pieces).map Run.remaining).sum

/-- All marks: those that are left, and those around emphasised stretches. -/
def markCount : Nat := looseMarks pieces + 2 * emphasisCount pieces + 4 * strongCount pieces

end

theorem partsOf_append (first second : List Piece) :
    partsOf (first ++ second) = partsOf first ++ partsOf second := by
  induction first with
  | nil => rfl
  | cons p first ih => rw [List.cons_append, partsOf, partsOf, ih, List.append_assoc]

theorem partsOf_of_flat {pieces : List Piece} (flat : ∀ p ∈ pieces, p.isWrap = false) :
    partsOf pieces = pieces := by
  induction pieces with
  | nil => rfl
  | cons p rest ih =>
    obtain ⟨first, others⟩ := List.forall_mem_cons.mp flat
    have single : p.parts = [p] := by
      cases p with
      | strong | emphasis => cases first
      | _ => rfl
    rw [partsOf, single, ih others, List.singleton_append]

section

variable (first second : List Piece)

theorem leaves_append : leaves (first ++ second) = leaves first ++ leaves second := by
  rw [leaves, partsOf_append, List.filter_append, leaves, leaves]

theorem runs_append : runs (first ++ second) = runs first ++ runs second := by
  rw [runs, partsOf_append, List.filterMap_append, runs, runs]

theorem markCount_append : markCount (first ++ second) = markCount first + markCount second := by
  simp only [markCount, looseMarks, emphasisCount, strongCount, runs_append, partsOf_append,
    List.map_append, List.sum_append, List.countP_append]
  omega

end

theorem partsOf_wrap (n : Nat) (inner : List Piece) :
    partsOf [.wrap n inner] = .wrap n inner :: partsOf inner := by
  unfold Piece.wrap
  split <;> simp [partsOf, Piece.parts]

theorem runs_wrap (n : Nat) (inner : List Piece) : runs [.wrap n inner] = runs inner := by
  rw [runs, partsOf_wrap, List.filterMap_cons_none, runs]
  unfold Piece.wrap
  split <;> rfl

theorem leaves_wrap (n : Nat) (inner : List Piece) : leaves [.wrap n inner] = leaves inner := by
  rw [leaves, partsOf_wrap, List.filter_cons_of_neg, leaves]
  unfold Piece.wrap
  split <;> exact Bool.false_ne_true

theorem markCount_wrap {n : Nat} (marks : n = 1 ∨ n = 2) (inner : List Piece) :
    markCount [.wrap n inner] = markCount inner + 2 * n := by
  simp only [markCount, looseMarks, runs_wrap, emphasisCount, strongCount, partsOf_wrap,
    List.countP_cons]
  rcases marks with rfl | rfl <;> simp [Piece.wrap, Piece.isEmphasis, Piece.isStrong] <;> omega

theorem leaves_run (r : Run) : leaves [.run r] = [] := rfl

theorem runs_run (r : Run) : runs [.run r] = [r] := rfl

theorem markCount_run (r : Run) : markCount [.run r] = r.remaining := rfl

theorem leaves_spend (r : Run) (n : Nat) : leaves (r.spend n) = [] := by
  unfold Run.spend
  split <;> rfl

theorem markCount_spend (r : Run) (n : Nat) : markCount (r.spend n) = r.remaining - n := by
  unfold Run.spend
  split
  · next spent => exact spent.symm
  · rfl

/-! ## What a change of the pieces keeps -/

/-- A run in use: it has marks, and no more than it was cut with. -/
def Run.InUse (r : Run) : Prop := 1 ≤ r.remaining ∧ r.remaining ≤ r.length

theorem Run.InUse.spend {r s : Run} {n : Nat} (inUse : r.InUse) (member : s ∈ runs (r.spend n)) :
    s.InUse := by
  unfold Run.spend at member
  split at member
  · cases member
  · next left =>
    rw [runs_run, List.mem_singleton] at member
    subst member
    exact ⟨Nat.pos_of_ne_zero left, Nat.le_trans (Nat.sub_le _ _) inUse.2⟩

/-- The leaves are the same in the same order, no mark is lost, and all runs stay in use. -/
structure Keeps (pieces pieces' : List Piece) : Prop where
  leaves : leaves pieces' = leaves pieces
  marks : markCount pieces' = markCount pieces
  inUse : (∀ r ∈ runs pieces, r.InUse) → ∀ r ∈ runs pieces', r.InUse

namespace Keeps

variable {pieces pieces' pieces'' : List Piece}

theorem refl (pieces : List Piece) : Keeps pieces pieces := ⟨rfl, rfl, id⟩

theorem trans (first : Keeps pieces pieces') (second : Keeps pieces' pieces'') :
    Keeps pieces pieces'' :=
  ⟨second.leaves.trans first.leaves, second.marks.trans first.marks,
    fun inUse => second.inUse (first.inUse inUse)⟩

theorem inside (keeps : Keeps pieces pieces') (front back : List Piece) :
    Keeps (front ++ (pieces ++ back)) (front ++ (pieces' ++ back)) := by
  refine ⟨?_, ?_, fun inUse r member => ?_⟩
  · simp only [leaves_append, keeps.leaves]
  · simp only [markCount_append, keeps.marks]
  · simp only [runs_append, List.mem_append] at inUse member
    rcases member with before | here | behind
    · exact inUse r (.inl before)
    · exact keeps.inUse (fun r member => inUse r (.inr (.inl member))) r here
    · exact inUse r (.inr (.inr behind))

theorem tried (r : Run) : Keeps [.run r] [.run r.tried] := by
  refine ⟨rfl, rfl, fun inUse s member => ?_⟩
  rw [runs_run, List.mem_singleton] at member
  subst member
  exact inUse r List.mem_cons_self

/-- A pair takes off two runs what it puts around the pieces between them. -/
theorem pair {opener closer : Run} {n : Nat} (marks : n = 1 ∨ n = 2) (opens : n ≤ opener.remaining)
    (closes : n ≤ closer.remaining) (inner : List Piece) :
    Keeps ([.run opener] ++ (inner ++ [.run closer]))
      (opener.spend n ++ ([.wrap n inner] ++ closer.spend n)) := by
  refine ⟨?_, ?_, fun inUse r member => ?_⟩
  · simp only [leaves_append, leaves_spend, leaves_wrap, leaves_run]
  · simp only [markCount_append, markCount_spend, markCount_wrap marks, markCount_run]
    omega
  · simp only [runs_append, runs_run, runs_wrap, List.mem_append] at inUse member
    rcases member with first | within | last
    · exact (inUse opener (by simp)).spend first
    · exact inUse r (by simp [within])
    · exact (inUse closer (by simp)).spend last

end Keeps

/-! ## Pieces of a text -/

/-- A text is cut into pieces without emphasis. -/
theorem flat_ofText (paragraph : List Char) : ∀ p ∈ Piece.ofText paragraph, p.isWrap = false :=
  forall_piecesAfter (P := fun p => p.isWrap = false) (fun _ => rfl) (fun _ => rfl) rfl
    (fun _ _ _ _ => rfl) none [] paragraph

theorem whole_runs_ofText (paragraph : List Char) :
    ∀ r ∈ runs (Piece.ofText paragraph), r.remaining = r.length ∧ 0 < r.length := by
  intro r member
  rw [runs, partsOf_of_flat (flat_ofText paragraph)] at member
  obtain ⟨p, listed, isRun⟩ := List.mem_filterMap.mp member
  cases p with
  | run r' =>
    obtain rfl := Option.some.inj isRun
    exact fresh_piecesAfter none [] paragraph _ listed
  | _ => cases isRun

theorem markCount_ofText (paragraph : List Char) :
    markCount (Piece.ofText paragraph) = ((runs (Piece.ofText paragraph)).map Run.length).sum := by
  have flat := flat_ofText paragraph
  have noneOf {kind : Piece → Bool} (wraps : ∀ p, kind p = true → p.isWrap = true) :
      (partsOf (Piece.ofText paragraph)).countP kind = 0 := by
    rw [partsOf_of_flat flat, List.countP_eq_zero]
    intro p listed emphasised
    exact Bool.false_ne_true ((flat p listed).symm.trans (wraps p emphasised))
  have noEmphasis : emphasisCount (Piece.ofText paragraph) = 0 :=
    noneOf fun p is => by cases p <;> first | rfl | cases is
  have noStrong : strongCount (Piece.ofText paragraph) = 0 :=
    noneOf fun p is => by cases p <;> first | rfl | cases is
  have whole : (runs (Piece.ofText paragraph)).map Run.remaining =
      (runs (Piece.ofText paragraph)).map Run.length :=
    List.map_congr_left fun r member => (whole_runs_ofText paragraph r member).1
  rw [markCount, looseMarks, whole, noEmphasis, noStrong]
  rfl

end BoardRules.Note
