import BoardRules.Proofs.Note.InlineReading
import BoardRules.Proofs.Note.PairedText

/-!
# Repository names between stars

A repository name that stands between double stars is read as inline text, where low lines are
marks. A run of them opens after a dot, a hyphen or the stars and closes before one, so that a name
may be emphasised in part; then its low lines are gone, and the name is not read back. Which names
these are is said here in terms of their characters (`Emphasised`), and `read_eq_some_iff` says that
all other names are read as they are.
-/
namespace BoardRules.Note

open Text

/-! ## Names -/

/-- The punctuation of repository names apart from low lines. -/
def isJoint (c : Char) : Bool := c == '.' || c == '-'

def isNameCharacter (c : Char) : Bool := c.isAlphanum || isJoint c || c == '_'

structure RepositoryName where
  text : String
  nonempty : text.toList ≠ []
  alphabet : ∀ c ∈ text.toList, isNameCharacter c = true

/-- A run of low lines in a text, with what stands on its two sides. -/
structure LowLines (text left right : List Char) (count : Nat) : Prop where
  split : text = left ++ (List.replicate count '_' ++ right)
  filled : 0 < count
  stopsLeft : left.getLast? ≠ some '_'
  stopsRight : right.head? ≠ some '_'

/-- What comes after the text stands at the beginning or after a joint. -/
def EndsJoint (left : List Char) : Prop := ∀ c ∈ left.getLast?, isJoint c = true

def StartsJoint (right : List Char) : Prop := ∀ c ∈ right.head?, isJoint c = true

/-- Two runs of low lines in a name that may emphasise the text between them: the first stands at
the beginning or after a joint, the second at the end or before one. If the second stands after a
joint as well, so that it could open too, their lengths have to fit. -/
structure EmphasisIn (name left between inner right : List Char) (opening closing : Nat) :
    Prop where
  first : LowLines name left between opening
  second : LowLines between inner right closing
  opens : EndsJoint left
  closes : StartsJoint right
  fits : EndsJoint inner → 3 ∣ opening + closing → 3 ∣ opening ∧ 3 ∣ closing

def Emphasised (name : List Char) : Prop :=
  ∃ left between inner right opening closing,
    EmphasisIn name left between inner right opening closing

/-! ## Characters of names -/

theorem isNameCharacter_cases {c : Char} (name : isNameCharacter c = true) :
    c.isAlphanum = true ∨ isJoint c = true ∨ c = '_' := by
  simpa [isNameCharacter, or_assoc] using name

theorem isPunctuation_of_isAlphanum {c : Char} (letter : c.isAlphanum = true) :
    isPunctuation c = false := by
  have ascii : isAsciiPunctuation c = false := by
    have range := isAlphanum_iff.mp letter
    simp only [isAsciiPunctuation, Bool.or_eq_false_iff, Bool.and_eq_false_iff,
      decide_eq_false_iff_not]
    omega
  simp [isPunctuation, ascii, isAlphanumeric_of_isAlphanum letter]

theorem eq_of_isJoint {c : Char} (joint : isJoint c = true) : c = '.' ∨ c = '-' := by
  simpa [isJoint] using joint

theorem isPunctuation_of_isJoint {c : Char} (joint : isJoint c = true) :
    isPunctuation c = true := by
  rcases eq_of_isJoint joint with rfl | rfl <;> decide

theorem isBlank_of_isNameCharacter {c : Char} (name : isNameCharacter c = true) :
    isBlank c = false := by
  rcases isNameCharacter_cases name with letter | joint | rfl
  · exact isBlank_of_isAlphanum letter
  · rcases eq_of_isJoint joint with rfl | rfl <;> decide
  · decide

/-- Of the characters of a name only low lines have a meaning in inline text. -/
theorem isSpecial_of_isNameCharacter {c : Char} (name : isNameCharacter c = true)
    (plain : c ≠ '_') : isSpecial c = false := by
  rcases isNameCharacter_cases name with letter | joint | same
  · have range := isAlphanum_iff.mp letter
    have other : ∀ d : Char, d.isAlphanum = false → c ≠ d := by
      intro d noLetter same
      rw [same, noLetter] at letter
      cases letter
    simp [isSpecial, other '\\' (by decide), other '\n' (by decide), other backtick (by decide),
      other '*' (by decide), other '_' (by decide)]
  · rcases eq_of_isJoint joint with rfl | rfl <;> decide
  · exact absurd same plain

/-! ## The pieces of a name -/

/-- What a name is cut into that stands before a star and after `before`; `pending` is text that no
piece holds yet, last character first. -/
def namePieces (before : Char) (pending : List Char) : List Char → List Piece
  | [] => flushText pending
  | c :: rest =>
    if c = '_' then
      flushText pending ++
        .run (.between '_' (runLength '_' rest) (some before)
            (some ((afterRun '_' rest).headD '*'))) ::
          namePieces '_' [] (afterRun '_' rest)
    else namePieces c (c :: pending) rest
termination_by name => name.length
decreasing_by
  · exact Nat.lt_succ_of_le (length_afterRun_le _ _)
  · exact Nat.lt_succ_self _

theorem getLastD_afterRun (c : Char) (rest : List Char) :
    (afterRun c rest).getLastD c = rest.getLastD c := by
  induction rest with
  | nil => rfl
  | cons d rest ih =>
    by_cases same : d = c
    · have skipped : afterRun c (d :: rest) = afterRun c rest := by simp [afterRun, same]
      rw [skipped, ih, List.getLastD_cons, same]
    · have kept : afterRun c (d :: rest) = d :: rest := by simp [afterRun, same]
      rw [kept]

theorem head?_append_cons (text rest : List Char) (c : Char) :
    (text ++ c :: rest).head? = some (text.headD c) := by
  cases text <;> rfl

theorem headD_afterRun_ne (rest : List Char) : (afterRun '_' rest).headD '*' ≠ '_' := by
  have stopped := head?_afterRun '_' rest
  cases left : afterRun '_' rest with
  | nil => decide
  | cons c later =>
    rw [left] at stopped
    simpa using stopped

theorem piecesAfter_name (before : Char) (pending text rest : List Char)
    (name : ∀ c ∈ text, isNameCharacter c = true) :
    piecesAfter (some before) pending (text ++ '*' :: rest) =
      namePieces before pending text ++
        piecesAfter (some (text.getLastD before)) [] ('*' :: rest) := by
  fun_induction namePieces before pending text with
  | case1 before pending =>
    rw [List.nil_append, List.getLastD_nil, piecesAfter_mark _ _ _ (Or.inl rfl),
      piecesAfter_mark _ _ _ (Or.inl rfl)]
    rfl
  | case2 before pending more ih =>
    obtain ⟨_, others⟩ := List.forall_mem_cons.mp name
    have later : ∀ c ∈ afterRun '_' more, isNameCharacter c = true := fun c member =>
      others c ((List.dropWhile_sublist _).subset member)
    have next := head?_append_cons (afterRun '_' more) rest '*'
    have stops : (afterRun '_' more ++ '*' :: rest).head? ≠ some '_' := by
      rw [next]
      exact fun same => headD_afterRun_ne more (Option.some.inj same)
    obtain ⟨length, after⟩ := run_append_of_stops more stops
    rw [List.cons_append, piecesAfter_mark _ _ _ (Or.inr rfl), length, after, next, ih later,
      getLastD_afterRun, List.getLastD_cons, List.append_assoc, List.cons_append]
  | case3 before pending c more plain ih =>
    obtain ⟨first, others⟩ := List.forall_mem_cons.mp name
    rw [List.cons_append, piecesAfter_ordinary _ _ _ (isSpecial_of_isNameCharacter first plain),
      ih others, List.getLastD_cons]

/-! ### What the pieces spell -/

theorem mem_namePieces {before : Char} {pending text : List Char} {p : Piece}
    (member : p ∈ namePieces before pending text) :
    (∃ cs, p = .text cs) ∨
      ∃ n left right, 0 < n ∧ p = .run (.between '_' n (some left) (some right)) := by
  have flushed : ∀ pending, p ∈ flushText pending → ∃ cs, p = .text cs := by
    intro pending member
    unfold flushText at member
    split at member
    · cases member
    · exact ⟨_, List.mem_singleton.mp member⟩
  fun_induction namePieces before pending text with
  | case1 => exact Or.inl (flushed _ member)
  | case2 before pending more ih =>
    rcases List.mem_append.mp member with text | member
    · exact Or.inl (flushed _ text)
    · rcases List.mem_cons.mp member with rfl | member
      · exact Or.inr ⟨_, _, _, Nat.succ_pos _, rfl⟩
      · exact ih member
  | case3 before pending c more plain ih => exact ih member

theorem isText_namePieces {before : Char} {pending text : List Char} :
    ∀ p ∈ namePieces before pending text, p.isText = true := by
  intro p member
  rcases mem_namePieces member with ⟨cs, rfl⟩ | ⟨n, left, right, _, rfl⟩ <;> rfl

theorem spelling_namePieces (before : Char) (pending text : List Char) :
    (namePieces before pending text).flatMap Piece.spelling = pending.reverse ++ text := by
  have flushed : ∀ pending, (flushText pending).flatMap Piece.spelling = pending.reverse := by
    intro pending
    unfold flushText
    split
    · next empty => simp [List.isEmpty_iff.mp empty]
    · simp [Piece.spelling]
  fun_induction namePieces before pending text with
  | case1 => rw [flushed, List.append_nil]
  | case2 before pending more ih =>
    rw [List.flatMap_append, flushed, List.flatMap_cons, ih, List.reverse_nil, List.nil_append,
      ← replicate_runLength_append]
    rfl
  | case3 before pending c more plain ih => rw [ih, List.reverse_cons, List.append_assoc]; rfl

/-! ### Where the runs stand -/

theorem suffix_flushText {pending : List Char} {r : Run} {back pieces : List Piece} :
    .run r :: back <:+ flushText pending ++ pieces ↔ .run r :: back <:+ pieces := by
  unfold flushText
  split
  · rfl
  · simp [List.suffix_cons_iff]

theorem getLastD_append_of_ne_nil (before : List Char) {later : List Char} (filled : later ≠ [])
    (c d : Char) : (before ++ later).getLastD c = later.getLastD d := by
  rw [List.getLastD_eq_getLast?, List.getLastD_eq_getLast?, List.getLast?_append_of_ne_nil _ filled,
    List.getLast?_eq_some_getLast filled]
  rfl

namespace LowLines

variable {text left right : List Char} {count : Nat}

theorem cons_iff {c : Char} (plain : c ≠ '_') :
    LowLines (c :: text) left right count ↔
      ∃ later, left = c :: later ∧ LowLines text later right count := by
  have stops : ∀ later, (c :: later).getLast? ≠ some '_' ↔ later.getLast? ≠ some '_' := by
    intro later
    cases later with
    | nil => simp [plain]
    | cons d later => rw [List.getLast?_cons_cons]
  constructor
  · rintro ⟨split, filled, stopsLeft, stopsRight⟩
    obtain ⟨more, rfl⟩ : ∃ more, count = more + 1 := ⟨count - 1, by omega⟩
    cases left with
    | nil => exact absurd (List.cons.inj split).1 plain
    | cons d later =>
      obtain ⟨rfl, rest⟩ := List.cons.inj split
      exact ⟨later, rfl, rest, filled, (stops later).mp stopsLeft, stopsRight⟩
  · rintro ⟨later, rfl, split, filled, stopsLeft, stopsRight⟩
    exact ⟨by rw [split]; rfl, filled, (stops later).mpr stopsLeft, stopsRight⟩

/-- A text that begins with a run has this run and the later ones. -/
theorem lowLine_iff :
    LowLines ('_' :: text) left right count ↔
      left = [] ∧ right = afterRun '_' text ∧ count = runLength '_' text ∨
        ∃ later, later ≠ [] ∧ left = List.replicate (runLength '_' text) '_' ++ later ∧
          LowLines (afterRun '_' text) later right count := by
  constructor
  · rintro ⟨split, filled, stopsLeft, stopsRight⟩
    obtain ⟨more, rfl⟩ : ∃ more, count = more + 1 := ⟨count - 1, by omega⟩
    cases left with
    | nil =>
      obtain rfl : text = List.replicate more '_' ++ right := (List.cons.inj split).2
      rw [runLength_replicate _ _ _ stopsRight, afterRun_replicate _ _ _ stopsRight]
      exact Or.inl ⟨rfl, rfl, rfl⟩
    | cons c before =>
      obtain ⟨rfl, rest⟩ := List.cons.inj split
      have spelled := replicate_runLength_append '_' before
      have later : afterRun '_' before ≠ [] := by
        intro nothing
        rw [nothing, List.append_nil] at spelled
        rw [← spelled, List.getLast?_replicate] at stopsLeft
        simp [runLength] at stopsLeft
      obtain ⟨run, after⟩ := run_append later (List.replicate (more + 1) '_' ++ right)
      rw [← spelled, List.getLast?_append_of_ne_nil _ later] at stopsLeft
      rw [rest, List.append_eq, run, after]
      exact Or.inr ⟨_, later, spelled.symm, rfl, filled, stopsLeft, stopsRight⟩
  · rintro (⟨rfl, rfl, rfl⟩ | ⟨later, later_ne, rfl, split, filled, stopsLeft, stopsRight⟩)
    · exact ⟨(replicate_runLength_append '_' text).symm, Nat.succ_pos _, by simp,
        head?_afterRun _ _⟩
    · refine ⟨?_, filled, by rwa [List.getLast?_append_of_ne_nil _ later_ne], stopsRight⟩
      rw [List.append_assoc, ← split, replicate_runLength_append]

/-- Between two runs stands something. -/
theorem ne_nil (lowLines : LowLines text left right count) (starts : text.head? ≠ some '_') :
    left ≠ [] := by
  rintro rfl
  obtain ⟨more, rfl⟩ : ∃ more, count = more + 1 := ⟨count - 1, by have := lowLines.filled; omega⟩
  rw [lowLines.split] at starts
  exact starts rfl

end LowLines

/-- From a run on, the pieces are those of the text from there on. -/
theorem suffix_namePieces_iff {before : Char} {pending text : List Char} {r : Run}
    {back : List Piece} : .run r :: back <:+ namePieces before pending text ↔
      ∃ left right count, LowLines text left right count ∧
        r = .between '_' count (some (left.getLastD before)) (some (right.headD '*')) ∧
          back = namePieces '_' [] right := by
  fun_induction namePieces before pending text with
  | case1 before pending =>
    rw [← List.append_nil (flushText pending), suffix_flushText, List.suffix_nil]
    refine ⟨fun nothing => absurd nothing (List.cons_ne_nil _ _), ?_⟩
    rintro ⟨left, right, count, ⟨split, filled, _, _⟩, _⟩
    simp at split
    omega
  | case2 before pending more ih =>
    rw [suffix_flushText, List.suffix_cons_iff, ih, List.cons.injEq, Piece.run.injEq]
    constructor
    · rintro (⟨rfl, rfl⟩ | ⟨left, right, count, lowLines, rfl, rfl⟩)
      · exact ⟨[], _, _, LowLines.lowLine_iff.mpr (Or.inl ⟨rfl, rfl, rfl⟩), rfl, rfl⟩
      · have left_ne := lowLines.ne_nil (head?_afterRun '_' more)
        have later := LowLines.lowLine_iff.mpr (Or.inr ⟨left, left_ne, rfl, lowLines⟩)
        refine ⟨_, right, count, later, ?_, rfl⟩
        rw [getLastD_append_of_ne_nil _ left_ne _ '_']
    · rintro ⟨left, right, count, lowLines, rfl, rfl⟩
      rcases LowLines.lowLine_iff.mp lowLines with ⟨rfl, rfl, rfl⟩ | ⟨later, later_ne, rfl, within⟩
      · exact Or.inl ⟨rfl, rfl⟩
      · refine Or.inr ⟨later, right, count, within, ?_, rfl⟩
        rw [getLastD_append_of_ne_nil _ later_ne _ '_']
  | case3 before pending c more plain ih =>
    rw [ih]
    constructor
    · rintro ⟨left, right, count, lowLines, rfl, rfl⟩
      refine ⟨c :: left, right, count, (LowLines.cons_iff plain).mpr ⟨left, rfl, lowLines⟩, ?_, rfl⟩
      rw [List.getLastD_cons]
    · rintro ⟨left, right, count, lowLines, rfl, rfl⟩
      obtain ⟨later, rfl, within⟩ := (LowLines.cons_iff plain).mp lowLines
      exact ⟨later, right, count, within, by rw [List.getLastD_cons], rfl⟩

/-! ## Which names stay whole -/

theorem between_lowLine (n : Nat) {left right : Char} (visibleLeft : isBlank left = false)
    (visibleRight : isBlank right = false) : Run.between '_' n (some left) (some right) =
      ⟨'_', n, n, isPunctuation left, isPunctuation right⟩ := by
  simp only [Run.between, flanking, Option.map_some, Option.getD_some, visibleLeft, visibleRight]
  cases isPunctuation left <;> cases isPunctuation right <;> rfl

/-- Beside low lines punctuation means a joint, or the end of the name. -/
theorem isPunctuation_getD {beside : Option Char} {ends : Char} (mark : isPunctuation ends = true)
    (name : ∀ c ∈ beside, isNameCharacter c = true) (stops : beside ≠ some '_') :
    isPunctuation (beside.getD ends) = true ↔ ∀ c ∈ beside, isJoint c = true := by
  cases beside with
  | none => simpa using mark
  | some c =>
    simp only [Option.getD_some, Option.mem_some_iff, forall_eq']
    refine ⟨fun punctuation => ?_, isPunctuation_of_isJoint⟩
    rcases isNameCharacter_cases (name c rfl) with letter | joint | rfl
    · rw [isPunctuation_of_isAlphanum letter] at punctuation
      cases punctuation
    · exact joint
    · exact absurd rfl stops

theorem isBlank_getD {beside : Option Char} {ends : Char} (visible : isBlank ends = false)
    (name : ∀ c ∈ beside, isNameCharacter c = true) : isBlank (beside.getD ends) = false := by
  cases beside with
  | none => exact visible
  | some c => exact isBlank_of_isNameCharacter (name c rfl)

theorem not_apart_iff {opening closing : Nat} {a b c d : Bool} (unspent : 0 < opening) :
    ¬ Apart (.run ⟨'_', opening, opening, a, b⟩) (.run ⟨'_', closing, closing, c, d⟩) ↔
      a = true ∧ d = true ∧
        (c = true → 3 ∣ opening + closing → 3 ∣ opening ∧ 3 ∣ closing) := by
  have apart : Apart (.run ⟨'_', opening, opening, a, b⟩) (.run ⟨'_', closing, closing, c, d⟩) ↔
      (d = true → (Run.tried ⟨'_', opening, opening, a, b⟩).opensFor
        ⟨'_', closing, closing, c, d⟩ = false) := by
    refine ⟨fun apart => apart _ _ rfl rfl, fun fails opener closer first second closes => ?_⟩
    obtain rfl := Piece.run.inj first
    obtain rfl := Piece.run.inj second
    exact fails closes
  rw [apart]
  simp only [Run.tried, Run.opensFor, Run.rulesOut, Nat.dvd_iff_mod_eq_zero]
  cases a <;> cases c <;> cases d <;> simp [unspent]

section

variable {name left between inner right : List Char} {opening closing : Nat}

/-- Whether two runs of a name stay apart is seen from the characters beside them. -/
theorem not_apart_runs (alphabet : ∀ c ∈ name, isNameCharacter c = true)
    (first : LowLines name left between opening) (second : LowLines between inner right closing) :
    ¬ Apart
        (.run (.between '_' opening (some (left.getLastD '*')) (some (between.headD '*'))))
        (.run (.between '_' closing (some (inner.getLastD '_')) (some (right.headD '*')))) ↔
      EmphasisIn name left between inner right opening closing := by
  have within : ∀ c ∈ between, isNameCharacter c = true := by
    intro c member
    refine alphabet c ?_
    rw [first.split]
    exact List.mem_append_right _ (List.mem_append_right _ member)
  have before : ∀ c ∈ left.getLast?, isNameCharacter c = true := by
    intro c last
    refine alphabet c ?_
    rw [first.split]
    exact List.mem_append_left _ (List.mem_of_getLast? last)
  have middle : ∀ c ∈ inner.getLast?, isNameCharacter c = true := by
    intro c last
    refine within c ?_
    rw [second.split]
    exact List.mem_append_left _ (List.mem_of_getLast? last)
  have after : ∀ c ∈ right.head?, isNameCharacter c = true := by
    intro c head
    refine within c ?_
    rw [second.split]
    exact List.mem_append_right _ (List.mem_append_right _ (List.mem_of_head? head))
  have next : ∀ c ∈ between.head?, isNameCharacter c = true := fun c head =>
    within c (List.mem_of_head? head)
  simp only [List.getLastD_eq_getLast?, List.headD_eq_head?_getD]
  rw [between_lowLine _ (isBlank_getD (by decide) before) (isBlank_getD (by decide) next),
    between_lowLine _ (isBlank_getD (by decide) middle) (isBlank_getD (by decide) after),
    not_apart_iff first.filled, isPunctuation_getD (by decide) before first.stopsLeft,
    isPunctuation_getD (by decide) middle second.stopsLeft,
    isPunctuation_getD (by decide) after second.stopsRight]
  exact ⟨fun ⟨opens, closes, fits⟩ => ⟨first, second, opens, closes, fits⟩,
    fun emphasis => ⟨emphasis.opens, emphasis.closes, emphasis.fits⟩⟩

end

theorem not_pairwise_iff_suffix {α : Type} {R : α → α → Prop} {xs : List α} :
    ¬ xs.Pairwise R ↔
      ∃ x back, x :: back <:+ xs ∧ ∃ y back', y :: back' <:+ back ∧ ¬ R x y := by
  induction xs with
  | nil => simp
  | cons z zs ih =>
    rw [List.pairwise_cons, not_and_or, ih]
    constructor
    · rintro (later | ⟨x, back, suffix, others⟩)
      · push Not at later
        obtain ⟨y, member, fails⟩ := later
        obtain ⟨nearer, back', split⟩ := List.append_of_mem member
        exact ⟨z, zs, List.suffix_rfl, y, back', ⟨nearer, split.symm⟩, fails⟩
      · exact ⟨x, back, suffix.trans (List.suffix_cons z zs), others⟩
    · rintro ⟨x, back, suffix, y, back', later, fails⟩
      rcases List.suffix_cons_iff.mp suffix with same | inside
      · obtain ⟨rfl, rfl⟩ := List.cons.inj same
        exact Or.inl fun all => fails (all y (later.subset List.mem_cons_self))
      · exact Or.inr ⟨x, back, inside, y, back', later, fails⟩

/-- The runs of a name are apart exactly if nothing in it is emphasised. -/
theorem not_pairwise_namePieces {name : List Char}
    (alphabet : ∀ c ∈ name, isNameCharacter c = true) :
    ¬ (namePieces '*' [] name).Pairwise Apart ↔ Emphasised name := by
  rw [not_pairwise_iff_suffix]
  constructor
  · rintro ⟨x, back, suffix, y, back', later, together⟩
    obtain ⟨opener, closer, rfl, rfl⟩ : ∃ opener closer, x = .run opener ∧ y = .run closer := by
      unfold Apart at together
      push Not at together
      obtain ⟨opener, closer, first, second, _⟩ := together
      exact ⟨opener, closer, first, second⟩
    obtain ⟨left, between, opening, first, rfl, rfl⟩ := suffix_namePieces_iff.mp suffix
    obtain ⟨inner, right, closing, second, rfl, _⟩ := suffix_namePieces_iff.mp later
    exact ⟨left, between, inner, right, opening, closing,
      (not_apart_runs alphabet first second).mp together⟩
  · rintro ⟨left, between, inner, right, opening, closing, emphasis⟩
    exact ⟨_, _, suffix_namePieces_iff.mpr ⟨left, between, opening, emphasis.first, rfl, rfl⟩,
      _, _, suffix_namePieces_iff.mpr ⟨inner, right, closing, emphasis.second, rfl, rfl⟩,
      (not_apart_runs alphabet emphasis.first emphasis.second).mpr emphasis⟩

/-! ## Reading a name -/

/-- What a name is read as that stands between double stars: the text that its inline content begins
with, if it does. -/
def readName (name : List Char) : Option (List Char) :=
  Inline.argument? (.strong (settleAll (pairRuns [] (namePieces '*' [] name))))

theorem trim_name {name : List Char} (alphabet : ∀ c ∈ name, isNameCharacter c = true) :
    trim name = name :=
  trim_eq_self name
    (fun c first => isBlank_of_isNameCharacter (alphabet c (List.mem_of_head? first)))
    (fun c last => isBlank_of_isNameCharacter (alphabet c (List.mem_of_getLast? last)))

theorem length_trim_le (text : List Char) : (trim text).length ≤ text.length := by
  obtain ⟨before, after, parts, -, -⟩ := (trimmed_trim text).around
  have lengths := congrArg List.length parts
  simp only [List.length_append] at lengths
  omega

/-- Without emphasis all pieces of a name become its text again. -/
theorem readName_of_not_emphasised {name : List Char} (nonempty : name ≠ [])
    (alphabet : ∀ c ∈ name, isNameCharacter c = true) (whole : ¬ Emphasised name) :
    readName name = some name := by
  have apart : AllApart [] (namePieces '*' [] name) :=
    ⟨by simp, by simp, not_not.mp (mt (not_pairwise_namePieces alphabet).mp whole)⟩
  have spelled : ((namePieces '*' [] name).map Piece.tried).flatMap Piece.spelling = name := by
    have kept : ∀ p : Piece, p.tried.spelling = p.spelling := fun p => by cases p <;> rfl
    rw [List.flatMap_map, List.flatMap_congr fun p _ => kept p, spelling_namePieces]
    rfl
  have texts : ∀ p ∈ (namePieces '*' [] name).map Piece.tried, p.isText = true := by
    refine List.forall_mem_map.mpr fun p member => ?_
    rcases mem_namePieces member with ⟨cs, rfl⟩ | ⟨n, left, right, _, rfl⟩ <;> rfl
  have filled : (namePieces '*' [] name).map Piece.tried ≠ [] := by
    intro nothing
    rw [nothing] at spelled
    exact nonempty spelled.symm
  rw [readName, pairRuns_of_allApart [] _ apart, List.reverse_nil, List.nil_append,
    settleAll_text texts filled, spelled, Inline.argument?, trim_name alphabet]

/-- The marks of an emphasised stretch are missing from the text before it. -/
theorem readName_of_emphasised {name : List Char} (alphabet : ∀ c ∈ name, isNameCharacter c = true)
    (emphasised : Emphasised name) : readName name ≠ some name := by
  intro read
  have wrapped : (pairRuns [] (namePieces '*' [] name)).any Piece.isWrap = true := by
    by_contra plain
    have apart := allApart_of_pairRuns [] _ (by simp) (Bool.eq_false_iff.mpr plain)
    exact (not_pairwise_namePieces alphabet).mpr emphasised apart.within
  have unspent : ∀ r, .run r ∈ namePieces '*' [] name → 0 < r.remaining := by
    intro r member
    rcases mem_namePieces member with ⟨cs, text⟩ | ⟨n, left, right, unspent, run⟩
    · cases text
    · rw [Piece.run.inj run]
      exact unspent
  have width : widthOf (pairRuns [] (namePieces '*' [] name)) = name.length := by
    rw [width_pairRuns _ _ unspent, widthOf_text isText_namePieces, spelling_namePieces]
    exact Nat.zero_add _
  have spelled := length_spelling_le (pairRuns [] (namePieces '*' [] name))
  rw [wrapped, if_pos rfl, width] at spelled
  rw [readName] at read
  cases settled : settleAll (pairRuns [] (namePieces '*' [] name)) with
  | nil =>
    rw [settled] at read
    cases read
  | cons node more =>
    rw [settled] at read
    cases node with
    | text cs =>
      have begins := (prefix_of_settleAll settled).length_le
      have trimmed : (trim cs).length = name.length := congrArg List.length (Option.some.inj read)
      have shorter := length_trim_le cs
      omega
    | _ => cases read

theorem readName_eq_some_iff (name : RepositoryName) :
    readName name.text.toList = some name.text.toList ↔ ¬ Emphasised name.text.toList :=
  ⟨fun read emphasised => readName_of_emphasised name.alphabet emphasised read,
    readName_of_not_emphasised name.nonempty name.alphabet⟩

end BoardRules.Note
