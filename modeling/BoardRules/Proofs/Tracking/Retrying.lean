import BoardRules.Tracking.Retry
import Mathlib.Data.ENat.Lattice

/-!
# Retried reads

A read is any computation with a state, so its answers may depend on the attempts before. The
attempts that would be made without a limit are numbered, and `run_first_success` says which of them
a policy makes: those up to the first success, as far as the retries last. The answer is that of the
last one. The policy is also carried out by a loop that counts its retries in 32 bits; it comes to
the same end after the same number of attempts, and the count stays within the limit.
-/
namespace BoardRules

namespace RetryPolicy

variable {σ ε α : Type}

/-! ## Attempts -/

section Attempts

variable (read : StateM σ (Except ε α)) (s : σ)

/-- The state after so many attempts. -/
def stateAfter : Nat → σ
  | 0 => s
  | attempts + 1 => (read.run (stateAfter attempts)).2

/-- The answer to the attempt that follows so many others. -/
def answerAfter (attempts : Nat) : Except ε α := (read.run (stateAfter read s attempts)).1

/-- The number of the first attempt that succeeds, counted from one; infinite if none does. -/
noncomputable def firstSuccess : ℕ∞ :=
  ⨅ (failures : ℕ) (_ : (answerAfter read s failures).isOk = true), ((failures + 1 : ℕ) : ℕ∞)

/-- The attempts end after so many failures: with a success or because no retry is left. -/
@[mk_iff]
structure EndsAfter (retries failures : Nat) : Prop where
  failed : ∀ i < failures, (answerAfter read s i).isOk = false
  bound : failures ≤ retries
  spent : (answerAfter read s failures).isOk = false → failures = retries

end Attempts

variable {read : StateM σ (Except ε α)} {s : σ}

theorem stateAfter_succ (attempts : Nat) :
    stateAfter read s (attempts + 1) = stateAfter read (read.run s).2 attempts := by
  induction attempts with
  | zero => rfl
  | succ attempts ih =>
    rw [stateAfter, ih]
    rfl

theorem answerAfter_succ (attempts : Nat) :
    answerAfter read s (attempts + 1) = answerAfter read (read.run s).2 attempts := by
  rw [answerAfter, stateAfter_succ, answerAfter]

theorem endsAfter_succ_iff {retries failures : Nat} (failed : (read.run s).1.isOk = false) :
    EndsAfter read s (retries + 1) (failures + 1) ↔
      EndsAfter read (read.run s).2 retries failures := by
  simp only [endsAfter_iff, answerAfter_succ, Nat.succ_le_succ_iff, Nat.add_right_cancel_iff]
  refine and_congr_left fun _ => ⟨fun before i earlier => ?_, fun before i earlier => ?_⟩
  · rw [← answerAfter_succ]
    exact before (i + 1) (Nat.succ_lt_succ earlier)
  · cases i with
    | zero => exact failed
    | succ i =>
      rw [answerAfter_succ]
      exact before i (Nat.lt_of_succ_lt_succ earlier)

theorem attempt_run (read : StateM σ (Except ε α)) (retries : Nat) (s : σ) :
    ∃ failures, EndsAfter read s retries failures ∧ (attempt read retries).run s =
      (answerAfter read s failures, stateAfter read s (failures + 1)) := by
  induction retries generalizing s with
  | zero => exact ⟨0, ⟨nofun, Nat.le_refl 0, fun _ => rfl⟩, rfl⟩
  | succ retries ih =>
    have opened : (attempt read (retries + 1)).run s = (match (read.run s).1 with
        | .ok value => pure (.ok value)
        | .error _ => attempt read retries : StateM σ (Except ε α)).run (read.run s).2 := rfl
    cases answer : (read.run s).1 with
    | ok value =>
      refine ⟨0, ⟨nofun, Nat.zero_le _, ?_⟩, ?_⟩
      · intro failed
        rw [answerAfter, stateAfter, answer] at failed
        cases failed
      · rw [opened, answer, answerAfter, stateAfter, answer]
        rfl
    | error error =>
      obtain ⟨failures, ends, ran⟩ := ih (read.run s).2
      refine ⟨failures + 1, (endsAfter_succ_iff (by rw [answer]; rfl)).mpr ends, ?_⟩
      rw [opened, answer, answerAfter_succ, stateAfter_succ]
      exact ran

/-! ## The number of attempts -/

theorem firstSuccess_le {failures : Nat} (succeeds : (answerAfter read s failures).isOk = true) :
    firstSuccess read s ≤ (failures + 1 : ℕ) := iInf₂_le failures succeeds

theorem le_firstSuccess {failures : Nat}
    (failed : ∀ i < failures, (answerAfter read s i).isOk = false) :
    ((failures + 1 : ℕ) : ℕ∞) ≤ firstSuccess read s := by
  refine le_iInf₂ fun i succeeds => ?_
  have late : failures ≤ i := by
    by_contra early
    rw [failed i (Nat.lt_of_not_le early)] at succeeds
    cases succeeds
  exact Nat.cast_le.mpr (Nat.succ_le_succ late)

namespace EndsAfter

variable {retries failures : Nat} (ends : EndsAfter read s retries failures)

include ends

theorem isOk_iff : (answerAfter read s failures).isOk = true ↔
    firstSuccess read s ≤ (retries + 1 : ℕ) := by
  constructor
  · intro succeeds
    exact (firstSuccess_le succeeds).trans (Nat.cast_le.mpr (Nat.succ_le_succ ends.bound))
  · intro within
    by_contra failed
    rw [Bool.not_eq_true] at failed
    have all : ∀ i < retries + 1, (answerAfter read s i).isOk = false := by
      intro i earlier
      rcases Nat.lt_succ_iff_lt_or_eq.mp earlier with before | rfl
      · exact ends.failed i (ends.spent failed ▸ before)
      · exact ends.spent failed ▸ failed
    have beyond := (le_firstSuccess all).trans within
    exact absurd (Nat.cast_le.mp beyond) (Nat.not_succ_le_self _)

/-- As many attempts are made as it takes to succeed, but at most one more than there are retries. -/
theorem eq_min : ((failures + 1 : ℕ) : ℕ∞) = min (firstSuccess read s) (retries + 1 : ℕ) := by
  have least := le_firstSuccess ends.failed
  cases last : (answerAfter read s failures).isOk with
  | true => rw [min_eq_left (ends.isOk_iff.mp last), le_antisymm least (firstSuccess_le last)]
  | false =>
    rw [ends.spent last] at least ⊢
    rw [min_eq_right least]

theorem unique {others : Nat} (ends' : EndsAfter read s retries others) : others = failures :=
  Nat.succ.inj (ENat.natCast_inj.mp (ends'.eq_min.trans ends.eq_min.symm))

end EndsAfter

/-! ## The record of a run -/

/-- The same read, which also keeps a record of its answers. -/
def recorded (read : StateM σ (Except ε α)) : StateM (σ × List (Except ε α)) (Except ε α) :=
  fun (s, record) =>
    let (answer, s) := read.run s
    (answer, s, record ++ [answer])

theorem stateAfter_recorded (record : List (Except ε α)) (attempts : Nat) :
    stateAfter (recorded read) (s, record) attempts =
      (stateAfter read s attempts, record ++ (List.range attempts).map (answerAfter read s)) := by
  induction attempts with
  | zero => simp [stateAfter]
  | succ attempts ih =>
    rw [stateAfter, ih, List.range_succ, List.map_append, ← List.append_assoc]
    rfl

theorem answerAfter_recorded (record : List (Except ε α)) (attempts : Nat) :
    answerAfter (recorded read) (s, record) attempts = answerAfter read s attempts := by
  rw [answerAfter, stateAfter_recorded]
  rfl

/-- A run makes the attempts up to the last one, each once and in order. -/
theorem EndsAfter.run_recorded {retries failures : Nat} (ends : EndsAfter read s retries failures) :
    (attempt (recorded read) retries).run (s, []) = (answerAfter read s failures,
      stateAfter read s (failures + 1), (List.range (failures + 1)).map (answerAfter read s)) := by
  obtain ⟨others, ends', ran⟩ := attempt_run (recorded read) retries (s, [])
  have same : EndsAfter read s retries others := by
    simpa only [endsAfter_iff, answerAfter_recorded] using ends'
  obtain rfl := ends.unique same
  rw [ran, answerAfter_recorded, stateAfter_recorded, List.nil_append]

/-! ## The loop -/

/-- Where the loop stands before an attempt. The retries are counted in 32 bits. -/
structure Round (σ : Type) where
  retries : UInt32
  state : σ

/-- After a failure the retry is counted and another round follows, if any retry is left. All else
is an end. -/
def Round.next (maxRetries : UInt32) (read : StateM σ (Except ε α)) (round : Round σ) :
    Round σ ⊕ (Except ε α × σ) :=
  match read.run round.state with
  | (.ok value, s) => .inr (.ok value, s)
  | (.error error, s) =>
    if round.retries < maxRetries then .inl ⟨round.retries + 1, s⟩ else .inr (.error error, s)

/-- From the round on, the loop makes so many attempts and ends with the result. -/
inductive Loops (maxRetries : UInt32) (read : StateM σ (Except ε α)) :
    Round σ → Nat → Except ε α × σ → Prop where
  | last {round : Round σ} {result : Except ε α × σ} (ends : round.next maxRetries read = .inr result) :
      Loops maxRetries read round 1 result
  | again {round later : Round σ} {attempts : Nat} {result : Except ε α × σ}
      (next : round.next maxRetries read = .inl later)
      (rest : Loops maxRetries read later attempts result) :
      Loops maxRetries read round (attempts + 1) result

/-- The loop comes to the round after so many attempts. -/
inductive Reaches (maxRetries : UInt32) (read : StateM σ (Except ε α)) (start : Round σ) :
    Nat → Round σ → Prop where
  | start : Reaches maxRetries read start 0 start
  | again {attempts : Nat} {round later : Round σ}
      (earlier : Reaches maxRetries read start attempts round)
      (next : round.next maxRetries read = .inl later) :
      Reaches maxRetries read start (attempts + 1) later

variable {maxRetries : UInt32}

theorem Round.next_eq (round : Round σ) : round.next maxRetries read =
    if (read.run round.state).1.isOk = false ∧ round.retries < maxRetries then
      .inl ⟨round.retries + 1, (read.run round.state).2⟩
    else .inr (read.run round.state) := by
  unfold next
  rcases read.run round.state with ⟨error | value, s⟩
  · simp [Except.isOk, Except.toBool]
  · simp [Except.isOk, Except.toBool]

/-- While a retry is left, one more can be counted. -/
theorem toNat_succ_of_lt {retries : UInt32} (left : retries < maxRetries) :
    (retries + 1).toNat = retries.toNat + 1 := by
  have small := UInt32.lt_iff_toNat_lt.mp left
  have word := maxRetries.toNat_lt
  rw [UInt32.toNat_add, UInt32.toNat_one, Nat.mod_eq_of_lt (by omega)]

theorem Reaches.counted {attempts : Nat} {round : Round σ}
    (reaches : Reaches maxRetries read ⟨0, s⟩ attempts round) :
    round.retries.toNat = attempts ∧ round.retries ≤ maxRetries := by
  induction reaches with
  | start => exact ⟨rfl, UInt32.le_iff_toNat_le.mpr (Nat.zero_le _)⟩
  | again earlier next ih =>
    rw [Round.next_eq] at next
    split at next
    · next retry =>
      obtain rfl := Sum.inl.inj next
      have counted := toNat_succ_of_lt retry.2
      refine ⟨counted.trans (congrArg (· + 1) ih.1), UInt32.le_iff_toNat_le.mpr ?_⟩
      rw [counted]
      exact UInt32.lt_iff_toNat_lt.mp retry.2
    · cases next

theorem Loops.unique {round : Round σ} {attempts others : Nat} {result result' : Except ε α × σ}
    (loops : Loops maxRetries read round attempts result)
    (loops' : Loops maxRetries read round others result') : attempts = others ∧ result = result' := by
  induction loops generalizing others with
  | last ends =>
    cases loops' with
    | last ends' => exact ⟨rfl, Sum.inr.inj (ends.symm.trans ends')⟩
    | again next' => cases ends.symm.trans next'
  | again next rest ih =>
    cases loops' with
    | last ends' => cases next.symm.trans ends'
    | again next' rest' =>
      obtain rfl := Sum.inl.inj (next.symm.trans next')
      obtain ⟨same, ended⟩ := ih rest'
      exact ⟨congrArg (· + 1) same, ended⟩

/-- From any round on, the loop makes the attempts for which retries are left. -/
theorem EndsAfter.loops {failures : Nat} {round : Round σ}
    (ends : EndsAfter read round.state (maxRetries.toNat - round.retries.toNat) failures) :
    Loops maxRetries read round (failures + 1)
      (answerAfter read round.state failures, stateAfter read round.state (failures + 1)) := by
  induction failures generalizing round with
  | zero =>
    refine .last ?_
    rw [Round.next_eq, if_neg]
    · rfl
    · rintro ⟨failed, left⟩
      have spent := ends.spent failed
      have small := UInt32.lt_iff_toNat_lt.mp left
      omega
  | succ failures ih =>
    have failed : (read.run round.state).1.isOk = false := ends.failed 0 (Nat.succ_pos failures)
    have bound := ends.bound
    have left : round.retries < maxRetries := UInt32.lt_iff_toNat_lt.mpr (by omega)
    rw [answerAfter_succ, stateAfter_succ]
    refine .again ((Round.next_eq round).trans (if_pos ⟨failed, left⟩)) (ih ?_)
    have fewer : maxRetries.toNat - round.retries.toNat =
        maxRetries.toNat - (round.retries + 1).toNat + 1 := by
      rw [toNat_succ_of_lt left]
      omega
    exact (endsAfter_succ_iff failed).mp (fewer ▸ ends)

/-! ## Runs -/

/-- A run ends with the first success if that is among the attempts for which retries are left, and
with the answer to the last one of these otherwise. It makes these attempts and no others. The loop
does the same, and its count of retries never passes the limit. -/
theorem run_first_success (read : StateM σ (Except ε α)) (s : σ) (delay : Nat)
    (maxRetries : UInt32) :
    ∃ failures : Nat,
      ((failures + 1 : ℕ) : ℕ∞) = min (firstSuccess read s) (maxRetries.toNat + 1 : ℕ) ∧
      (run ⟨delay, maxRetries.toNat⟩ read).run s =
        (answerAfter read s failures, stateAfter read s (failures + 1)) ∧
      (run ⟨delay, maxRetries.toNat⟩ (recorded read)).run (s, []) =
        (answerAfter read s failures, stateAfter read s (failures + 1),
          (List.range (failures + 1)).map (answerAfter read s)) ∧
      ((answerAfter read s failures).isOk = true ↔
        firstSuccess read s ≤ (maxRetries.toNat + 1 : ℕ)) ∧
      ((answerAfter read s failures).isOk = false → failures = maxRetries.toNat) ∧
      (∀ attempts result, Loops maxRetries read ⟨0, s⟩ attempts result ↔
        attempts = failures + 1 ∧ result = (run ⟨delay, maxRetries.toNat⟩ read).run s) ∧
      ∀ attempts round, Reaches maxRetries read ⟨0, s⟩ attempts round →
        round.retries.toNat = attempts ∧ round.retries ≤ maxRetries := by
  obtain ⟨failures, ends, ran⟩ := attempt_run read maxRetries.toNat s
  have loops : Loops maxRetries read ⟨0, s⟩ (failures + 1)
      (answerAfter read s failures, stateAfter read s (failures + 1)) := EndsAfter.loops ends
  refine ⟨failures, ends.eq_min, ran, ends.run_recorded, ends.isOk_iff, ends.spent, ?_,
    fun _ _ => Reaches.counted⟩
  intro attempts result
  constructor
  · intro other
    obtain ⟨same, ended⟩ := other.unique loops
    exact ⟨same, ended.trans ran.symm⟩
  · rintro ⟨rfl, rfl⟩
    exact (show (run ⟨delay, maxRetries.toNat⟩ read).run s = _ from ran) ▸ loops

end RetryPolicy

/-! ## Reads through a service -/

/-- A call whose answers depend on the state of the service. -/
def Service.read {σ : Type} (service : Service σ) (call : Call) :
    StateM σ (Except TrackingError call.Answer) := service call

/-- A dialogue that reads runs its policy on the answers of the service. -/
theorem Dialogue.run_read {σ : Type} (service : Service σ) (policy : RetryPolicy) (call : Call)
    (s : σ) : (Dialogue.read policy call).run service s =
      (policy.run (service.read call)).run s := by
  unfold Dialogue.read RetryPolicy.run
  induction policy.maxRetries generalizing s with
  | zero => rfl
  | succ retries ih =>
    unfold RetryPolicy.attempt
    rw [Dialogue.run_bind, StateT.run_bind]
    have once : (Dialogue.call call).run service s = (service.read call).run s := rfl
    rw [once]
    cases (service.read call).run s with
    | mk answer s' =>
      cases answer with
      | ok value => rfl
      | error error => exact ih s'

end BoardRules
