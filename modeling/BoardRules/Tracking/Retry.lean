import BoardRules.Tracking.Dialogue

/-!
# Repeated reads

The service may not know yet what it has just reported, so a read that fails is tried again, a
limited number of times. Changes are never repeated.
-/
namespace BoardRules

structure RetryPolicy where
  /-- The pause between two attempts, in milliseconds. -/
  delay : Nat
  maxRetries : Nat
  deriving DecidableEq, Repr

namespace RetryPolicy

/-- Retries once, after a second. -/
def default : RetryPolicy := ⟨1000, 1⟩

/-- Retries once, after the given pause. -/
def ofDelay (delay : Nat) : RetryPolicy := ⟨delay, 1⟩

/-- Makes an attempt and, as long as attempts fail, up to `retries` more. The last one counts. -/
def attempt [Monad m] (read : m (Except ε α)) : (retries : Nat) → m (Except ε α)
  | 0 => read
  | retries + 1 => do
    match ← read with
    | .ok value => return .ok value
    | .error _ => attempt read retries

def run [Monad m] (policy : RetryPolicy) (read : m (Except ε α)) : m (Except ε α) :=
  attempt read policy.maxRetries

end RetryPolicy

/-- Makes a call that reads. -/
def Dialogue.read (policy : RetryPolicy) (call : Call) : Dialogue call.Result :=
  policy.run (Dialogue.call call)

end BoardRules
