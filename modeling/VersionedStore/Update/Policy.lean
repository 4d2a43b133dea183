/-
  VersionedStore.Update.Policy

  How often, and how soon, an update is tried again after it lost a race.
-/
import VersionedStore.Duration

namespace VersionedStore.Update

/-- The bound on attempts and the wait between them. -/
structure RetryPolicy where
  /-- The most writes that one request may issue, the first one included. -/
  maxAttempts : UInt32
  /-- The wait after a lost race. -/
  backoff : Duration
deriving DecidableEq, Repr

namespace RetryPolicy

/-- The bound if none is set. -/
def defaultMaxAttempts : UInt32 := 3

/-- Three attempts without a wait. -/
def default : RetryPolicy := ⟨defaultMaxAttempts, .zero⟩

instance : Inhabited RetryPolicy := ⟨default⟩

/-- The bound in force: the first attempt is always allowed. -/
def bound (p : RetryPolicy) : Nat :=
  max 1 p.maxAttempts.toNat

/-- The policy with the names of its parts. -/
def text (p : RetryPolicy) : String :=
  "RetryPolicy \x7b max_attempts: " ++ toString p.maxAttempts ++ ", backoff: " ++ p.backoff.text
    ++ " \x7d"

end RetryPolicy

end VersionedStore.Update
