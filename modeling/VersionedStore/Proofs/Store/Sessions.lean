/-
  VersionedStore.Proofs.Store.Sessions

  A store that is called again and again, from empty, and the log of what it was
  asked and what it answered.  Each call is one step here; what happens to
  creations that others interrupt is the matter of `Traffic`.
-/
import Mathlib.Data.List.Induction
import VersionedStore.Proofs.Store.Calls

namespace VersionedStore.Store

/-- A call of a store. -/
inductive Call where
  | create (now : Instant) (fields : Fields)
  | mutate (m : Mutation)
  | read (id : RecordId)
  | list
deriving DecidableEq

/-- What a store answers. -/
inductive Answer where
  | created (answer : Except StoreError Record)
  | mutated (answer : Except StoreError WriteOutcome)
  | found (answer : Except StoreError (Option Record))
  | listed (answer : Except StoreError (List Record))

/-- Carry a call out. -/
def Call.perform : Call → StateM Store Answer
  | .create now fields => .created <$> Store.create now fields
  | .mutate m => .mutated <$> m.perform
  | .read id => .found <$> Store.read id
  | .list => .listed <$> Store.list

/-- A call and the answer to it. -/
structure Exchange where
  call : Call
  answer : Answer

/-- A store, and all that it was asked and has answered. -/
structure Session where
  store : Store
  log : List Exchange

namespace Session

/-- An empty store that was asked nothing. -/
def start : Session := ⟨∅, []⟩

/-- The answer to a call. -/
def answer (t : Session) (c : Call) : Answer :=
  (c.perform t.store).1

/-- One more call. -/
def say (t : Session) (c : Call) : Session :=
  ⟨(c.perform t.store).2, t.log ++ [⟨c, t.answer c⟩]⟩

/-- The calls of a list, one after the other, on an empty store. -/
def run (calls : List Call) : Session :=
  calls.foldl say start

theorem run_concat (calls : List Call) (c : Call) : run (calls ++ [c]) = (run calls).say c := by
  rw [run, List.foldl_append]
  rfl

/-- What holds of an empty store and is kept by every call holds after every run. -/
theorem run_invariant {P : Session → Prop} (hstart : P start) (hsay : ∀ t c, P t → P (t.say c))
    (calls : List Call) : P (run calls) := by
  induction calls using List.reverseRecOn with
  | nil => exact hstart
  | append_singleton calls c ih =>
    rw [run_concat]
    exact hsay _ c ih

end Session

end VersionedStore.Store
