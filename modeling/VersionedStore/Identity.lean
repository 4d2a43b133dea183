/-
  VersionedStore.Identity

  The two names that a store hands out: a record id, which stays with a record
  for life, and a version token, which names one committed state of it.  Tokens
  are compared for equality only; ids are ordered by their number.
-/
import Std.Data.ExtTreeMap

namespace VersionedStore

/-- The id of a record. -/
structure RecordId where
  raw : UInt64
deriving DecidableEq, Repr, Inhabited

/-- A token that names one committed state of a record. -/
structure Version where
  raw : UInt64
deriving DecidableEq, Repr, Inhabited

namespace RecordId

instance : Ord RecordId := ⟨fun a b => compare a.raw b.raw⟩

instance : LT RecordId := ⟨fun a b => a.raw < b.raw⟩

instance (a b : RecordId) : Decidable (a < b) := inferInstanceAs (Decidable (a.raw < b.raw))

theorem compare_eq_lt {a b : RecordId} : compare a b = .lt ↔ a < b := by
  change compareOfLessAndEq a.raw b.raw = .lt ↔ a.raw < b.raw
  exact compareOfLessAndEq_eq_lt

instance : Std.TransOrd RecordId where
  eq_swap {a b} := @Std.OrientedCmp.eq_swap UInt64 compare _ a.raw b.raw
  isLE_trans {a b c} := @Std.TransCmp.isLE_trans UInt64 compare _ a.raw b.raw c.raw

instance : Std.LawfulEqOrd RecordId where
  eq_of_compare {a b} h := by
    cases a; cases b
    exact congrArg _ (@Std.LawfulEqCmp.eq_of_compare UInt64 compare _ _ _ h)

/-- The number of the id. -/
def text (id : RecordId) : String :=
  toString id.raw

/-- The id with the name of its type. -/
def typedText (id : RecordId) : String :=
  "RecordId(" ++ id.text ++ ")"

end RecordId

namespace Version

/-- The number of the token. -/
def text (v : Version) : String :=
  toString v.raw

/-- The token with the name of its type. -/
def typedText (v : Version) : String :=
  "Version(" ++ v.text ++ ")"

end Version

end VersionedStore
