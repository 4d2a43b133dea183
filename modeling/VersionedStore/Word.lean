/-
  VersionedStore.Word

  Integers that fit into a machine word.  Each function gives the word of a
  value if there is one, and nothing if the value is out of range.
-/

namespace VersionedStore

/-- The signed word of 64 bits with this value. -/
def int64? (n : Int) : Option Int64 :=
  if Int64.minValue.toInt ≤ n ∧ n ≤ Int64.maxValue.toInt then some (Int64.ofInt n) else none

/-- The unsigned word of 32 bits with this value. -/
def uint32? (n : Int) : Option UInt32 :=
  if 0 ≤ n ∧ n.toNat < UInt32.size then some (UInt32.ofNat n.toNat) else none

/-- The unsigned word of 64 bits with this value. -/
def uint64? (n : Int) : Option UInt64 :=
  if 0 ≤ n ∧ n.toNat < UInt64.size then some (UInt64.ofNat n.toNat) else none

-- ============================================================================
-- Laws
-- ============================================================================

theorem int64?_eq_some_iff {n : Int} {w : Int64} : int64? n = some w ↔ w.toInt = n := by
  have hmin : Int64.minValue.toInt = -9223372036854775808 := rfl
  have hmax : Int64.maxValue.toInt = 9223372036854775807 := rfl
  have hle := Int64.minValue_le_toInt w
  have hlt := Int64.toInt_le w
  rw [int64?]
  constructor
  · intro h
    split at h
    next hrange =>
      rw [Option.some.injEq] at h
      rw [← h, Int64.toInt_ofInt_of_le (by omega) (by omega)]
    next => contradiction
  · intro h
    rw [if_pos (by omega), ← h, Int64.ofInt_toInt]

/-- Nothing is given exactly if the value is out of range. -/
theorem int64?_eq_none_iff {n : Int} :
    int64? n = none ↔ n < Int64.minValue.toInt ∨ Int64.maxValue.toInt < n := by
  rw [int64?]
  split
  next h => simp only [reduceCtorEq, false_iff]; omega
  next h => simp only [true_iff]; omega

theorem uint32?_eq_some_iff {n : Int} {w : UInt32} :
    uint32? n = some w ↔ (w.toNat : Int) = n := by
  have hlt := w.toNat_lt_size
  rw [uint32?]
  constructor
  · intro h
    split at h
    next hrange =>
      rw [Option.some.injEq] at h
      rw [← h, UInt32.toNat_ofNat_of_lt' hrange.2]
      omega
    next => contradiction
  · intro h
    rw [if_pos (by omega), ← h, Int.toNat_natCast, UInt32.ofNat_toNat]

theorem uint64?_eq_some_iff {n : Int} {w : UInt64} :
    uint64? n = some w ↔ (w.toNat : Int) = n := by
  have hlt := w.toNat_lt_size
  rw [uint64?]
  constructor
  · intro h
    split at h
    next hrange =>
      rw [Option.some.injEq] at h
      rw [← h, UInt64.toNat_ofNat_of_lt' hrange.2]
      omega
    next => contradiction
  · intro h
    rw [if_pos (by omega), ← h, Int.toNat_natCast, UInt64.ofNat_toNat]

end VersionedStore
