/-
  VersionedStore.Power

  Powers of natural numbers, for the bases two and ten that binary and decimal
  numerals are made of.
-/

namespace VersionedStore

/-- The product of `n` factors `b`. -/
def power (b n : Nat) : Nat :=
  Nat.pow b n

@[simp]
theorem power_zero (b : Nat) : power b 0 = 1 := rfl

theorem power_succ (b n : Nat) : power b (n + 1) = power b n * b := rfl

theorem power_add (b m n : Nat) : power b (m + n) = power b m * power b n :=
  Nat.pow_add b m n

theorem power_pos {b : Nat} (h : 0 < b) (n : Nat) : 0 < power b n :=
  Nat.pow_pos h

end VersionedStore
