/-
  VersionedStore.Proofs.Double.Rounding

  Rounding gives a finite double back from every ratio near it.

  A double stands for the reals between the middles of the way to its two
  neighbours (`Decimal.Interval.Mem`), with the ends if its significand is even.  A ratio
  in there has the exponent of the double, so that its quotient by the unit is
  within one half of the significand.  The one exception lies just below a power of
  two, where the ratio belongs to the binade below and its significand is rounded
  up into the next one.
-/
import Mathlib.Algebra.Order.Field.Power
import Mathlib.Data.Rat.Cast.Order
import Mathlib.Tactic.FieldSimp
import Mathlib.Tactic.Linarith
import Mathlib.Tactic.NormNum
import Mathlib.Tactic.Ring
import VersionedStore.Decimal.Shortest
import VersionedStore.Double.Round

namespace VersionedStore

-- ============================================================================
-- Powers with an exponent of either sign
-- ============================================================================

theorem cast_power_pos {b : Nat} (h : 0 < b) (n : Nat) : (0 : ℚ) < power b n :=
  Nat.cast_pos.2 (power_pos h n)

/-- A power on either side of a fraction is a power of the exponent's sign. -/
theorem power_toNat_div {b : Nat} (h : 0 < b) (k : Int) :
    (power b k.toNat : ℚ) / power b (-k).toNat = (b : ℚ) ^ k := by
  have hb : (b : ℚ) ≠ 0 := Nat.cast_ne_zero.2 (by omega)
  have hcast : ∀ n, (power b n : ℚ) = (b : ℚ) ^ n := fun n => Nat.cast_pow b n
  rw [hcast, hcast, ← zpow_natCast, ← zpow_natCast, ← zpow_sub₀ hb]
  congr 1
  omega

/-- A ratio that is scaled by a power above or below is the scaled ratio. -/
theorem ratio_scaled {b : Nat} (h : 0 < b) (n d : Nat) (k : Int) :
    ((n * power b (-k).toNat : Nat) : ℚ) / (d * power b k.toNat : Nat) = n / d / (b : ℚ) ^ k := by
  have hpos := cast_power_pos h k.toNat
  have hneg := cast_power_pos h (-k).toNat
  rw [← power_toNat_div h k, Nat.cast_mul, Nat.cast_mul]
  rcases Nat.eq_zero_or_pos d with rfl | hd
  · simp
  · have hd' : (0 : ℚ) < d := Nat.cast_pos.2 hd
    field_simp

-- ============================================================================
-- The nearest integer and the exponent of a ratio
-- ============================================================================

/-- An integer within one half of a quotient is the nearest one, if it is even or strictly
    within. -/
theorem roundHalfEven_eq {n d m : Nat} (hd : 0 < d) (hlow : (m : ℚ) - 1 / 2 ≤ n / d)
    (hhigh : (n : ℚ) / d ≤ m + 1 / 2)
    (htie : m % 2 = 0 ∨ (m : ℚ) - 1 / 2 < n / d ∧ (n : ℚ) / d < m + 1 / 2) :
    roundHalfEven n d = m := by
  have hd' : (0 : ℚ) < d := Nat.cast_pos.2 hd
  have hlow' : 2 * (m * d) ≤ 2 * n + d := by
    have h := (le_div_iff₀ hd').1 hlow
    have h' : (2 * (m * d) : ℚ) ≤ 2 * n + d := by linarith
    exact_mod_cast h'
  have hhigh' : 2 * n ≤ 2 * (m * d) + d := by
    have h := (div_le_iff₀ hd').1 hhigh
    have h' : (2 * n : ℚ) ≤ 2 * (m * d) + d := by linarith
    exact_mod_cast h'
  have htie' : m % 2 = 0 ∨ 2 * (m * d) < 2 * n + d ∧ 2 * n < 2 * (m * d) + d := by
    refine htie.imp_right fun ⟨hl, hh⟩ => ⟨?_, ?_⟩
    · have h := (lt_div_iff₀ hd').1 hl
      have h' : (2 * (m * d) : ℚ) < 2 * n + d := by linarith
      exact_mod_cast h'
    · have h := (div_lt_iff₀ hd').1 hh
      have h' : (2 * n : ℚ) < 2 * (m * d) + d := by linarith
      exact_mod_cast h'
  have hdiv := Nat.div_add_mod n d
  have hmod := Nat.mod_lt n hd
  rw [Nat.mul_comm] at hdiv
  -- The integer is the quotient rounded down or the one after it.
  have hmost : m ≤ n / d + 1 := by
    by_contra hc
    have h := Nat.mul_le_mul_right d (show n / d + 2 ≤ m by omega)
    rw [Nat.add_mul] at h
    omega
  have hleast : n / d ≤ m := by
    by_contra hc
    have h := Nat.mul_le_mul_right d (show m + 1 ≤ n / d by omega)
    rw [Nat.add_mul] at h
    omega
  simp only [roundHalfEven]
  rcases (show m = n / d ∨ m = n / d + 1 by omega) with hm | hm
  · rw [hm] at hlow' hhigh' htie'
    rw [hm]
    split
    · rfl
    · split <;> omega
  · rw [hm, Nat.add_mul] at hlow' hhigh' htie'
    rw [hm]
    split
    · omega
    · split <;> omega

/-- The nearest multiple of a power of two is found in units of the power. -/
theorem roundHalfEven_scaled {n d m : Nat} (hd : 0 < d) (q : Int)
    (hlow : (m : ℚ) - 1 / 2 ≤ n / d / 2 ^ q) (hhigh : (n : ℚ) / d / 2 ^ q ≤ m + 1 / 2)
    (htie : m % 2 = 0 ∨ (m : ℚ) - 1 / 2 < n / d / 2 ^ q ∧ (n : ℚ) / d / 2 ^ q < m + 1 / 2) :
    roundHalfEven (n * power 2 (-q).toNat) (d * power 2 q.toNat) = m := by
  have hscaled := ratio_scaled (show 0 < 2 by decide) n d q
  rw [Nat.cast_ofNat] at hscaled
  rw [← hscaled] at hlow hhigh htie
  exact roundHalfEven_eq (Nat.mul_pos hd (power_pos (by decide) _)) hlow hhigh htie

namespace Double

/-- The exponent of a ratio says between which powers of two it lies. -/
theorem binaryExponent_spec {n d : Nat} (hn : 0 < n) (hd : 0 < d) :
    (2 : ℚ) ^ binaryExponent n d ≤ n / d ∧ (n : ℚ) / d < 2 ^ (binaryExponent n d + 1) := by
  have hd' : (0 : ℚ) < d := Nat.cast_pos.2 hd
  have htwo : (2 : ℚ) ≠ 0 := by norm_num
  have hnlow : (2 : ℚ) ^ (Nat.log2 n : Int) ≤ n := by
    exact_mod_cast Nat.log2_self_le (by omega)
  have hnhigh : (n : ℚ) < 2 ^ (Nat.log2 n + 1 : Int) := by
    exact_mod_cast Nat.lt_log2_self
  have hdlow : (2 : ℚ) ^ (Nat.log2 d : Int) ≤ d := by
    exact_mod_cast Nat.log2_self_le (by omega)
  have hdhigh : (d : ℚ) < 2 ^ (Nat.log2 d + 1 : Int) := by
    exact_mod_cast Nat.lt_log2_self
  set k : Int := (Nat.log2 n : Int) - Nat.log2 d with hk
  -- The lengths of the two numbers leave two exponents to choose from.
  have hlow : (2 : ℚ) ^ (k - 1) ≤ n / d := by
    rw [le_div_iff₀ hd']
    calc (2 : ℚ) ^ (k - 1) * d ≤ 2 ^ (k - 1) * 2 ^ (Nat.log2 d + 1 : Int) :=
          mul_le_mul_of_nonneg_left hdhigh.le (by positivity)
      _ = 2 ^ (Nat.log2 n : Int) := by rw [← zpow_add₀ htwo]; congr 1; omega
      _ ≤ n := hnlow
  have hhigh : (n : ℚ) / d < 2 ^ (k + 1) := by
    rw [div_lt_iff₀ hd']
    calc (n : ℚ) < 2 ^ (Nat.log2 n + 1 : Int) := hnhigh
      _ = 2 ^ (k + 1) * 2 ^ (Nat.log2 d : Int) := by rw [← zpow_add₀ htwo]; congr 1; omega
      _ ≤ 2 ^ (k + 1) * d := mul_le_mul_of_nonneg_left hdlow (by positivity)
  have htest : d * power 2 k.toNat ≤ n * power 2 (-k).toNat ↔ (2 : ℚ) ^ k ≤ n / d := by
    have h := power_toNat_div (show 0 < 2 by decide) k
    rw [Nat.cast_ofNat] at h
    rw [← h, div_le_div_iff₀ (cast_power_pos (by decide) _) hd', mul_comm d]
    norm_cast
  rw [binaryExponent]
  simp only [← hk]
  split
  next h => exact ⟨htest.1 h, hhigh⟩
  next h =>
    rw [htest, not_le] at h
    rw [sub_add_cancel]
    exact ⟨hlow, h⟩

-- ============================================================================
-- The parts of a double
-- ============================================================================

theorem significand_lt (x : Double) : x.significand < 2 * fractionCount := by
  have h : x.fraction < fractionCount := Nat.mod_lt _ (by decide)
  rw [significand]
  split <;> omega

theorem exponentField_lt {x : Double} (h : x.isFinite = true) : x.exponentField < 2047 := by
  have hlt : x.exponentField < 2048 := Nat.mod_lt _ (by decide)
  have hne : x.exponentField ≠ 2047 := by simpa [isFinite] using h
  omega

theorem fractionCount_le_significand {x : Double} (h : -1074 < x.scale) :
    fractionCount ≤ x.significand := by
  have hne : x.exponentField ≠ 0 := by
    intro hzero
    rw [scale, hzero] at h
    omega
  rw [significand, if_neg hne]
  omega

/-- The bits below the sign are the scale and the significand. -/
theorem magnitude_eq (x : Double) :
    (x.scale + 1074).toNat * fractionCount + x.significand = x.bits.toNat % signWeight := by
  have hparts : x.bits.toNat % signWeight = x.exponentField * fractionCount + x.fraction := by
    simp only [exponentField, fraction, fractionCount, signWeight]
    omega
  rw [hparts, scale, significand]
  split
  next hzero => simp [hzero]
  next hne =>
    obtain ⟨e, he⟩ := Nat.exists_eq_succ_of_ne_zero hne
    have hscale : ((max x.exponentField 1 : Nat) - 1075 + 1074 : Int).toNat = e := by omega
    rw [hscale, he, Nat.succ_mul]
    omega

/-- A double is put together from its sign, its scale and its significand. -/
theorem ofMagnitude_parts (x : Double) :
    ofMagnitude x.isNegative ((x.scale + 1074).toNat * fractionCount + x.significand) = x := by
  have hbits := x.bits.toNat_lt_size
  have hsign : x.bits.toNat / signWeight < 2 := by
    rw [Nat.div_lt_iff_lt_mul (by decide)]
    exact hbits
  have hcond : cond x.isNegative signWeight 0 = signWeight * (x.bits.toNat / signWeight) := by
    rcases Nat.le_one_iff_eq_zero_or_eq_one.1 (Nat.le_of_lt_succ hsign) with h | h <;>
      simp [isNegative, h]
  rw [ofMagnitude, magnitude_eq, hcond, Nat.div_add_mod, UInt64.ofNat_toNat]

/-- What lies below the infinities. -/
theorem magnitude_lt {x : Double} (h : x.isFinite = true) :
    (x.scale + 1074).toNat * fractionCount + x.significand < infinityMagnitude := by
  have hexponent := exponentField_lt h
  have hfraction : x.fraction < fractionCount := Nat.mod_lt _ (by decide)
  simp only [scale, significand, infinityMagnitude, fractionCount] at *
  split <;> omega

end Double

-- ============================================================================
-- What rounds to a double
-- ============================================================================

namespace Decimal

/-- Whether a number lies in an interval. -/
def Interval.Mem (i : Interval) (r : ℚ) : Prop :=
  (i.low * 2 ^ i.scale < r ∨ i.closed = true ∧ i.low * 2 ^ i.scale = r) ∧
  (r < i.high * 2 ^ i.scale ∨ i.closed = true ∧ r = i.high * 2 ^ i.scale)

end Decimal

namespace Double

open Decimal (Interval)

/-- How far below the significand, in units of a double, a number may lie that rounds to it. -/
def reach (x : Double) : ℚ :=
  if x.significand = fractionCount ∧ 1 < x.exponentField then 1 / 4 else 1 / 2

theorem reach_le (x : Double) : x.reach ≤ 1 / 2 := by
  rw [reach]
  split <;> norm_num

theorem near_of_mem {x : Double} (hpos : 0 < x.significand) {r : ℚ}
    (h : (Interval.ofDouble x).Mem r) :
    x.significand - x.reach ≤ r / 2 ^ x.scale ∧ r / 2 ^ x.scale ≤ x.significand + 1 / 2 ∧
      (x.significand % 2 = 0 ∨ x.significand - x.reach < r / 2 ^ x.scale ∧
        r / 2 ^ x.scale < x.significand + 1 / 2) := by
  have hunit : (0 : ℚ) < 2 ^ x.scale := by positivity
  have hscale : (2 : ℚ) ^ (x.scale - 2) = 2 ^ x.scale / 4 := by
    rw [zpow_sub₀ (by norm_num)]
    norm_num
  have hlow : ((Interval.ofDouble x).low : ℚ) * 2 ^ (Interval.ofDouble x).scale =
      (x.significand - x.reach) * 2 ^ x.scale := by
    simp only [Interval.ofDouble, hscale, reach]
    split
    · rw [Nat.cast_sub (by omega)]
      push_cast
      ring
    · rw [Nat.cast_sub (by omega)]
      push_cast
      ring
  have hhigh : ((Interval.ofDouble x).high : ℚ) * 2 ^ (Interval.ofDouble x).scale =
      (x.significand + 1 / 2) * 2 ^ x.scale := by
    simp only [Interval.ofDouble, hscale]
    push_cast
    ring
  have hclosed : (Interval.ofDouble x).closed = true ↔ x.significand % 2 = 0 := by
    simp [Interval.ofDouble]
  rw [Interval.Mem, hlow, hhigh, hclosed, ← lt_div_iff₀ hunit, ← div_lt_iff₀ hunit,
    ← div_eq_iff hunit.ne', ← eq_div_iff hunit.ne'] at h
  obtain ⟨hleft, hright⟩ := h
  refine ⟨?_, ?_, ?_⟩
  · exact hleft.elim le_of_lt fun h => h.2.le
  · exact hright.elim le_of_lt fun h => h.2.le
  · rcases hleft with hleft | hleft
    · exact hright.symm.imp And.left fun hright => ⟨hleft, hright⟩
    · exact .inl hleft.1

theorem lt_binaryExponent {n d : Nat} (hn : 0 < n) (hd : 0 < d) {k : Int}
    (h : (2 : ℚ) ^ k ≤ n / d) : k ≤ binaryExponent n d := by
  have hlt := h.trans_lt (binaryExponent_spec hn hd).2
  rw [zpow_lt_zpow_iff_right₀ (by norm_num)] at hlt
  omega

theorem binaryExponent_lt {n d : Nat} (hn : 0 < n) (hd : 0 < d) {k : Int}
    (h : (n : ℚ) / d < 2 ^ k) : binaryExponent n d < k := by
  have hlt := (binaryExponent_spec hn hd).1.trans_lt h
  rwa [zpow_lt_zpow_iff_right₀ (by norm_num)] at hlt

/-- The unit that a ratio is rounded to: that of the double, or just below a power of two the
    one below. -/
theorem unit_of_near {x : Double} {n d : Nat} (hn : 0 < n) (hd : 0 < d)
    (hlow : x.significand - x.reach ≤ (n : ℚ) / d / 2 ^ x.scale)
    (hhigh : (n : ℚ) / d / 2 ^ x.scale ≤ x.significand + 1 / 2) :
    max (binaryExponent n d - 52) (-1074) = x.scale ∨
      max (binaryExponent n d - 52) (-1074) = x.scale - 1 ∧ -1074 < x.scale ∧
        x.significand = fractionCount ∧ (n : ℚ) / d / 2 ^ x.scale < x.significand := by
  have hunit : (0 : ℚ) < 2 ^ x.scale := by positivity
  have hpow : ∀ k : Nat, (2 : ℚ) ^ (x.scale + k) = (2 : ℚ) ^ k * 2 ^ x.scale := by
    intro k
    rw [zpow_add₀ (by norm_num), mul_comm, zpow_natCast]
  have hreach := x.reach_le
  have hleast : -1074 ≤ x.scale := by
    rw [scale]
    omega
  have htop : binaryExponent n d < x.scale + (53 : Nat) := by
    refine binaryExponent_lt hn hd ?_
    have hsig : (x.significand : ℚ) + 1 ≤ 2 ^ 53 := by exact_mod_cast x.significand_lt
    rw [hpow, ← div_lt_iff₀ hunit]
    linarith
  by_cases hscale : x.scale = -1074
  · left
    omega
  have hnormal : (2 : ℚ) ^ 52 ≤ x.significand := by
    exact_mod_cast fractionCount_le_significand (show -1074 < x.scale by omega)
  by_cases hbinade : (2 : ℚ) ^ 52 ≤ n / d / 2 ^ x.scale
  · left
    have hle : x.scale + (52 : Nat) ≤ binaryExponent n d := by
      refine lt_binaryExponent hn hd ?_
      rwa [hpow, ← le_div_iff₀ hunit]
    omega
  · rw [not_le] at hbinade
    have hsig : x.significand = fractionCount := by
      have hlt : (x.significand : ℚ) < 2 ^ 52 + 1 := by linarith
      have hlt' : x.significand < fractionCount + 1 := by exact_mod_cast hlt
      have hge : fractionCount ≤ x.significand := by exact_mod_cast hnormal
      omega
    have hle : x.scale + (51 : Nat) ≤ binaryExponent n d := by
      refine lt_binaryExponent hn hd ?_
      rw [hpow, ← le_div_iff₀ hunit]
      linarith
    have hlt : binaryExponent n d < x.scale + (52 : Nat) := by
      refine binaryExponent_lt hn hd ?_
      rwa [hpow, ← div_lt_iff₀ hunit]
    refine .inr ⟨by omega, by omega, hsig, hbinade.trans_le hnormal⟩

/-- A ratio rounds to a double if its nearest significand, in its unit, makes up the bits of the
    double. -/
theorem ofRatio_eq {x : Double} (hfin : x.isFinite = true) {n d m : Nat} {q : Int} (hn : n ≠ 0)
    (hq : max (binaryExponent n d - 52) (-1074) = q)
    (hm : roundHalfEven (n * power 2 (-q).toNat) (d * power 2 q.toNat) = m)
    (hbits : (q + 1074).toNat * fractionCount + m =
      (x.scale + 1074).toNat * fractionCount + x.significand) :
    ofRatio x.isNegative n d = x := by
  rw [ofRatio, if_neg hn]
  dsimp only
  rw [hq, hm, hbits, Nat.min_eq_left (magnitude_lt hfin).le, ofMagnitude_parts]

/-- Just below a power of two, a ratio is rounded up to the power in half the unit. -/
theorem roundHalfEven_carry {x : Double} {n d : Nat} (hd : 0 < d) (hscale : -1074 < x.scale)
    (hsig : x.significand = fractionCount)
    (hlow : x.significand - x.reach ≤ (n : ℚ) / d / 2 ^ x.scale)
    (hbelow : (n : ℚ) / d / 2 ^ x.scale < x.significand) :
    roundHalfEven (n * power 2 (-(x.scale - 1)).toNat) (d * power 2 (x.scale - 1).toNat) =
      2 * fractionCount := by
  have hexponent : 1 < x.exponentField := by
    rw [scale] at hscale
    omega
  have hquarter : x.reach = 1 / 4 := by rw [reach, if_pos ⟨hsig, hexponent⟩]
  have hhalf : (n : ℚ) / d / 2 ^ (x.scale - 1) = 2 * (n / d / 2 ^ x.scale) := by
    rw [zpow_sub₀ (by norm_num), zpow_one]
    field_simp
  have hdouble : ((2 * fractionCount : Nat) : ℚ) = 2 * x.significand := by
    rw [hsig, Nat.cast_mul, Nat.cast_ofNat]
  refine roundHalfEven_scaled hd _ ?_ ?_ (.inl (by decide))
  · rw [hhalf, hdouble]
    linarith
  · rw [hhalf, hdouble]
    linarith

/-- Every ratio in the interval of a finite double rounds to it. -/
theorem ofRatio_of_mem {x : Double} (hfin : x.isFinite = true) (hpos : 0 < x.significand)
    {n d : Nat} (hd : 0 < d) (h : (Interval.ofDouble x).Mem (n / d)) :
    ofRatio x.isNegative n d = x := by
  obtain ⟨hlow, hhigh, htie⟩ := near_of_mem hpos h
  have hreach := x.reach_le
  have hn : 0 < n := by
    refine Nat.pos_of_ne_zero fun hzero => ?_
    have hone : (1 : ℚ) ≤ x.significand := by exact_mod_cast hpos
    rw [hzero, Nat.cast_zero, zero_div, zero_div] at hlow
    linarith
  rcases unit_of_near hn hd hlow hhigh with hq | ⟨hq, hscale, hsig, hbelow⟩
  · have hround := roundHalfEven_scaled hd x.scale (by linarith) hhigh
      (htie.imp_right fun h => ⟨by linarith [h.1], h.2⟩)
    exact ofRatio_eq hfin hn.ne' hq hround rfl
  · have hround := roundHalfEven_carry hd hscale hsig hlow hbelow
    have hnat : (x.scale + 1074).toNat = (x.scale - 1 + 1074).toNat + 1 := by omega
    refine ofRatio_eq hfin hn.ne' hq hround ?_
    rw [hnat, hsig, Nat.add_mul]
    omega

theorem log2_bound (n : Nat) : (n : ℚ) < 10 ^ (Nat.log2 n / 3 + 1) := by
  have hlt : n < 2 ^ (3 * (Nat.log2 n / 3 + 1)) :=
    Nat.lt_log2_self.trans_le (Nat.pow_le_pow_right (by decide) (by omega))
  have hle : 2 ^ (3 * (Nat.log2 n / 3 + 1)) ≤ 10 ^ (Nat.log2 n / 3 + 1) := by
    rw [Nat.pow_mul]
    exact Nat.pow_le_pow_left (by decide) _
  exact_mod_cast hlt.trans_le hle

/-- The interval of a finite double is well inside of the numerals that are worked out. -/
theorem range_of_mem {x : Double} (hfin : x.isFinite = true) (hpos : 0 < x.significand) {r : ℚ}
    (h : (Interval.ofDouble x).Mem r) : (10 : ℚ) ^ (-331 : Int) < r ∧ r < 10 ^ (309 : Int) := by
  obtain ⟨hlow, hhigh, -⟩ := near_of_mem hpos h
  have hreach := x.reach_le
  have hunit : (0 : ℚ) < 2 ^ x.scale := by positivity
  have hexponent := exponentField_lt hfin
  have hone : (1 : ℚ) ≤ x.significand := by exact_mod_cast hpos
  have hsig : (x.significand : ℚ) + 1 ≤ 2 ^ 53 := by exact_mod_cast x.significand_lt
  have hleast : (2 : ℚ) ^ (-1074 : Int) ≤ 2 ^ x.scale :=
    zpow_le_zpow_right₀ (by norm_num) (by rw [scale]; omega)
  have hmost : (2 : ℚ) ^ x.scale ≤ 2 ^ (971 : Int) :=
    zpow_le_zpow_right₀ (by norm_num) (by rw [scale]; omega)
  have hlow' : 1 / 2 * 2 ^ x.scale ≤ r := (le_div_iff₀ hunit).1 (by linarith)
  have hhigh' : r < 2 ^ 53 * 2 ^ x.scale := (div_lt_iff₀ hunit).1 (by linarith)
  have hbottom : (2 : ℚ) ^ 1075 < 10 ^ 331 := by
    exact_mod_cast (show 2 ^ 1075 < 10 ^ 331 by decide +kernel)
  have htop : (2 : ℚ) ^ 1024 < 10 ^ 309 := by
    exact_mod_cast (show 2 ^ 1024 < 10 ^ 309 by decide +kernel)
  constructor
  · calc (10 : ℚ) ^ (-331 : Int) = ((10 : ℚ) ^ 331)⁻¹ := zpow_neg 10 331
      _ < ((2 : ℚ) ^ 1075)⁻¹ := inv_strictAnti₀ (by positivity) hbottom
      _ = 1 / 2 * 2 ^ (-1074 : Int) := by
        rw [← zpow_neg_one, one_div, ← zpow_neg_one, ← zpow_natCast, ← zpow_mul,
          ← zpow_add₀ (by norm_num)]
        rfl
      _ ≤ r := by linarith
  · calc r < 2 ^ 53 * 2 ^ x.scale := hhigh'
      _ ≤ 2 ^ 53 * 2 ^ (971 : Int) := by linarith
      _ = 2 ^ 1024 := by
        rw [← zpow_natCast, ← zpow_natCast, ← zpow_add₀ (by norm_num)]
        rfl
      _ < 10 ^ (309 : Int) := htop

/-- Every decimal numeral in the interval of a finite double reads as it. -/
theorem ofDecimal_of_mem {x : Double} (hfin : x.isFinite = true) (hpos : 0 < x.significand)
    {n : Nat} {e : Int} (h : (Interval.ofDouble x).Mem (n * 10 ^ e)) :
    ofDecimal x.isNegative n e = x := by
  obtain ⟨hlow, hhigh⟩ := range_of_mem hfin hpos h
  have hten : (0 : ℚ) < 10 ^ e := by positivity
  have hn : n ≠ 0 := by
    rintro rfl
    rw [Nat.cast_zero, zero_mul] at hlow
    have : (0 : ℚ) < 10 ^ (-331 : Int) := by positivity
    linarith
  have hone : (1 : ℚ) ≤ n := by exact_mod_cast Nat.one_le_iff_ne_zero.2 hn
  have hmost : ¬ 400 < e := by
    intro hlarge
    have hpow : (10 : ℚ) ^ (309 : Int) ≤ 10 ^ e := zpow_le_zpow_right₀ (by norm_num) (by omega)
    have hle : (10 : ℚ) ^ e ≤ n * 10 ^ e := le_mul_of_one_le_left hten.le hone
    linarith
  have hleast : ¬ e + (Nat.log2 n / 3 + 2 : Nat) < -330 := by
    intro hsmall
    have hlt : (n : ℚ) * 10 ^ e < 10 ^ (-331 : Int) :=
      calc (n : ℚ) * 10 ^ e < 10 ^ (Nat.log2 n / 3 + 1) * 10 ^ e :=
            mul_lt_mul_of_pos_right (log2_bound n) hten
        _ = 10 ^ ((Nat.log2 n / 3 + 1 : Nat) + e) := by
            rw [zpow_add₀ (by norm_num), zpow_natCast]
        _ ≤ 10 ^ (-331 : Int) := zpow_le_zpow_right₀ (by norm_num) (by omega)
    linarith
  rw [ofDecimal, if_neg hn, if_neg hmost, if_neg hleast]
  refine ofRatio_of_mem hfin hpos (power_pos (by decide) _) ?_
  have hscaled := power_toNat_div (show 0 < 10 by decide) e
  rw [Nat.cast_mul, mul_div_assoc, hscaled, Nat.cast_ofNat]
  exact h

end Double

end VersionedStore
