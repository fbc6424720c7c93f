import LoxReader.Number.Decimal
import LoxReader.Proofs.Number.Rounding
import Mathlib.Algebra.Order.Field.Power
import Mathlib.Data.Rat.Cast.Order
import Mathlib.Tactic.FieldSimp
import Mathlib.Tactic.Positivity

/-! # Values of decimals

A decimal is rounded by its value alone, and monotonically. The shortcuts for very large and very
small exponents give the same result as rounding the ratio. -/

namespace LoxReader.Number

namespace Binary64

theorem ofRank_zero : ofRank false 0 = .zero := rfl

theorem ofRank_of_lt {negative : Bool} {r : Nat} (h : r < 2047 * Nat.pow 2 52) :
    ofRank negative r = .finite negative ⟨r, h⟩ :=
  dif_pos h

theorem ofRank_of_le {negative : Bool} {r : Nat} (h : 2047 * Nat.pow 2 52 ≤ r) :
    ofRank negative r = .infinite negative :=
  dif_neg (Nat.not_lt.mpr h)

end Binary64

namespace Decimal

/-- The exact value of a decimal. -/
def value (d : Decimal) : ℚ :=
  d.coefficient * 10 ^ d.exponent

def numerator (d : Decimal) : Nat :=
  d.coefficient * 10 ^ d.exponent.toNat

def denominator (d : Decimal) : Nat :=
  10 ^ (-d.exponent).toNat

/-- The rank nearest to a decimal, which may lie beyond the finite numbers. -/
def rank (d : Decimal) : Nat :=
  nearestRank d.numerator d.denominator

theorem denominator_pos (d : Decimal) : 0 < d.denominator :=
  Nat.pow_pos (by decide)

theorem value_eq (d : Decimal) : d.value = d.numerator / d.denominator := by
  have hexponent : d.exponent = (d.exponent.toNat : Int) - ((-d.exponent).toNat : Int) := by omega
  rw [value, numerator, denominator]
  nth_rewrite 1 [hexponent]
  rw [zpow_sub₀ (by norm_num), zpow_natCast, zpow_natCast]
  push_cast
  ring

theorem rank_mono {d d' : Decimal} (h : d.value ≤ d'.value) : d.rank ≤ d'.rank := by
  have hden : (0 : ℚ) < d.denominator := by exact_mod_cast d.denominator_pos
  have hden' : (0 : ℚ) < d'.denominator := by exact_mod_cast d'.denominator_pos
  rw [value_eq, value_eq, div_le_div_iff₀ hden hden'] at h
  exact nearestRank_mono d.denominator_pos d'.denominator_pos (by exact_mod_cast h)

theorem rank_congr {d d' : Decimal} (h : d.value = d'.value) : d.rank = d'.rank :=
  Nat.le_antisymm (rank_mono h.le) (rank_mono h.ge)

theorem rank_of_units {d : Decimal} {r : Nat} (h : d.value * unitsPerOne = unitsOfRank r) :
    d.rank = r := by
  have hden : (d.denominator : ℚ) ≠ 0 := by exact_mod_cast d.denominator_pos.ne'
  apply nearestRank_of_units d.denominator_pos
  rw [value_eq] at h
  field_simp at h
  have hcross : d.numerator * unitsPerOne = d.denominator * unitsOfRank r := by exact_mod_cast h
  rw [hcross, Nat.mul_comm]

theorem rank_le_of_value_le {d : Decimal} {r : Nat} (h : d.value ≤ unitsOfRank r / unitsPerOne) :
    d.rank ≤ r := by
  have hden : (0 : ℚ) < d.denominator := by exact_mod_cast d.denominator_pos
  have hone : (0 : ℚ) < unitsPerOne := by exact_mod_cast unitsPerOne_pos
  rw [value_eq, div_le_div_iff₀ hden hone] at h
  calc d.rank ≤ nearestRank (unitsOfRank r) unitsPerOne :=
        nearestRank_mono d.denominator_pos unitsPerOne_pos (by exact_mod_cast h)
    _ = r := nearestRank_of_units unitsPerOne_pos rfl

/-! ## Shortcuts -/

theorem rank_of_coefficient_eq_zero {d : Decimal} (h : d.coefficient = 0) : d.rank = 0 := by
  apply rank_of_units
  rw [unitsOfRank_zero, value, h, Nat.cast_zero, zero_mul, zero_mul]

/-- The least power of ten that counts as too large is beyond the finite numbers. -/
theorem le_rank_of_lt_exponent {d : Decimal} (hc : d.coefficient ≠ 0) (he : 309 < d.exponent) :
    2047 * Nat.pow 2 52 ≤ d.rank := by
  have hbound : 2047 * Nat.pow 2 52 ≤ (Decimal.mk 1 310).rank := by decide +kernel
  refine hbound.trans (rank_mono ?_)
  have hpow : (10 : ℚ) ^ (310 : Int) ≤ 10 ^ d.exponent :=
    zpow_le_zpow_right₀ (by norm_num) (by omega)
  have hone : (1 : ℚ) ≤ d.coefficient := by exact_mod_cast Nat.one_le_iff_ne_zero.mpr hc
  calc (Decimal.mk 1 310).value = 10 ^ (310 : Int) := by simp [value]
    _ ≤ 10 ^ d.exponent := hpow
    _ ≤ d.value := by
      rw [value]
      exact le_mul_of_one_le_left (by positivity) hone

/-- A coefficient of `b` bits does not get the value over half of the least magnitude when the
exponent is below `-b / 3 - 331`. -/
theorem rank_of_small {d : Decimal} (h : d.coefficient.log2 / 3 + 331 < (-d.exponent).toNat) :
    d.rank = 0 := by
  have hnum : d.numerator = d.coefficient := by
    have hnonpos : d.exponent.toNat = 0 := by omega
    rw [numerator, hnonpos, pow_zero, Nat.mul_one]
  generalize hthird : d.coefficient.log2 / 3 = third at h
  have hcoefficient : d.coefficient ≤ 8 ^ (third + 1) := by
    calc d.coefficient ≤ 2 ^ (d.coefficient.log2 + 1) := Nat.lt_log2_self.le
      _ ≤ 2 ^ (3 * (third + 1)) := Nat.pow_le_pow_right (by decide) (by omega)
      _ = 8 ^ (third + 1) := pow_mul 2 3 (third + 1)
  have hbound : 16 * unitsPerOne ≤ 10 ^ 332 := by decide +kernel
  have hhalf : 2 * (d.numerator * unitsPerOne) ≤ d.denominator := by
    calc 2 * (d.numerator * unitsPerOne) ≤ 2 * (8 ^ (third + 1) * unitsPerOne) := by
          rw [hnum]
          gcongr
      _ = 16 * unitsPerOne * 8 ^ third := by ring
      _ ≤ 10 ^ 332 * 10 ^ third :=
        Nat.mul_le_mul hbound (Nat.pow_le_pow_left (by decide) third)
      _ = 10 ^ (332 + third) := (pow_add 10 332 third).symm
      _ ≤ d.denominator := Nat.pow_le_pow_right (by decide) (by omega)
  have hmid : twiceMidpoint 0 = 1 := rfl
  rw [← Nat.le_zero, ← Nat.not_lt, rank, lt_nearestRank_iff d.denominator_pos, hmid]
  omega

/-- A decimal is rounded by its ratio, whatever its exponent is. -/
theorem toBinary64_eq (d : Decimal) : d.toBinary64 = .ofRank false d.rank := by
  rw [toBinary64]
  split
  · next hc => rw [rank_of_coefficient_eq_zero hc, Binary64.ofRank_zero]
  · next hc =>
    split
    · next hnonneg =>
      split
      · next hlarge => exact (Binary64.ofRank_of_le (le_rank_of_lt_exponent hc hlarge)).symm
      · have hden : (-d.exponent).toNat = 0 := by omega
        rw [rank, numerator, denominator, hden]
        rfl
    · next hneg =>
      split
      · next hsmall => rw [rank_of_small hsmall, Binary64.ofRank_zero]
      · have hnum : d.exponent.toNat = 0 := by omega
        rw [rank, numerator, denominator, hnum, pow_zero, Nat.mul_one]
        rfl

theorem toBinary64_congr {d d' : Decimal} (h : d.value = d'.value) :
    d.toBinary64 = d'.toBinary64 := by
  rw [toBinary64_eq, toBinary64_eq, rank_congr h]

end Decimal

end LoxReader.Number
