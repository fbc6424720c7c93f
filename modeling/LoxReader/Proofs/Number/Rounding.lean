import LoxReader.Number.Rounding
import Mathlib.Order.Monotone.Basic
import Mathlib.Tactic.Ring

/-! # Rounding to the nearest rank

A ratio is rounded to a rank above `r` exactly when it lies above the midpoint of the ranks `r` and
`r + 1`, or on it and `r` is odd. That rounding is monotone, exact on magnitudes and depends on the
ratio only follows from this. -/

namespace LoxReader.Number

/-! ## Magnitudes -/

theorem unitsOfRank_binade {k n : Nat} (hn : n ≤ 2 ^ 53) (hk : k = 0 ∨ 2 ^ 52 ≤ n) :
    unitsOfRank (k * 2 ^ 52 + n) = n * 2 ^ k := by
  simp only [unitsOfRank, Nat.pow_eq]
  split
  · next h =>
    have hzero : k = 0 := by omega
    subst hzero
    simp
  · next h =>
    rcases Nat.lt_or_ge n (2 ^ 53) with hlt | hge
    · rcases Nat.lt_or_ge n (2 ^ 52) with hsmall | hlarge
      · omega
      · have hdiv : (k * 2 ^ 52 + n) / 2 ^ 52 = k + 1 := by omega
        have hmod : (k * 2 ^ 52 + n) % 2 ^ 52 = n - 2 ^ 52 := by omega
        rw [hdiv, hmod, Nat.add_sub_cancel, Nat.add_sub_cancel' hlarge]
    · -- The end of a binade is the start of the next one.
      obtain rfl : n = 2 ^ 53 := Nat.le_antisymm hn hge
      have hdiv : (k * 2 ^ 52 + 2 ^ 53) / 2 ^ 52 = k + 2 := by omega
      have hmod : (k * 2 ^ 52 + 2 ^ 53) % 2 ^ 52 = 0 := by omega
      have hpow : 2 ^ (k + 2 - 1) = 2 * 2 ^ k := pow_succ' 2 k
      rw [hdiv, hmod, hpow]
      ring

theorem exists_binade (r : Nat) :
    ∃ k n, r = k * 2 ^ 52 + n ∧ n < 2 ^ 53 ∧ (k = 0 ∨ 2 ^ 52 ≤ n) := by
  rcases Nat.lt_or_ge r (2 ^ 52) with hlt | hge
  · exact ⟨0, r, by omega, by omega, .inl rfl⟩
  · exact ⟨r / 2 ^ 52 - 1, 2 ^ 52 + r % 2 ^ 52, by omega, by omega, .inr (by omega)⟩

theorem unitsOfRank_strictMono : StrictMono unitsOfRank := by
  apply strictMono_nat_of_lt_succ
  intro r
  obtain ⟨k, n, rfl, hn, hk⟩ := exists_binade r
  rw [Nat.add_assoc, unitsOfRank_binade hn.le hk, unitsOfRank_binade hn (by omega)]
  exact Nat.mul_lt_mul_of_pos_right (Nat.lt_succ_self n) (Nat.two_pow_pos k)

@[simp] theorem unitsOfRank_zero : unitsOfRank 0 = 0 := rfl

/-! ## Rounding a quotient -/

/-- A quotient is rounded above `n` exactly when it lies above `n + 1 / 2`, or on it and `n` is
odd. -/
theorem lt_divNearest_iff {num den n : Nat} (hden : 0 < den) :
    n < divNearest num den ↔
      (2 * n + 1) * den < 2 * num ∨ (2 * n + 1) * den = 2 * num ∧ n % 2 = 1 := by
  have hnum := Nat.div_add_mod num den
  have hmod := Nat.mod_lt num hden
  have hexpand : (2 * n + 1) * den = 2 * (den * n) + den := by ring
  rw [hexpand, divNearest]
  generalize num / den = q at *
  generalize num % den = r at *
  rcases Nat.lt_trichotomy n q with hlt | rfl | hgt
  · have hle : den * n + den ≤ den * q := Nat.mul_le_mul_left den hlt
    split
    · omega
    · split <;> omega
  · split
    · omega
    · split <;> omega
  · have hle : den * q + den ≤ den * n := Nat.mul_le_mul_left den hgt
    split
    · omega
    · split <;> omega

theorem divNearest_le {num den n : Nat} (hden : 0 < den) (h : num < n * den) :
    divNearest num den ≤ n := by
  have hexpand : (2 * n + 1) * den = 2 * (n * den) + den := by ring
  rw [← Nat.not_lt, lt_divNearest_iff hden, hexpand]
  omega

theorem le_divNearest {num den n : Nat} (hden : 0 < den) (h : n * den ≤ num) :
    n ≤ divNearest num den := by
  cases n with
  | zero => exact Nat.zero_le _
  | succ n =>
    have hexpand : (2 * n + 1) * den + den = 2 * ((n + 1) * den) := by ring
    rw [Nat.succ_le_iff, lt_divNearest_iff hden]
    omega

/-! ## Rounding a ratio -/

/-- The number of units in one. -/
def unitsPerOne : Nat := Nat.pow 2 1074

theorem unitsPerOne_pos : 0 < unitsPerOne := by
  unfold unitsPerOne
  generalize 1074 = n
  exact Nat.two_pow_pos n

theorem two_pow_add (m : Nat) : 2 ^ (1074 + m) = 2 ^ m * unitsPerOne := by
  unfold unitsPerOne
  generalize 1074 = n
  rw [pow_add, Nat.mul_comm, Nat.pow_eq]

theorem nearestRank_eq (num den : Nat) :
    nearestRank num den =
      ((num * unitsPerOne / den).log2 - 52) * Nat.pow 2 52 +
        divNearest (num * unitsPerOne)
          (den * Nat.pow 2 ((num * unitsPerOne / den).log2 - 52)) := by
  unfold nearestRank unitsPerOne
  rfl

/-- The twofold midpoint of a rank and the next one, in units. -/
def twiceMidpoint (r : Nat) : Nat :=
  unitsOfRank r + unitsOfRank (r + 1)

theorem twiceMidpoint_binade {k n : Nat} (hn : n < 2 ^ 53) (hk : k = 0 ∨ 2 ^ 52 ≤ n) :
    twiceMidpoint (k * 2 ^ 52 + n) = (2 * n + 1) * 2 ^ k := by
  rw [twiceMidpoint, Nat.add_assoc, unitsOfRank_binade hn.le hk,
    unitsOfRank_binade (n := n + 1) hn (by omega)]
  ring

theorem twiceMidpoint_lt {r k : Nat} (h : r < k * 2 ^ 52 + 2 ^ 52) :
    twiceMidpoint r < 2 * 2 ^ 52 * 2 ^ k := by
  have hbottom := unitsOfRank_binade (k := k) (n := 2 ^ 52) (by omega) (.inr le_rfl)
  have hr : unitsOfRank r < unitsOfRank (k * 2 ^ 52 + 2 ^ 52) := unitsOfRank_strictMono h
  have hnext : unitsOfRank (r + 1) ≤ unitsOfRank (k * 2 ^ 52 + 2 ^ 52) :=
    unitsOfRank_strictMono.monotone h
  rw [twiceMidpoint, Nat.mul_assoc]
  omega

theorem le_twiceMidpoint {r k : Nat} (h : k * 2 ^ 52 + 2 ^ 53 ≤ r) :
    2 * 2 ^ 53 * 2 ^ k ≤ twiceMidpoint r := by
  have htop := unitsOfRank_binade (k := k) (n := 2 ^ 53) le_rfl (.inr (by omega))
  have hr : unitsOfRank (k * 2 ^ 52 + 2 ^ 53) ≤ unitsOfRank r :=
    unitsOfRank_strictMono.monotone h
  have hnext : unitsOfRank r < unitsOfRank (r + 1) := unitsOfRank_strictMono (Nat.lt_succ_self r)
  rw [twiceMidpoint, Nat.mul_assoc]
  omega

/-- The binade of a quotient: its significand in units of `2 ^ k` has 53 bits, or fewer when `k`
is zero. -/
theorem binade_bounds {scaled den : Nat} (hden : 0 < den) {k : Nat}
    (hk : k = (scaled / den).log2 - 52) :
    scaled < 2 ^ 53 * (den * 2 ^ k) ∧ (k = 0 ∨ 2 ^ 52 * (den * 2 ^ k) ≤ scaled) := by
  have hshift (n : Nat) : 2 ^ (n + k) * den = 2 ^ n * (den * 2 ^ k) := by ring
  constructor
  · have hlog : scaled / den < 2 ^ (53 + k) :=
      Nat.lt_of_lt_of_le Nat.lt_log2_self (Nat.pow_le_pow_right (by decide) (by omega))
    rw [← hshift]
    exact (Nat.div_lt_iff_lt_mul hden).mp hlog
  · rcases Nat.eq_zero_or_pos k with hzero | hpos
    · exact .inl hzero
    · right
      have hne : scaled / den ≠ 0 := by
        intro hzero
        rw [hzero, Nat.log2_zero] at hk
        omega
      have hlog : 2 ^ (52 + k) ≤ scaled / den :=
        Nat.le_trans (Nat.pow_le_pow_right (by decide) (by omega)) (Nat.log2_self_le hne)
      rw [← hshift]
      exact (Nat.le_div_iff_mul_le hden).mp hlog

/-- A ratio is rounded above the rank `r` exactly when it lies above the midpoint of `r` and the
next rank, or on it and `r` is odd. -/
theorem lt_nearestRank_iff {num den r : Nat} (hden : 0 < den) :
    r < nearestRank num den ↔
      twiceMidpoint r * den < 2 * (num * unitsPerOne) ∨
        twiceMidpoint r * den = 2 * (num * unitsPerOne) ∧ r % 2 = 1 := by
  simp only [nearestRank_eq, Nat.pow_eq]
  generalize num * unitsPerOne = scaled
  obtain ⟨k, hk⟩ : ∃ k, k = (scaled / den).log2 - 52 := ⟨_, rfl⟩
  rw [← hk]
  obtain ⟨hupper, hlower⟩ := binade_bounds hden hk
  have hmul (n : Nat) : n * 2 ^ k * den = n * (den * 2 ^ k) := by ring
  have hunit : 0 < den * 2 ^ k := Nat.mul_pos hden (Nat.two_pow_pos k)
  -- The significand stays within its binade, whose upper end it may reach by a carry.
  have hle := divNearest_le hunit hupper
  have hge := hlower.imp_right (le_divNearest hunit)
  rcases Nat.lt_or_ge r (k * 2 ^ 52 + 2 ^ 53) with hbelow | habove
  · by_cases hbinade : k = 0 ∨ k * 2 ^ 52 + 2 ^ 52 ≤ r
    · obtain ⟨n, rfl⟩ : ∃ n, r = k * 2 ^ 52 + n := ⟨r - k * 2 ^ 52, by omega⟩
      have hparity : (k * 2 ^ 52 + n) % 2 = n % 2 := by omega
      rw [twiceMidpoint_binade (by omega) (by omega), hmul, hparity, Nat.add_lt_add_iff_left,
        lt_divNearest_iff hunit]
    · rw [not_or, Nat.not_le] at hbinade
      have hmid : twiceMidpoint r < 2 * 2 ^ 52 * 2 ^ k := twiceMidpoint_lt hbinade.2
      have hlt : twiceMidpoint r * den < 2 * 2 ^ 52 * 2 ^ k * den :=
        Nat.mul_lt_mul_of_pos_right hmid hden
      rw [hmul, Nat.mul_assoc] at hlt
      have hrank : r < k * 2 ^ 52 + divNearest scaled (den * 2 ^ k) := by omega
      have hbelow : twiceMidpoint r * den < 2 * scaled := by omega
      exact iff_of_true hrank (.inl hbelow)
  · have hlt := Nat.mul_le_mul_right den (le_twiceMidpoint habove)
    rw [hmul, Nat.mul_assoc] at hlt
    have hrank : ¬ r < k * 2 ^ 52 + divNearest scaled (den * 2 ^ k) := by omega
    have habove : 2 * scaled < twiceMidpoint r * den := by omega
    refine iff_of_false hrank ?_
    omega

/-- A larger ratio is not rounded to a smaller rank. -/
theorem nearestRank_mono {num den num' den' : Nat} (hden : 0 < den) (hden' : 0 < den')
    (h : num * den' ≤ num' * den) : nearestRank num den ≤ nearestRank num' den' := by
  apply le_of_forall_lt
  intro r hr
  rw [lt_nearestRank_iff hden] at hr
  rw [lt_nearestRank_iff hden']
  -- Both sides of the comparison with the midpoint are brought over the common denominator.
  have hcross : 2 * (num * unitsPerOne) * den' ≤ 2 * (num' * unitsPerOne) * den := by
    calc 2 * (num * unitsPerOne) * den' = 2 * unitsPerOne * (num * den') := by ring
      _ ≤ 2 * unitsPerOne * (num' * den) := Nat.mul_le_mul_left _ h
      _ = 2 * (num' * unitsPerOne) * den := by ring
  have hswap : twiceMidpoint r * den * den' = twiceMidpoint r * den' * den := by ring
  rcases hr with hlt | ⟨heq, hodd⟩
  · left
    apply Nat.lt_of_mul_lt_mul_right (a := den)
    rw [← hswap]
    exact Nat.lt_of_lt_of_le (Nat.mul_lt_mul_of_pos_right hlt hden') hcross
  · rw [← heq, hswap] at hcross
    rcases Nat.lt_or_eq_of_le (Nat.le_of_mul_le_mul_right hcross hden) with hlt | heq'
    · exact .inl hlt
    · exact .inr ⟨heq', hodd⟩

/-- The magnitude of a rank is rounded to that rank. -/
theorem nearestRank_of_units {num den r : Nat} (hden : 0 < den)
    (h : unitsOfRank r * den = num * unitsPerOne) : nearestRank num den = r := by
  apply Nat.le_antisymm
  · have hnext : unitsOfRank r < unitsOfRank (r + 1) := unitsOfRank_strictMono (Nat.lt_succ_self r)
    have habove : 2 * unitsOfRank r * den < twiceMidpoint r * den :=
      Nat.mul_lt_mul_of_pos_right (by rw [twiceMidpoint]; omega) hden
    rw [Nat.mul_assoc, h] at habove
    rw [← Nat.not_lt, lt_nearestRank_iff hden]
    omega
  · cases r with
    | zero => exact Nat.zero_le _
    | succ r =>
      have hnext : unitsOfRank r < unitsOfRank (r + 1) :=
        unitsOfRank_strictMono (Nat.lt_succ_self r)
      have hbelow : twiceMidpoint r * den < 2 * unitsOfRank (r + 1) * den :=
        Nat.mul_lt_mul_of_pos_right (by rw [twiceMidpoint]; omega) hden
      rw [Nat.mul_assoc, h] at hbelow
      rw [Nat.succ_le_iff, lt_nearestRank_iff hden]
      exact .inl hbelow

end LoxReader.Number
