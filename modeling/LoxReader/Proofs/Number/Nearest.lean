import LoxReader.Proofs.Number.Readback
import Mathlib.Algebra.Order.Group.Unbundled.Abs
import Mathlib.Algebra.Ring.Parity

/-! # Correct rounding

The finite values of the format are the multiples of powers of two, from 2⁻¹⁰⁷⁴ to 2⁹⁷¹, by
significands of 53 bits. A ratio is rounded to the nearest of them, a tie going to the even
significand, and to infinity from the midpoint of the largest one and 2¹⁰²⁴ on. -/

namespace LoxReader.Number

/-! ## The values of the format -/

/-- A finite value with its significand and its exponent. -/
structure HasSignificand (v : ℚ) (m e : ℤ) : Prop where
  eq : v = m * 2 ^ e
  abs_lt : |m| < 2 ^ 53
  le_exponent : -1074 ≤ e
  exponent_le : e ≤ 971

def IsFiniteValue (v : ℚ) : Prop :=
  ∃ m e, HasSignificand v m e

/-- The values whose significand, written in as many bits as it may have, is even. -/
def HasEvenSignificand (v : ℚ) : Prop :=
  ∃ m e, HasSignificand v m e ∧ (2 ^ 52 ≤ |m| ∨ e = -1074) ∧ Even m

/-- The finite value nearest to `q`, and among two of them the one with the even significand. -/
structure IsNearest (q v : ℚ) : Prop where
  isFiniteValue : IsFiniteValue v
  abs_sub_le : ∀ w, IsFiniteValue w → |q - v| ≤ |q - w|
  even_of_tie : ∀ w, IsFiniteValue w → |q - w| = |q - v| → w = v ∨ HasEvenSignificand v

/-- Half a step of the largest exponent beyond the largest finite value. -/
def overflowBound : ℚ := 2 ^ 1024 - 2 ^ 970

/-- The number to which a rational is correctly rounded: the nearest value with the sign of the
rational, and infinity when that lies too far out. -/
inductive CorrectlyRounds (q : ℚ) : Binary64 → Prop where
  | finite {negative rank value} : |q| < overflowBound → (negative = true ↔ q < 0) →
      (Binary64.finite negative rank).value? = some value → IsNearest q value →
      CorrectlyRounds q (.finite negative rank)
  | infinite {negative} : overflowBound ≤ |q| → (negative = true ↔ q < 0) →
      CorrectlyRounds q (.infinite negative)

/-! ## Magnitudes -/

/-- The magnitude of a rank. -/
def magnitude (r : Nat) : ℚ :=
  unitsOfRank r / unitsPerOne

theorem cast_unitsPerOne_pos : (0 : ℚ) < unitsPerOne := by
  exact_mod_cast unitsPerOne_pos

theorem magnitude_strictMono : StrictMono magnitude := by
  intro r s h
  have hunits : (unitsOfRank r : ℚ) < unitsOfRank s := by exact_mod_cast unitsOfRank_strictMono h
  exact div_lt_div_of_pos_right hunits cast_unitsPerOne_pos

theorem magnitude_zero : magnitude 0 = 0 := by
  rw [magnitude, unitsOfRank_zero, Nat.cast_zero, zero_div]

theorem magnitude_nonneg (r : Nat) : 0 ≤ magnitude r :=
  div_nonneg (Nat.cast_nonneg _) (Nat.cast_nonneg _)

theorem units_div (n k : Nat) :
    ((n * 2 ^ k : Nat) : ℚ) / unitsPerOne = n * 2 ^ ((k : ℤ) - 1074) := by
  have hexponent : (1074 : ℤ) = ((1074 : Nat) : ℤ) := rfl
  rw [hexponent]
  unfold unitsPerOne
  generalize 1074 = j
  rw [Nat.pow_eq, zpow_sub₀ (by norm_num), zpow_natCast, zpow_natCast]
  push_cast
  ring

theorem magnitude_binade {k n : Nat} (hn : n ≤ 2 ^ 53) (hk : k = 0 ∨ 2 ^ 52 ≤ n) :
    magnitude (k * 2 ^ 52 + n) = n * 2 ^ ((k : ℤ) - 1074) := by
  rw [magnitude, unitsOfRank_binade hn hk, units_div]

/-- Every significand of 53 bits at most gives a magnitude, whatever its leading bit is. -/
theorem exists_unitsOfRank_eq {m : Nat} (hm : m < 2 ^ 53) (k : Nat) :
    ∃ r < (k + 2) * 2 ^ 52, unitsOfRank r = m * 2 ^ k := by
  induction k generalizing m with
  | zero =>
    have hunits := unitsOfRank_binade (k := 0) hm.le (.inl rfl)
    rw [Nat.zero_mul, Nat.zero_add] at hunits
    exact ⟨m, by omega, hunits⟩
  | succ k ih =>
    by_cases hlarge : 2 ^ 52 ≤ m
    · exact ⟨(k + 1) * 2 ^ 52 + m, by omega, unitsOfRank_binade hm.le (.inr hlarge)⟩
    · obtain ⟨r, hr, hunits⟩ := ih (m := 2 * m) (by omega)
      refine ⟨r, hr.trans_le (Nat.mul_le_mul_right _ (Nat.le_succ (k + 2))), ?_⟩
      rw [hunits]
      ring

/-- The finite values are the magnitudes of the ranks, of either sign. -/
theorem isFiniteValue_iff {v : ℚ} :
    IsFiniteValue v ↔ ∃ r < 2047 * 2 ^ 52, |v| = magnitude r := by
  constructor
  · rintro ⟨m, e, rfl, hm, hlow, hhigh⟩
    obtain ⟨k, hk⟩ : ∃ k : Nat, (k : ℤ) - 1074 = e := ⟨(e + 1074).toNat, by omega⟩
    have hexponent : k + 2 ≤ 2047 := by omega
    have hnatAbs : m.natAbs < 2 ^ 53 := by
      rw [Int.abs_eq_natAbs] at hm
      exact_mod_cast hm
    obtain ⟨r, hr, hunits⟩ := exists_unitsOfRank_eq hnatAbs k
    have hpow : (0 : ℚ) < 2 ^ e := zpow_pos (by norm_num) e
    refine ⟨r, hr.trans_le (Nat.mul_le_mul_right _ hexponent), ?_⟩
    rw [magnitude, hunits, units_div, hk, abs_mul, abs_of_pos hpow, Nat.cast_natAbs, Int.cast_abs]
  · rintro ⟨r, hr, hv⟩
    obtain ⟨k, n, rfl, hn, hk⟩ := exists_binade r
    rw [magnitude_binade hn.le hk] at hv
    rcases abs_choice v with hsign | hsign
    · refine ⟨n, k - 1074, ?_, ?_, by omega, by omega⟩
      · rw [← hsign, hv, Int.cast_natCast]
      · rw [Nat.abs_cast]
        exact_mod_cast hn
    · refine ⟨-n, k - 1074, ?_, ?_, by omega, by omega⟩
      · rw [← neg_neg v, ← hsign, hv, Int.cast_neg, Int.cast_natCast, neg_mul]
      · rw [abs_neg, Nat.abs_cast]
        exact_mod_cast hn

theorem isFiniteValue_magnitude {r : Nat} (hr : r < 2047 * 2 ^ 52) :
    IsFiniteValue (magnitude r) :=
  isFiniteValue_iff.mpr ⟨r, hr, abs_of_nonneg (magnitude_nonneg r)⟩

/-- The parity of a rank is that of its significand. -/
theorem hasEvenSignificand_magnitude {r : Nat} (hr : r < 2047 * 2 ^ 52) (heven : r % 2 = 0) :
    HasEvenSignificand (magnitude r) := by
  obtain ⟨k, n, rfl, hn, hk⟩ := exists_binade r
  refine ⟨n, k - 1074, ⟨?_, ?_, by omega, by omega⟩, ?_, ?_⟩
  · rw [magnitude_binade hn.le hk, Int.cast_natCast]
  · rw [Nat.abs_cast]
    exact_mod_cast hn
  · rw [Nat.abs_cast]
    rcases hk with rfl | hk
    · exact .inr rfl
    · exact .inl (by exact_mod_cast hk)
  · rw [Int.even_coe_nat, Nat.even_iff]
    omega

/-- A value has one significand that is as long as it may be, and the parity of that is the parity
of its rank. -/
theorem even_of_hasEvenSignificand {v : ℚ} {r : Nat} (hv : |v| = magnitude r)
    (h : HasEvenSignificand v) : r % 2 = 0 := by
  obtain ⟨m, e, ⟨rfl, hm, hlow, -⟩, hlong, heven⟩ := h
  obtain ⟨k, hk⟩ : ∃ k : Nat, (k : ℤ) - 1074 = e := ⟨(e + 1074).toNat, by omega⟩
  have hpow : (0 : ℚ) < 2 ^ e := zpow_pos (by norm_num) e
  rw [Int.abs_eq_natAbs] at hm hlong
  have hmagnitude : magnitude (k * 2 ^ 52 + m.natAbs) = magnitude r := by
    rw [magnitude_binade (by omega) (by omega), hk, ← hv, abs_mul, abs_of_pos hpow,
      Nat.cast_natAbs, Int.cast_abs]
  have hrank := magnitude_strictMono.injective hmagnitude
  rw [← Int.natAbs_even, Nat.even_iff] at heven
  omega

/-! ## There is one nearest value -/

theorem IsFiniteValue.neg {v : ℚ} (h : IsFiniteValue v) : IsFiniteValue (-v) := by
  rw [isFiniteValue_iff, abs_neg, ← isFiniteValue_iff]
  exact h

theorem HasEvenSignificand.neg {v : ℚ} (h : HasEvenSignificand v) : HasEvenSignificand (-v) := by
  obtain ⟨m, e, ⟨rfl, hm, hlow, hhigh⟩, hlong, heven⟩ := h
  refine ⟨-m, e, ⟨?_, ?_, hlow, hhigh⟩, ?_, heven.neg⟩
  · rw [Int.cast_neg, neg_mul]
  · rwa [abs_neg]
  · rwa [abs_neg]

theorem abs_neg_sub (q w : ℚ) : |-q - w| = |q - -w| := by
  rw [← abs_neg]
  congr 1
  ring

theorem IsNearest.neg {q v : ℚ} (h : IsNearest q v) : IsNearest (-q) (-v) := by
  constructor
  · exact h.isFiniteValue.neg
  · intro w hw
    rw [abs_neg_sub, abs_neg_sub, neg_neg]
    exact h.abs_sub_le (-w) hw.neg
  · intro w hw htie
    rw [abs_neg_sub, abs_neg_sub, neg_neg] at htie
    rcases h.even_of_tie (-w) hw.neg htie with heq | heven
    · exact .inl (by rw [← heq, neg_neg])
    · exact .inr heven.neg

/-- No value lies between two that are both nearest. -/
theorem IsNearest.not_between {q v v' w : ℚ} (h : IsNearest q v) (h' : IsNearest q v')
    (hw : IsFiniteValue w) : ¬ (v < w ∧ w < v') := by
  rintro ⟨hbelow, habove⟩
  rcases le_total w q with hle | hge
  · have hnear := (le_abs_self (q - v)).trans (h.abs_sub_le w hw)
    rw [abs_of_nonneg (by linarith)] at hnear
    linarith
  · have hnear := (neg_abs_le (q - v')).trans' (neg_le_neg (h'.abs_sub_le w hw))
    rw [abs_of_nonpos (by linarith)] at hnear
    linarith

/-- Two nearest values without a sign would be neighbours, and one of them has an odd
significand. -/
theorem IsNearest.not_lt_of_nonneg {q v v' : ℚ} (h : IsNearest q v) (h' : IsNearest q v')
    (hv : 0 ≤ v) : ¬ v < v' := by
  intro hlt
  obtain ⟨r, hr, hrank⟩ := isFiniteValue_iff.mp h.isFiniteValue
  obtain ⟨s, hs, hrank'⟩ := isFiniteValue_iff.mp h'.isFiniteValue
  have hvalue := hrank
  have hvalue' := hrank'
  rw [abs_of_nonneg hv] at hvalue
  rw [abs_of_nonneg (hv.trans hlt.le)] at hvalue'
  have hranks : r < s := by
    rwa [← magnitude_strictMono.lt_iff_lt, ← hvalue, ← hvalue']
  by_cases hnext : s = r + 1
  · have htie := le_antisymm (h.abs_sub_le v' h'.isFiniteValue) (h'.abs_sub_le v h.isFiniteValue)
    have heven := (h.even_of_tie v' h'.isFiniteValue htie.symm).resolve_left hlt.ne'
    have heven' := (h'.even_of_tie v h.isFiniteValue htie).resolve_left hlt.ne
    have hparity := even_of_hasEvenSignificand hrank heven
    have hparity' := even_of_hasEvenSignificand hrank' heven'
    omega
  · apply h.not_between h' (isFiniteValue_magnitude (r := r + 1) (by omega))
    rw [hvalue, hvalue']
    exact ⟨magnitude_strictMono (by omega), magnitude_strictMono (by omega)⟩

theorem IsNearest.le {q v v' : ℚ} (h : IsNearest q v) (h' : IsNearest q v') : v' ≤ v := by
  have hzero : IsFiniteValue 0 := by
    rw [← magnitude_zero]
    exact isFiniteValue_magnitude (by decide)
  rw [← not_lt]
  intro hlt
  by_cases hv : 0 ≤ v
  · exact h.not_lt_of_nonneg h' hv hlt
  · by_cases hv' : v' ≤ 0
    · exact h'.neg.not_lt_of_nonneg h.neg (neg_nonneg.mpr hv') (neg_lt_neg hlt)
    · exact h.not_between h' hzero ⟨not_le.mp hv, not_le.mp hv'⟩

theorem IsNearest.unique {q v v' : ℚ} (h : IsNearest q v) (h' : IsNearest q v') : v = v' :=
  le_antisymm (h'.le h) (h.le h')

theorem value?_finite_inj {negative : Bool} {r s : Fin (2047 * Nat.pow 2 52)} {v : ℚ}
    (hr : (Binary64.finite negative r).value? = some v)
    (hs : (Binary64.finite negative s).value? = some v) : r = s := by
  have hvalue : (Binary64.finite negative r).value? = (Binary64.finite negative s).value? :=
    hr.trans hs.symm
  have hsign : magnitude r = magnitude s := by
    cases negative with
    | false => exact Option.some.inj hvalue
    | true => exact neg_injective (Option.some.inj hvalue)
  exact Fin.ext (magnitude_strictMono.injective hsign)

/-- A rational is correctly rounded to one number. -/
theorem CorrectlyRounds.unique {q : ℚ} {x y : Binary64} (hx : CorrectlyRounds q x)
    (hy : CorrectlyRounds q y) : x = y := by
  have hsame {a b : Bool} (ha : a = true ↔ q < 0) (hb : b = true ↔ q < 0) : a = b :=
    Bool.eq_iff_iff.mpr (ha.trans hb.symm)
  cases hx with
  | finite hbound hsign hvalue hnear =>
    cases hy with
    | finite hbound' hsign' hvalue' hnear' =>
      obtain rfl := hsame hsign hsign'
      obtain rfl := hnear.unique hnear'
      rw [value?_finite_inj hvalue hvalue']
    | infinite hbound' => exact absurd hbound (not_lt.mpr hbound')
  | infinite hbound hsign =>
    cases hy with
    | finite hbound' => exact absurd hbound' (not_lt.mpr hbound)
    | infinite hbound' hsign' => rw [hsame hsign hsign']

/-! ## The nearest rank -/

/-- The midpoint of a rank and the next one. -/
def midpoint (r : Nat) : ℚ :=
  (magnitude r + magnitude (r + 1)) / 2

theorem midpoint_eq (r : Nat) : midpoint r = twiceMidpoint r / (2 * unitsPerOne) := by
  have hone := cast_unitsPerOne_pos.ne'
  rw [midpoint, magnitude, magnitude, twiceMidpoint]
  push_cast
  field_simp

section

variable {num den : Nat}

theorem lt_nearestRank_iff_midpoint (hden : 0 < den) {r : Nat} :
    r < nearestRank num den ↔
      midpoint r < num / den ∨ midpoint r = num / den ∧ r % 2 = 1 := by
  have hone : (0 : ℚ) < 2 * unitsPerOne := mul_pos two_pos cast_unitsPerOne_pos
  have hden' : (0 : ℚ) < den := by exact_mod_cast hden
  have hswap : (num : ℚ) * (2 * unitsPerOne) = 2 * (num * unitsPerOne) := by ring
  rw [lt_nearestRank_iff hden, midpoint_eq, div_lt_div_iff₀ hone hden',
    div_eq_div_iff hone.ne' hden'.ne', hswap]
  norm_cast

/-- A rank below the nearest one is not nearer, and as near only when the nearest one is even. -/
theorem abs_sub_le_of_lt (hden : 0 < den) {s : Nat} (hs : s < nearestRank num den) :
    |num / den - magnitude (nearestRank num den)| ≤ num / den - magnitude s ∧
      (num / den - magnitude s = |num / den - magnitude (nearestRank num den)| →
        nearestRank num den % 2 = 0) := by
  obtain ⟨p, hp⟩ : ∃ p, nearestRank num den = p + 1 := ⟨_, (Nat.succ_pred (by omega)).symm⟩
  have hmid : midpoint p < num / den ∨ midpoint p = num / den ∧ p % 2 = 1 := by
    rw [← lt_nearestRank_iff_midpoint hden]
    omega
  have hle : magnitude s ≤ magnitude p := magnitude_strictMono.monotone (by omega)
  have hnext : magnitude p < magnitude (p + 1) := magnitude_strictMono (Nat.lt_succ_self p)
  rw [hp]
  rw [midpoint] at hmid
  generalize (num / den : ℚ) = q at *
  generalize magnitude (p + 1) = above at *
  have hwithin : |q - above| ≤ q - magnitude p := by
    rw [abs_le]
    rcases hmid with hlt | ⟨heq, -⟩ <;> constructor <;> linarith
  refine ⟨by linarith, fun htie => ?_⟩
  rcases hmid with hlt | ⟨-, hodd⟩
  · have hstrict : |q - above| < q - magnitude p := by
      rw [abs_lt]
      constructor <;> linarith
    linarith
  · omega

/-- A rank above the nearest one is not nearer, and as near only when the nearest one is even. -/
theorem abs_sub_le_of_gt (hden : 0 < den) {s : Nat} (hs : nearestRank num den < s) :
    |num / den - magnitude (nearestRank num den)| ≤ magnitude s - num / den ∧
      (magnitude s - num / den = |num / den - magnitude (nearestRank num den)| →
        nearestRank num den % 2 = 0) := by
  have hmid := (lt_nearestRank_iff_midpoint hden).not.mp (Nat.lt_irrefl (nearestRank num den))
  generalize nearestRank num den = r at *
  have hle : magnitude (r + 1) ≤ magnitude s := magnitude_strictMono.monotone hs
  have hnext : magnitude r < magnitude (r + 1) := magnitude_strictMono (Nat.lt_succ_self r)
  rw [midpoint, not_or, not_lt, not_and] at hmid
  obtain ⟨hbelow, htie⟩ := hmid
  generalize (num / den : ℚ) = q at *
  generalize magnitude (r + 1) = above at *
  have hwithin : |q - magnitude r| ≤ above - q := by
    rw [abs_le]
    constructor <;> linarith
  refine ⟨by linarith, fun heq => ?_⟩
  by_cases hmid : (magnitude r + above) / 2 = q
  · have hodd := htie hmid
    omega
  · have hstrict : |q - magnitude r| < above - q := by
      have hlt := lt_of_le_of_ne hbelow (Ne.symm hmid)
      rw [abs_lt]
      constructor <;> linarith
    linarith

theorem abs_sub_nearestRank_le (hden : 0 < den) (s : Nat) :
    |num / den - magnitude (nearestRank num den)| ≤ |num / den - magnitude s| ∧
      (|num / den - magnitude s| = |num / den - magnitude (nearestRank num den)| →
        s = nearestRank num den ∨ nearestRank num den % 2 = 0) := by
  rcases Nat.lt_trichotomy s (nearestRank num den) with hlt | rfl | hgt
  · obtain ⟨hle, htie⟩ := abs_sub_le_of_lt hden hlt
    rw [abs_of_nonneg ((abs_nonneg _).trans hle)]
    exact ⟨hle, fun heq => .inr (htie heq)⟩
  · exact ⟨le_rfl, fun _ => .inl rfl⟩
  · obtain ⟨hle, htie⟩ := abs_sub_le_of_gt hden hgt
    rw [abs_sub_comm _ (magnitude s), abs_of_nonneg ((abs_nonneg _).trans hle)]
    exact ⟨hle, fun heq => .inr (htie heq)⟩

/-! ## The nearest value -/

/-- Among the values of either sign, the magnitude of the nearest rank is the nearest one. -/
theorem isNearest_magnitude (hden : 0 < den) (hfinite : nearestRank num den < 2047 * 2 ^ 52) :
    IsNearest (num / den) (magnitude (nearestRank num den)) := by
  have hq : (0 : ℚ) ≤ num / den := div_nonneg (Nat.cast_nonneg _) (Nat.cast_nonneg _)
  have hnear := @abs_sub_nearestRank_le num den hden
  have hvalue := isFiniteValue_magnitude hfinite
  have heven := hasEvenSignificand_magnitude hfinite
  generalize nearestRank num den = r at *
  generalize (num / den : ℚ) = q at *
  have hfold (w : ℚ) : abs (q - |w|) ≤ |q - w| := by
    have h := abs_abs_sub_abs_le_abs_sub q w
    rwa [abs_of_nonneg hq] at h
  constructor
  · exact hvalue
  · intro w hw
    obtain ⟨s, -, hs⟩ := isFiniteValue_iff.mp hw
    calc |q - magnitude r| ≤ |q - magnitude s| := (hnear s).1
      _ = abs (q - |w|) := by rw [hs]
      _ ≤ |q - w| := hfold w
  · intro w hw htie
    obtain ⟨s, -, hs⟩ := isFiniteValue_iff.mp hw
    have hsame : |q - magnitude s| = |q - magnitude r| := by
      apply le_antisymm _ (hnear s).1
      rw [← hs, ← htie]
      exact hfold w
    rcases (hnear s).2 hsame with rfl | hparity
    · by_cases hsign : 0 ≤ w
      · exact .inl (by rw [← hs, abs_of_nonneg hsign])
      · -- Zero would be nearer than a negative value.
        have hzero := (hnear 0).1
        rw [magnitude_zero, sub_zero, abs_of_nonneg hq, ← htie,
          abs_of_pos (by linarith)] at hzero
        linarith
    · exact .inr (heven hparity)

/-- The midpoint behind the largest rank is where numbers become infinite. -/
theorem midpoint_largest : midpoint (2047 * 2 ^ 52 - 1) = overflowBound := by
  have hlargest : 2047 * 2 ^ 52 - 1 = 2045 * 2 ^ 52 + (2 ^ 53 - 1) := by decide
  have hnext : 2047 * 2 ^ 52 - 1 + 1 = 2045 * 2 ^ 52 + 2 ^ 53 := by decide
  have hexponent : ((2045 : Nat) : ℤ) - 1074 = 971 := by decide
  have hpow : (2 : ℚ) ^ (971 : ℤ) = 2 * 2 ^ 970 := by
    have hcast : (971 : ℤ) = ((970 + 1 : Nat) : ℤ) := rfl
    rw [hcast, zpow_natCast, pow_succ']
  have hbound : (2 : ℚ) ^ 1024 = 2 ^ 54 * 2 ^ 970 := by
    rw [← pow_add]
  rw [midpoint, hnext, hlargest, magnitude_binade (by decide) (.inr (by decide)),
    magnitude_binade (by decide) (.inr (by decide)), overflowBound, hexponent, hpow, hbound]
  generalize (2 : ℚ) ^ 970 = step
  norm_num
  ring

/-- The largest rank is odd, so its midpoint is rounded beyond it. -/
theorem nearestRank_lt_iff (hden : 0 < den) :
    nearestRank num den < 2047 * 2 ^ 52 ↔ (num / den : ℚ) < overflowBound := by
  have hlast : nearestRank num den < 2047 * 2 ^ 52 ↔
      ¬ 2047 * 2 ^ 52 - 1 < nearestRank num den := by omega
  rw [hlast, lt_nearestRank_iff_midpoint hden, midpoint_largest, not_or, not_lt, not_and,
    lt_iff_le_and_ne]
  apply and_congr_right'
  constructor
  · exact fun hodd heq => hodd heq.symm (by decide)
  · exact fun hne heq => absurd heq.symm hne

theorem correctlyRounds_ofRank (hden : 0 < den) :
    CorrectlyRounds (num / den) (.ofRank false (nearestRank num den)) := by
  have hq : (0 : ℚ) ≤ num / den := div_nonneg (Nat.cast_nonneg _) (Nat.cast_nonneg _)
  have hsign : false = true ↔ (num / den : ℚ) < 0 := by simpa using hq
  by_cases hfinite : nearestRank num den < 2047 * Nat.pow 2 52
  · have hbound := (nearestRank_lt_iff hden).mp hfinite
    rw [Binary64.ofRank_of_lt hfinite]
    exact .finite (by rwa [abs_of_nonneg hq]) hsign rfl (isNearest_magnitude hden hfinite)
  · have hbound := (nearestRank_lt_iff hden).not.mp hfinite
    rw [Binary64.ofRank_of_le (Nat.le_of_not_lt hfinite)]
    exact .infinite (by rwa [abs_of_nonneg hq, ← not_lt]) hsign

end

/-- A decimal is correctly rounded by its exact value. -/
theorem Decimal.correctlyRounds_toBinary64 (d : Decimal) :
    CorrectlyRounds d.value d.toBinary64 := by
  rw [toBinary64_eq, value_eq]
  exact correctlyRounds_ofRank d.denominator_pos

end LoxReader.Number
