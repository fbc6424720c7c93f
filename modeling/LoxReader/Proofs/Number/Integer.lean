import LoxReader.Proofs.Number.Nearest
import LoxReader.Proofs.Number.ShortText

/-! # Rounding integers

An integer of at most 53 significant bits is a value of the format, and from 2⁵² on every value is
whole. So integers are rounded to integers, and what is displayed are the digits of those. Rounding
keeps the order, and the numbers of two integers are equal only when they are the same number. -/

namespace LoxReader.Number

/-! ## Nearest values in order -/

theorem le_midpoint_of_abs_sub_le {q v w : ℚ} (hlt : v < w) (h : |q - v| ≤ |q - w|) :
    2 * q ≤ v + w := by
  have hsquare := sq_le_sq.mpr h
  nlinarith

/-- A larger rational does not have a smaller nearest value. -/
theorem IsNearest.mono {q q' v v' : ℚ} (h : IsNearest q v) (h' : IsNearest q' v')
    (hle : q ≤ q') : v ≤ v' := by
  rw [← not_lt]
  intro hlt
  have habove := le_midpoint_of_abs_sub_le hlt (h'.abs_sub_le v h.isFiniteValue)
  have hbelow := le_midpoint_of_abs_sub_le (neg_lt_neg hlt)
    (h.neg.abs_sub_le (-v') h'.isFiniteValue.neg)
  -- Both are the midpoint of the two values, where the nearest value is one of them.
  have heq : q = q' := by linarith
  rw [heq] at h
  exact hlt.ne (h'.unique h)

theorem CorrectlyRounds.neg {q : ℚ} {rank : Fin (2047 * Nat.pow 2 52)} (hq : 0 < q)
    (h : CorrectlyRounds q (.finite false rank)) : CorrectlyRounds (-q) (.finite true rank) := by
  cases h with
  | finite hbound hsign hvalue hnear =>
    obtain rfl := Option.some.inj hvalue
    exact .finite (by rwa [abs_neg]) (by simpa using hq) rfl hnear.neg

/-! ## Whole numbers -/

/-- A natural of 53 significant bits is a magnitude. -/
theorem unitsOfRank_nearestRank {m e : Nat} (hm : m < 2 ^ 53) :
    unitsOfRank (nearestRank (m * 2 ^ e) 1) = m * 2 ^ e * unitsPerOne := by
  obtain ⟨r, -, hunits⟩ := exists_unitsOfRank_eq hm (1074 + e)
  rw [two_pow_add, ← Nat.mul_assoc] at hunits
  rw [nearestRank_of_units Nat.one_pos (by rw [hunits, Nat.mul_one]), hunits]

theorem unitsOfRank_nearestRank_eq_iff {n : Nat} :
    unitsOfRank (nearestRank n 1) = n * unitsPerOne ↔ ∃ m e : Nat, m < 2 ^ 53 ∧ n = m * 2 ^ e := by
  constructor
  · intro hexact
    obtain ⟨k, m, hrank, hm, hk⟩ := exists_binade (nearestRank n 1)
    rw [hrank, unitsOfRank_binade hm.le hk] at hexact
    rcases Nat.le_total 1074 k with hle | hle
    · obtain ⟨e, rfl⟩ := Nat.exists_eq_add_of_le hle
      rw [two_pow_add, ← Nat.mul_assoc] at hexact
      exact ⟨m, e, hm, (Nat.eq_of_mul_eq_mul_right unitsPerOne_pos hexact).symm⟩
    · -- The significand has bits below one, so it is not less than the integer.
      have hone : 2 ^ k ≤ unitsPerOne := by
        unfold unitsPerOne
        generalize 1074 = j at hle ⊢
        exact Nat.pow_le_pow_right Nat.two_pos hle
      have hle : n * unitsPerOne ≤ m * unitsPerOne := by
        rw [← hexact]
        exact Nat.mul_le_mul_left m hone
      have hn := Nat.le_of_mul_le_mul_right hle unitsPerOne_pos
      exact ⟨n, 0, by omega, by rw [pow_zero, Nat.mul_one]⟩
  · rintro ⟨m, e, hm, rfl⟩
    exact unitsOfRank_nearestRank hm

namespace Binary64

/-- A natural is rounded to a whole number: it is one itself, or so large that every magnitude
is. -/
theorem exists_natMagnitude?_nearestRank (n : Nat) :
    ∃ k, natMagnitude? (nearestRank n 1) = some k := by
  by_cases hn : n < 2 ^ 53
  · refine ⟨n, natMagnitude?_eq_some_iff.mpr ?_⟩
    exact unitsOfRank_nearestRank_eq_iff.mpr ⟨n, 0, hn, by rw [pow_zero, Nat.mul_one]⟩
  · apply exists_natMagnitude?
    have hlarge : 1075 * Nat.pow 2 52 ≤ nearestRank (2 ^ 53) 1 := by decide +kernel
    exact hlarge.trans (nearestRank_mono Nat.one_pos Nat.one_pos (by omega))

/-- The value of a number with a whole magnitude. -/
theorem value?_of_natMagnitude? (negative : Bool) {rank : Fin (2047 * Nat.pow 2 52)} {k : Nat}
    (h : natMagnitude? rank = some k) :
    (finite negative rank).value? = some ((if negative then -(k : Int) else k : Int) : ℚ) := by
  have hmagnitude : (unitsOfRank rank / unitsPerOne : ℚ) = k := by
    rw [natMagnitude?_eq_some_iff.mp h, Nat.cast_mul,
      mul_div_cancel_right₀ _ cast_unitsPerOne_pos.ne']
  rw [value?, hmagnitude]
  cases negative with
  | false => rw [if_neg Bool.false_ne_true, if_neg Bool.false_ne_true, Int.cast_natCast]
  | true => rw [if_pos rfl, if_pos rfl, Int.cast_neg, Int.cast_natCast]

/-- A number with a whole magnitude is displayed by the digits of its value. -/
theorem ofList_display_of_natMagnitude? (negative : Bool) {rank : Fin (2047 * Nat.pow 2 52)}
    {k : Nat} (h : natMagnitude? rank = some k) :
    String.ofList (finite negative rank).display =
      toString (if negative then -(k : Int) else k) := by
  have hsign : (negative && k != 0) = decide ((if negative then -(k : Int) else k) < 0) := by
    cases negative with
    | false => simp
    | true =>
      rw [Bool.eq_iff_iff]
      simp [Nat.pos_iff_ne_zero]
  have habs : (if negative then -(k : Int) else k).natAbs = k := by
    cases negative <;> simp
  rw [← String.toList_inj, String.toList_ofList, toList_toString, habs, ← hsign]
  simp only [display, h]

/-! ## Integers -/

theorem cast_natAbs_div_one (n : Int) : ((n.natAbs : Nat) / (1 : Nat) : ℚ) = |(n : ℚ)| := by
  rw [Nat.cast_one, div_one, Nat.cast_natAbs, Int.cast_abs]

theorem nearestRank_natAbs_lt_iff (n : Int) :
    nearestRank n.natAbs 1 < 2047 * 2 ^ 52 ↔ |(n : ℚ)| < overflowBound := by
  rw [nearestRank_lt_iff Nat.one_pos, cast_natAbs_div_one]

theorem ofInt?_eq_none_iff {n : Int} : ofInt? n = none ↔ overflowBound ≤ |(n : ℚ)| := by
  rw [← not_lt, ← nearestRank_natAbs_lt_iff, ofInt?]
  split
  · next h => exact iff_of_false (by simp) (by simpa using h)
  · next h => exact iff_of_true rfl h

/-- The number of an integer has its sign and the rank nearest to its magnitude. -/
theorem ofInt?_eq_some {n : Int} {x : Binary64} (h : ofInt? n = some x) :
    ∃ rank : Fin (2047 * Nat.pow 2 52),
      x = .finite (decide (n < 0)) rank ∧ rank.val = nearestRank n.natAbs 1 := by
  rw [ofInt?] at h
  split at h
  · exact ⟨_, (Option.some.inj h).symm, rfl⟩
  · cases h

theorem correctlyRounds_of_ofInt? {n : Int} {x : Binary64} (h : ofInt? n = some x) :
    CorrectlyRounds n x := by
  obtain ⟨rank, rfl, hrank⟩ := ofInt?_eq_some h
  have hround := @correctlyRounds_ofRank n.natAbs 1 Nat.one_pos
  rw [← hrank, ofRank_of_lt rank.isLt, cast_natAbs_div_one] at hround
  by_cases hneg : n < 0
  · have hcast : (n : ℚ) < 0 := by exact_mod_cast hneg
    rw [abs_of_neg hcast] at hround
    rw [decide_eq_true hneg, ← neg_neg (n : ℚ)]
    exact hround.neg (by linarith)
  · have hcast : (0 : ℚ) ≤ n := by exact_mod_cast not_lt.mp hneg
    rw [abs_of_nonneg hcast] at hround
    rw [decide_eq_false hneg]
    exact hround

theorem exists_isNearest_of_ofInt? {n : Int} {x : Binary64} (h : ofInt? n = some x) :
    ∃ v, x.value? = some v ∧ IsNearest n v := by
  have hround := correctlyRounds_of_ofInt? h
  obtain ⟨rank, rfl, -⟩ := ofInt?_eq_some h
  cases hround with
  | finite hbound hsign hvalue hnear => exact ⟨_, hvalue, hnear⟩

/-- The number of an integer is whole, and it is displayed by the digits of its value. -/
theorem exists_whole_of_ofInt? {n : Int} {x : Binary64} (h : ofInt? n = some x) :
    ∃ v : Int, x.value? = some (v : ℚ) ∧ String.ofList x.display = toString v ∧
      (v = n ↔ ∃ m e : Nat, m < 2 ^ 53 ∧ n.natAbs = m * 2 ^ e) := by
  obtain ⟨rank, rfl, hrank⟩ := ofInt?_eq_some h
  obtain ⟨k, hk⟩ := exists_natMagnitude?_nearestRank n.natAbs
  rw [← hrank] at hk
  have hexact : k = n.natAbs ↔ ∃ m e : Nat, m < 2 ^ 53 ∧ n.natAbs = m * 2 ^ e := by
    rw [← unitsOfRank_nearestRank_eq_iff, ← hrank, natMagnitude?_eq_some_iff.mp hk,
      Nat.mul_left_inj unitsPerOne_pos.ne']
  refine ⟨if n < 0 then -k else k, ?_, ?_, ?_⟩
  · simpa only [decide_eq_true_eq] using value?_of_natMagnitude? (decide (n < 0)) hk
  · simpa only [decide_eq_true_eq] using ofList_display_of_natMagnitude? (decide (n < 0)) hk
  · rw [← hexact]
    split <;> omega

/-- Only zero becomes zero. -/
theorem eq_zero_of_nearestRank_eq_zero {n : Nat} (h : nearestRank n 1 = 0) : n = 0 := by
  have hone : 0 < nearestRank 1 1 := by decide +kernel
  by_contra hne
  have hle : nearestRank 1 1 ≤ nearestRank n 1 :=
    nearestRank_mono Nat.one_pos Nat.one_pos (by omega)
  omega

/-- Numbers of integers are equal only when they are the same. -/
theorem equals_iff_of_ofInt? {n m : Int} {x y : Binary64} (hx : ofInt? n = some x)
    (hy : ofInt? m = some y) : x.equals y = true ↔ x = y := by
  obtain ⟨rank, rfl, hrank⟩ := ofInt?_eq_some hx
  obtain ⟨rank', rfl, hrank'⟩ := ofInt?_eq_some hy
  have hequals : (finite (decide (n < 0)) rank).equals (finite (decide (m < 0)) rank') =
      (finite (decide (n < 0)) rank).sameValue (finite (decide (m < 0)) rank') := rfl
  rw [hequals, sameValue_finite_iff]
  constructor
  · rintro ⟨rfl, hsign⟩
    have hsame : decide (n < 0) = decide (m < 0) := by
      rcases hsign with hsign | hzero
      · exact hsign
      · have hn := eq_zero_of_nearestRank_eq_zero (hrank.symm.trans hzero)
        have hm := eq_zero_of_nearestRank_eq_zero (hrank'.symm.trans hzero)
        rw [decide_eq_decide]
        omega
    rw [hsame]
  · intro heq
    obtain ⟨hsign, rfl⟩ := finite.inj heq
    exact ⟨rfl, .inl hsign⟩

end Binary64

end LoxReader.Number
