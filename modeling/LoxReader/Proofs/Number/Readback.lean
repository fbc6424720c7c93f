import LoxReader.Proofs.Number.Layout
import Mathlib.Tactic.Linarith

/-! # Numbers that spell themselves

The display form of zero, or of a number of at least 10⁻⁴, has no exponent, so it is a numeral, and
the numeral is read as that number again. -/

namespace LoxReader.Number

/-! ## The leading digit -/

namespace Decimal

/-- The exponent of the leading digit. -/
def leading (d : Decimal) : Int :=
  d.exponent + (Nat.toDigits 10 d.coefficient).length - 1

theorem text_eq_positional {d : Decimal} (hlow : positionalFrom ≤ d.leading)
    (hhigh : d.leading < positionalBelow) : d.text = d.positional :=
  if_pos ⟨hlow, hhigh⟩

theorem value_lt (d : Decimal) : d.value < 10 ^ (d.leading + 1) := by
  have hcoefficient : d.coefficient < 10 ^ (Nat.toDigits 10 d.coefficient).length :=
    (Nat.length_toDigits_le_iff (by decide) Nat.length_toDigits_pos).mp le_rfl
  calc d.value < 10 ^ (Nat.toDigits 10 d.coefficient).length * 10 ^ d.exponent := by
        rw [value]
        gcongr
        exact_mod_cast hcoefficient
    _ = 10 ^ (d.leading + 1) := by
        rw [← zpow_natCast, ← zpow_add₀ (by norm_num), leading]
        congr 1
        omega

theorem le_value {d : Decimal} (h : d.coefficient ≠ 0) : 10 ^ d.leading ≤ d.value := by
  have hpos : 0 < (Nat.toDigits 10 d.coefficient).length := Nat.length_toDigits_pos
  have hcoefficient : 10 ^ ((Nat.toDigits 10 d.coefficient).length - 1) ≤ d.coefficient := by
    rw [← Nat.not_lt]
    intro hlt
    by_cases hone : (Nat.toDigits 10 d.coefficient).length = 1
    · rw [hone] at hlt
      omega
    · have hlength := (Nat.length_toDigits_le_iff (by decide) (by omega)).mpr hlt
      omega
  calc (10 : ℚ) ^ d.leading =
        10 ^ ((Nat.toDigits 10 d.coefficient).length - 1) * 10 ^ d.exponent := by
        rw [← zpow_natCast, ← zpow_add₀ (by norm_num), leading]
        congr 1
        omega
    _ ≤ d.value := by
        rw [value]
        gcongr
        exact_mod_cast hcoefficient

end Decimal

/-! ## Magnitudes that are shown without a power of ten -/

theorem rank_tenThousandth : shortest (Decimal.mk 1 (-4)).rank = ⟨1, -4⟩ := by
  decide +kernel

/-- From one ten-thousandth on, the leading digit is late enough for a point. A decimal below that
would have to be rounded up to it, but then the shortest one is that power of ten itself. -/
theorem positionalFrom_le_leading {r : Nat} (hr : r < 2047 * Nat.pow 2 52)
    (h : (Decimal.mk 1 (-4)).value ≤ unitsOfRank r / unitsPerOne) :
    positionalFrom ≤ (shortest r).leading := by
  rw [← Int.not_lt]
  intro hlt
  have hvalue : (shortest r).value ≤ (Decimal.mk 1 (-4)).value := by
    calc (shortest r).value ≤ 10 ^ ((shortest r).leading + 1) := (shortest r).value_lt.le
      _ ≤ 10 ^ (-4 : Int) := by
        apply zpow_le_zpow_right₀ (by norm_num)
        rw [positionalFrom] at hlt
        omega
      _ = (Decimal.mk 1 (-4)).value := by rw [Decimal.value, Nat.cast_one, one_mul]
  have hle := Decimal.rank_mono hvalue
  rw [rank_shortest hr] at hle
  have hrank : r = (Decimal.mk 1 (-4)).rank :=
    Nat.le_antisymm hle (Decimal.rank_le_of_value_le h)
  rw [hrank, rank_tenThousandth] at hlt
  exact absurd hlt (by decide)

namespace Binary64

/-- From 2⁵² on, every magnitude is a whole number. -/
theorem exists_natMagnitude? {r : Nat} (h : 1075 * Nat.pow 2 52 ≤ r) :
    ∃ n, natMagnitude? r = some n := by
  obtain ⟨k, n, rfl, hn, hk⟩ := exists_binade r
  have hexponent : 1074 ≤ k := by
    rw [Nat.pow_eq] at h
    omega
  obtain ⟨m, rfl⟩ := Nat.exists_eq_add_of_le hexponent
  refine ⟨n * 2 ^ m, natMagnitude?_eq_some_iff.mpr ?_⟩
  rw [unitsOfRank_binade hn.le hk, two_pow_add, Nat.mul_assoc]

/-- A magnitude that is not whole is below the numbers that are written with a power of ten. -/
theorem leading_lt_positionalBelow {r : Nat} (hr : r < 2047 * Nat.pow 2 52) (hne : r ≠ 0)
    (h : natMagnitude? r = none) : (shortest r).leading < positionalBelow := by
  rw [← Int.not_le]
  intro hle
  have hbound : 1075 * Nat.pow 2 52 ≤ (Decimal.mk 1 16).rank := by decide +kernel
  have hvalue : (Decimal.mk 1 16).value ≤ (shortest r).value := by
    calc (Decimal.mk 1 16).value = 10 ^ (16 : Int) := by
          rw [Decimal.value, Nat.cast_one, one_mul]
      _ ≤ 10 ^ (shortest r).leading := zpow_le_zpow_right₀ (by norm_num) hle
      _ ≤ (shortest r).value := Decimal.le_value (coefficient_shortest_ne_zero hr hne)
  have hrank := Decimal.rank_mono hvalue
  rw [rank_shortest hr] at hrank
  obtain ⟨n, hn⟩ := exists_natMagnitude? (hbound.trans hrank)
  rw [h] at hn
  cases hn

/-! ## Reading a number back -/

/-- The value of a finite number. -/
def value? : Binary64 → Option ℚ
  | .finite negative rank =>
    some (if negative then -(unitsOfRank rank / unitsPerOne) else unitsOfRank rank / unitsPerOne)
  | .infinite _ | .nan => none

/-- A number that is zero or not below one ten-thousandth. -/
def Spellable (x : Binary64) : Prop :=
  ∃ value, x.value? = some value ∧ (value = 0 ∨ 1 / 10000 ≤ value)

theorem spellable_zero (negative : Bool) : (finite negative ⟨0, by decide⟩).Spellable := by
  refine ⟨_, rfl, .inl ?_⟩
  rw [unitsOfRank_zero, Nat.cast_zero, zero_div, neg_zero, ite_self]

theorem spellable_of_le {rank : Fin (2047 * Nat.pow 2 52)}
    (h : unitsPerOne ≤ unitsOfRank rank * 10000) : (finite false rank).Spellable := by
  have hone : (0 : ℚ) < unitsPerOne := by exact_mod_cast unitsPerOne_pos
  refine ⟨unitsOfRank rank / unitsPerOne, rfl, .inr ?_⟩
  rw [div_le_div_iff₀ (by norm_num) hone, one_mul]
  exact_mod_cast h

theorem magnitude_pos {r : Nat} (h : r ≠ 0) : (0 : ℚ) < unitsOfRank r / unitsPerOne := by
  have hunits : 0 < unitsOfRank r := by
    rw [← unitsOfRank_zero]
    exact unitsOfRank_strictMono (Nat.pos_of_ne_zero h)
  exact div_pos (by exact_mod_cast hunits) (by exact_mod_cast unitsPerOne_pos)

/-- Such a number has no sign unless it is zero. -/
theorem Spellable.exists_rank {x : Binary64} (h : x.Spellable) :
    ∃ negative rank, x = .finite negative rank ∧ (rank.val = 0 ∨
      negative = false ∧ 1 / 10000 ≤ (unitsOfRank rank / unitsPerOne : ℚ)) := by
  obtain ⟨value, hvalue, hbound⟩ := h
  cases x with
  | infinite negative => cases hvalue
  | nan => cases hvalue
  | finite negative rank =>
    refine ⟨negative, rank, rfl, ?_⟩
    by_cases hzero : rank.val = 0
    · exact .inl hzero
    · have hpos := magnitude_pos hzero
      have hvalue := Option.some.inj hvalue
      generalize (unitsOfRank rank / unitsPerOne : ℚ) = magnitude at hpos hvalue ⊢
      cases negative with
      | true =>
        rw [if_pos rfl] at hvalue
        rcases hbound with hbound | hbound <;> linarith
      | false =>
        rw [if_neg Bool.false_ne_true] at hvalue
        rcases hbound with hbound | hbound
        · linarith
        · exact .inr ⟨rfl, hvalue ▸ hbound⟩

theorem toDecimal_whole (n : Nat) :
    (Numeral.mk (Nat.toDigits 10 n) none none).toDecimal = ⟨n, 0⟩ := by
  simp [Numeral.toDecimal, Nat.ofDigitChars_ten_toDigits]

theorem wellFormed_whole (n : Nat) : (Numeral.mk (Nat.toDigits 10 n) none none).WellFormed :=
  ⟨⟨Nat.toDigits_ne_nil, fun _ => isDigit_of_mem_toDigits⟩, by simp, by simp⟩

/-- The display form of a magnitude is a numeral that is rounded to it. -/
theorem exists_numeral_of_rank (rank : Fin (2047 * Nat.pow 2 52))
    (h : rank.val = 0 ∨ 1 / 10000 ≤ (unitsOfRank rank / unitsPerOne : ℚ)) :
    ∃ n : Numeral, n.WellFormed ∧ n.spelling = (finite false rank).unsignedDisplay ∧
      n.toDecimal.toBinary64 = finite false rank := by
  have hfinite : ofRank false rank.val = finite false rank := ofRank_of_lt rank.isLt
  cases hn : natMagnitude? rank.val with
  | some n =>
    refine ⟨⟨Nat.toDigits 10 n, none, none⟩, wellFormed_whole n, ?_, ?_⟩
    · simp [Numeral.spelling, unsignedDisplay, hn]
    · have hunits := natMagnitude?_eq_some_iff.mp hn
      have hrank : (Decimal.mk n 0).rank = rank.val := by
        apply Decimal.rank_of_units
        rw [hunits, Decimal.value, zpow_zero, mul_one]
        push_cast
        rfl
      rw [toDecimal_whole, Decimal.toBinary64_eq, hrank, hfinite]
  | none =>
    have hzero : rank.val ≠ 0 := by
      intro hzero
      rw [hzero, natMagnitude?_zero] at hn
      cases hn
    have hbound : (Decimal.mk 1 (-4)).value ≤ unitsOfRank rank / unitsPerOne := by
      have hvalue : (Decimal.mk 1 (-4)).value = 1 / 10000 := by norm_num [Decimal.value]
      rw [hvalue]
      exact h.resolve_left hzero
    have htext := Decimal.text_eq_positional (positionalFrom_le_leading rank.isLt hbound)
      (leading_lt_positionalBelow rank.isLt hzero hn)
    refine ⟨(shortest rank).numeral, Decimal.wellFormed_numeral _, ?_, ?_⟩
    · simp only [unsignedDisplay, hn, shown, if_neg hzero, Decimal.spelling_numeral, htext]
    · rw [Decimal.toBinary64_congr (Decimal.value_toDecimal_numeral _), toBinary64_shortest,
        hfinite]

/-- The display form of zero or of a number that is not too small is a numeral, and what it is
read as is equal to the number. -/
theorem Spellable.exists_numeral {x : Binary64} (h : x.Spellable) :
    ∃ n : Numeral, n.WellFormed ∧ n.spelling = x.display ∧
      x.equals n.toDecimal.toBinary64 = true := by
  obtain ⟨negative, rank, rfl, hrank⟩ := h.exists_rank
  obtain ⟨n, hn, hspelling, hread⟩ := exists_numeral_of_rank rank (hrank.imp_right And.right)
  have hminus : (finite negative rank).showsMinus = false := by
    rw [showsMinus]
    rcases hrank with hzero | ⟨rfl, -⟩
    · rw [hzero, bne_self_eq_false, Bool.and_false]
    · rfl
  refine ⟨n, hn, ?_, ?_⟩
  · rw [display_eq, hminus]
    exact hspelling
  · have hsame : (finite negative rank).sameValue (finite false rank) = true :=
      sameValue_finite_iff.mpr ⟨rfl, hrank.symm.imp_left And.left⟩
    rw [hread]
    exact hsame

/-- A number without a sign is read back as itself. -/
theorem Spellable.exists_numeral_of_ofRank {r : Nat} (h : (ofRank false r).Spellable) :
    ∃ n : Numeral, n.WellFormed ∧ n.spelling = (ofRank false r).display ∧
      n.toDecimal.toBinary64 = ofRank false r := by
  obtain ⟨negative, rank, heq, hrank⟩ := h.exists_rank
  by_cases hlt : r < 2047 * Nat.pow 2 52
  · rw [ofRank_of_lt hlt] at heq ⊢
    obtain ⟨rfl, rfl⟩ := finite.inj heq
    obtain ⟨n, hn, hspelling, hread⟩ :=
      exists_numeral_of_rank ⟨r, hlt⟩ (hrank.imp_right And.right)
    refine ⟨n, hn, ?_, hread⟩
    rw [display_eq]
    exact hspelling
  · rw [ofRank_of_le (Nat.le_of_not_lt hlt)] at heq
    cases heq

end Binary64

end LoxReader.Number
