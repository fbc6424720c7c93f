import LoxReader.Number.Shortest
import LoxReader.Proofs.Number.Decimal

/-! # Shortest decimals read back

Whatever grid the search ends on, the decimal it ends with is rounded to the magnitude it was
searched for. -/

namespace LoxReader.Number

namespace Binary64

theorem ofRank_injective {negative : Bool} {r r' : Nat} (hr : r < 2047 * Nat.pow 2 52)
    (h : ofRank negative r' = ofRank negative r) : r' = r := by
  rw [ofRank, ofRank, dif_pos hr] at h
  split at h
  · cases h
    rfl
  · cases h

end Binary64

/-- With the exponent of the least magnitude the value of a rank is a decimal. -/
theorem value_exact (units n : Nat) :
    (Decimal.mk (units * Nat.pow 5 n) (-(n : Int))).value * (Nat.pow 2 n : Nat) = units := by
  have hten : (10 : ℚ) = 5 * 2 := by norm_num
  rw [Decimal.value, hten, zpow_neg, zpow_natCast, mul_pow, Nat.pow_eq, Nat.pow_eq]
  push_cast
  field_simp

theorem rank_exact (r : Nat) :
    (Decimal.mk (unitsOfRank r * Nat.pow 5 1074) (-1074)).rank = r := by
  have hexponent : (-1074 : Int) = -((1074 : Nat) : Int) := rfl
  apply Decimal.rank_of_units
  rw [hexponent]
  unfold unitsPerOne
  generalize 1074 = n
  exact value_exact (unitsOfRank r) n

theorem roundsTo_of_onGrid? {rank : Nat} {exponent : Int} {d : Decimal}
    (h : onGrid? rank exponent = some d) : d.roundsTo rank = true := by
  simp only [onGrid?] at h
  split at h
  · cases h
  · next hlow _ =>
    obtain rfl := Option.some.inj h
    exact hlow
  · next _ hhigh =>
    obtain rfl := Option.some.inj h
    exact hhigh
  · next hlow hhigh =>
    split at h
    · obtain rfl := Option.some.inj h
      exact hlow
    · obtain rfl := Option.some.inj h
      exact hhigh

theorem toBinary64_shortestFrom (rank steps : Nat) :
    (shortestFrom rank steps).toBinary64 = .ofRank false rank := by
  induction steps with
  | zero => rw [shortestFrom, Decimal.toBinary64_eq, rank_exact]
  | succ steps ih =>
    rw [shortestFrom]
    split
    · next d hgrid => exact of_decide_eq_true (roundsTo_of_onGrid? hgrid)
    · exact ih

theorem toBinary64_shortest (rank : Nat) : (shortest rank).toBinary64 = .ofRank false rank :=
  toBinary64_shortestFrom rank _

theorem rank_shortest {r : Nat} (hr : r < 2047 * Nat.pow 2 52) : (shortest r).rank = r := by
  apply Binary64.ofRank_injective hr
  rw [← Decimal.toBinary64_eq, toBinary64_shortest]

theorem coefficient_shortest_ne_zero {r : Nat} (hr : r < 2047 * Nat.pow 2 52) (hne : r ≠ 0) :
    (shortest r).coefficient ≠ 0 := by
  intro hzero
  have hrank := Decimal.rank_of_coefficient_eq_zero hzero
  rw [rank_shortest hr] at hrank
  exact hne hrank

end LoxReader.Number
