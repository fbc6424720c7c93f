import LoxReader.Expr.Conversion
import LoxReader.Proofs.Number.Integer
import Mathlib

/-! # Number literals of integers

An integer becomes the number to which it is correctly rounded, unless that lies beyond the finite
ones, and the literal is displayed by the digits of what the integer became. -/

namespace LoxReader.Literal

open Number Binary64

/-- The conversion as a function: taken at one integer, the check would compute its rank. -/
theorem ofInt_eq : ofInt = fun n => (ofInt? n).elim (.error .overflow) (.ok ∘ .number) := by
  delta ofInt
  funext n
  generalize ofInt? n = converted
  cases converted <;> rfl

theorem ofInt_eq_ok_iff {n : Int} {x : Binary64} :
    ofInt n = .ok (.number x) ↔ ofInt? n = some x := by
  rw [ofInt_eq]
  beta_reduce
  generalize ofInt? n = converted
  cases converted <;> simp

theorem ofInt_eq_overflow_iff {n : Int} :
    ofInt n = .error .overflow ↔ overflowBound ≤ |(n : ℚ)| := by
  rw [← ofInt?_eq_none_iff, ofInt_eq]
  beta_reduce
  generalize ofInt? n = converted
  cases converted <;> simp

/-- An integer that is not too large becomes a number. -/
theorem exists_ofInt_eq_ok {n : Int} (h : |(n : ℚ)| < overflowBound) :
    ∃ x, ofInt n = .ok (.number x) := by
  have hsome : ofInt? n ≠ none := by
    rw [ne_eq, ofInt?_eq_none_iff, not_le]
    exact h
  obtain ⟨x, hx⟩ := Option.ne_none_iff_exists'.mp hsome
  exact ⟨x, ofInt_eq_ok_iff.mpr hx⟩

/-- A larger integer does not become a smaller number. -/
theorem value_le_of_ofInt {n m : Int} {x y : Binary64} (hle : n ≤ m)
    (hx : ofInt n = .ok (.number x)) (hy : ofInt m = .ok (.number y)) :
    ∃ v w, x.value? = some v ∧ y.value? = some w ∧ v ≤ w := by
  rw [ofInt_eq_ok_iff] at hx hy
  obtain ⟨v, hv, hnear⟩ := exists_isNearest_of_ofInt? hx
  obtain ⟨w, hw, hnear'⟩ := exists_isNearest_of_ofInt? hy
  exact ⟨v, w, hv, hw, hnear.mono hnear' (by exact_mod_cast hle)⟩

/-- Literals of integers are equal just when the integers are rounded to the same number. -/
theorem equals_iff_of_ofInt {n m : Int} {x y : Binary64} (hx : ofInt n = .ok (.number x))
    (hy : ofInt m = .ok (.number y)) : (number x).equals (number y) = true ↔
      ∃ z, CorrectlyRounds n z ∧ CorrectlyRounds m z := by
  rw [ofInt_eq_ok_iff] at hx hy
  have hround := correctlyRounds_of_ofInt? hx
  have hround' := correctlyRounds_of_ofInt? hy
  have hequals : (number x).equals (number y) = true ↔ x = y := equals_iff_of_ofInt? hx hy
  rw [hequals]
  constructor
  · rintro rfl
    exact ⟨x, hround, hround'⟩
  · rintro ⟨z, hz, hz'⟩
    rw [hround.unique hz, hround'.unique hz']

/-- The literal of an integer is displayed by the digits of its value, which are those of the
integer just when it has 53 significant bits at most. -/
theorem exists_display_of_ofInt {n : Int} {x : Binary64} (h : ofInt n = .ok (.number x)) :
    ∃ v : Int, x.value? = some (v : ℚ) ∧ (Literal.number x).display = toString v ∧
      ((Literal.number x).display = toString n ↔
        ∃ m e : Nat, m < 2 ^ 53 ∧ n.natAbs = m * 2 ^ e) := by
  rw [ofInt_eq_ok_iff] at h
  obtain ⟨v, hvalue, hdisplay, hexact⟩ := exists_whole_of_ofInt? h
  have hliteral : (Literal.number x).display = toString v := hdisplay
  refine ⟨v, hvalue, hliteral, ?_⟩
  rw [hliteral, ← hexact, Int.toString_eq_repr, Int.toString_eq_repr, Int.repr_inj]

/-- An integer becomes a literal by correct rounding, unless it is too large, and the literal
shows what it became. The literals of integers are ordered and equal as their roundings are. -/
theorem ofInt_rounds (n : Int) :
    ofBare (.integer n) = ofInt n ∧ numberOfBare (.integer n) = ofInt n ∧
      (ofInt n = .error .overflow ↔ overflowBound ≤ |(n : ℚ)|) ∧
      (|(n : ℚ)| < overflowBound → ∃ (x : Binary64) (v : Int), ofInt n = .ok (.number x) ∧
        CorrectlyRounds n x ∧ x.value? = some (v : ℚ) ∧ (Literal.number x).display = toString v ∧
        ((Literal.number x).display = toString n ↔
          ∃ m e : Nat, m < 2 ^ 53 ∧ n.natAbs = m * 2 ^ e)) ∧
      ∀ m x y, ofInt n = .ok (.number x) → ofInt m = .ok (.number y) →
        (n ≤ m → ∃ v w, x.value? = some v ∧ y.value? = some w ∧ v ≤ w) ∧
          ((Literal.number x).equals (.number y) = true ↔
            ∃ z, CorrectlyRounds n z ∧ CorrectlyRounds m z) := by
  refine ⟨rfl, rfl, ofInt_eq_overflow_iff, ?_, ?_⟩
  · intro hbound
    obtain ⟨x, hx⟩ := exists_ofInt_eq_ok hbound
    obtain ⟨v, hvalue, hdisplay, hexact⟩ := exists_display_of_ofInt hx
    have hround := correctlyRounds_of_ofInt? (ofInt_eq_ok_iff.mp hx)
    exact ⟨x, v, hx, hround, hvalue, hdisplay, hexact⟩
  · intro m x y hx hy
    exact ⟨fun hle => value_le_of_ofInt hle hx hy, equals_iff_of_ofInt hx hy⟩

example : (ofInt (2 ^ 53 + 1)).toOption.map display = some "9007199254740992" := by decide +kernel

end LoxReader.Literal
