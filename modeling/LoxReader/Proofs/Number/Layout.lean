import LoxReader.Number.Layout
import LoxReader.Proofs.Number.Shortest
import LoxReader.Proofs.Scan.Numeral

/-! # Numbers from their text

The text of a decimal determines its value, and the text of a number determines the number. -/

namespace LoxReader.Number

/-! ## Digits -/

theorem isDigit_of_mem_toDigits {n : Nat} {c : Char} (h : c ∈ Nat.toDigits 10 n) :
    c.isDigit = true :=
  Nat.isDigit_of_mem_toDigits (by decide) (by decide) h

theorem exists_cons_toDigits (n : Nat) :
    ∃ c digits, Nat.toDigits 10 n = c :: digits ∧ c.isDigit = true := by
  obtain ⟨c, digits, hdigits⟩ :=
    List.exists_cons_of_ne_nil (Nat.toDigits_ne_nil (n := n) (b := 10))
  refine ⟨c, digits, hdigits, isDigit_of_mem_toDigits (n := n) ?_⟩
  rw [hdigits]
  exact List.mem_cons_self

theorem toDigits_injective {m n : Nat} (h : Nat.toDigits 10 m = Nat.toDigits 10 n) : m = n := by
  rw [← Nat.ofDigitChars_ten_toDigits (n := m), h, Nat.ofDigitChars_ten_toDigits]

theorem ofDigitChars_zeros_append (k : Nat) (s : List Char) :
    Nat.ofDigitChars 10 (List.replicate k '0' ++ s) 0 = Nat.ofDigitChars 10 s 0 := by
  rw [Nat.ofDigitChars_append, Nat.ofDigitChars_replicate_zero, Nat.mul_zero]

/-- The characters that stand in the text of a number. -/
def isNumberChar (c : Char) : Bool :=
  c.isDigit || ['.', 'e', '+', '-', 'i', 'n', 'f', 'a'].contains c

theorem isNumberChar_of_isDigit {c : Char} (h : c.isDigit = true) : isNumberChar c = true := by
  rw [isNumberChar, h, Bool.true_or]

theorem isNumberChar_of_mem_toDigits {n : Nat} {c : Char} (h : c ∈ Nat.toDigits 10 n) :
    isNumberChar c = true :=
  isNumberChar_of_isDigit (isDigit_of_mem_toDigits h)

/-! ## Positional notation -/

namespace Decimal

theorem value_shift (c k : Nat) (e : Int) : (mk (c * 10 ^ k) (e - k)).value = (mk c e).value := by
  simp only [value]
  rw [zpow_sub₀ (by norm_num), zpow_natCast]
  push_cast
  field_simp

/-- The numeral that a decimal is written as without a power of ten. -/
def numeral (d : Decimal) : Numeral :=
  let digits := Nat.toDigits 10 d.coefficient
  let whole := d.exponent + digits.length
  if whole ≤ 0 then ⟨['0'], some (List.replicate (-whole).toNat '0' ++ digits), none⟩
  else if 0 ≤ d.exponent then ⟨digits ++ List.replicate d.exponent.toNat '0', some ['0'], none⟩
  else ⟨digits.take whole.toNat, some (digits.drop whole.toNat), none⟩

theorem spelling_numeral (d : Decimal) : d.numeral.spelling = d.positional := by
  simp only [numeral, positional]
  split
  · simp [Numeral.spelling]
  · split <;> simp [Numeral.spelling]

theorem wellFormed_numeral (d : Decimal) : d.numeral.WellFormed := by
  have hdigits : ∀ c ∈ Nat.toDigits 10 d.coefficient, c.isDigit = true :=
    fun c => isDigit_of_mem_toDigits
  have hlength : 0 < (Nat.toDigits 10 d.coefficient).length := Nat.length_toDigits_pos
  have hzeros (k : Nat) : ∀ c ∈ List.replicate k '0', c.isDigit = true := by
    intro c hc
    rw [List.eq_of_mem_replicate hc]
    decide
  have happend {s t : List Char} (hs : ∀ c ∈ s, c.isDigit = true) (ht : ∀ c ∈ t, c.isDigit = true) :
      ∀ c ∈ s ++ t, c.isDigit = true :=
    fun c hc => (List.mem_append.mp hc).elim (hs c) (ht c)
  simp only [numeral, Numeral.WellFormed]
  split
  · refine ⟨⟨by simp, by simp⟩, ?_, by simp⟩
    intro digits h
    obtain rfl := Option.some.inj h
    exact happend (hzeros _) hdigits
  · split
    · refine ⟨⟨?_, happend hdigits (hzeros _)⟩, ?_, by simp⟩
      · exact List.append_ne_nil_of_left_ne_nil (List.length_pos_iff.mp hlength) _
      · intro digits h
        obtain rfl := Option.some.inj h
        exact hzeros 1
    · refine ⟨⟨?_, fun c hc => hdigits c (List.mem_of_mem_take hc)⟩, ?_, by simp⟩
      · rw [← List.length_pos_iff, List.length_take]
        omega
      · intro digits h
        obtain rfl := Option.some.inj h
        exact fun c hc => hdigits c (List.mem_of_mem_drop hc)

theorem value_toDecimal_numeral (d : Decimal) : d.numeral.toDecimal.value = d.value := by
  have hdigits : Nat.ofDigitChars 10 (Nat.toDigits 10 d.coefficient) 0 = d.coefficient :=
    Nat.ofDigitChars_ten_toDigits
  have hlength : 0 < (Nat.toDigits 10 d.coefficient).length := Nat.length_toDigits_pos
  simp only [numeral]
  split
  · simp only [Numeral.toDecimal, Option.getD_some, List.length_append, List.length_replicate]
    have hvalue : Nat.ofDigitChars 10 (['0'] ++ (List.replicate
        (-(d.exponent + (Nat.toDigits 10 d.coefficient).length)).toNat '0' ++
          Nat.toDigits 10 d.coefficient)) 0 = d.coefficient := by
      rw [← List.append_assoc, ← List.replicate_one, List.replicate_append_replicate,
        ofDigitChars_zeros_append, hdigits]
    rw [hvalue]
    congr 2
    omega
  · split
    · next hexponent =>
      have hvalue : Nat.ofDigitChars 10 (Nat.toDigits 10 d.coefficient ++
          List.replicate d.exponent.toNat '0' ++ ['0']) 0 =
            d.coefficient * 10 ^ (d.exponent.toNat + 1) := by
        rw [List.append_assoc, ← List.replicate_succ', Nat.ofDigitChars_append, hdigits,
          Nat.ofDigitChars_replicate_zero, Nat.mul_comm]
      have hshift := value_shift d.coefficient (d.exponent.toNat + 1) d.exponent
      simp only [Numeral.toDecimal, Option.getD_some, List.length_singleton, hvalue]
      rw [← hshift]
      congr 2
      omega
    · simp only [Numeral.toDecimal, Option.getD_some, List.take_append_drop, hdigits,
        List.length_drop]
      congr 2
      omega

/-- Without a power of ten a text is digits, a point and digits. -/
theorem exists_positional (d : Decimal) :
    ∃ whole fraction, d.positional = whole ++ '.' :: fraction ∧ whole ≠ [] ∧
      (∀ c ∈ whole, c.isDigit = true) ∧ ∀ c ∈ fraction, c.isDigit = true := by
  obtain ⟨fraction, hn⟩ : ∃ fraction, d.numeral = ⟨d.numeral.whole, some fraction, none⟩ := by
    simp only [numeral]
    split
    · exact ⟨_, rfl⟩
    · split <;> exact ⟨_, rfl⟩
  obtain ⟨⟨hne, hwhole⟩, hfraction, -⟩ := d.wellFormed_numeral
  rw [hn] at hfraction
  refine ⟨_, fraction, ?_, hne, hwhole, hfraction fraction rfl⟩
  rw [← spelling_numeral, hn]
  simp [Numeral.spelling]

theorem mem_positional {d : Decimal} {c : Char} (h : c ∈ d.positional) :
    c.isDigit = true ∨ c = '.' := by
  obtain ⟨whole, fraction, heq, -, hwhole, hfraction⟩ := d.exists_positional
  rw [heq, List.mem_append, List.mem_cons] at h
  rcases h with h | h | h
  · exact .inl (hwhole c h)
  · exact .inr h
  · exact .inl (hfraction c h)

theorem value_eq_of_positional_eq {d d' : Decimal} (h : d.positional = d'.positional) :
    d.value = d'.value := by
  have hread := Numeral.read?_eq_some_iff.mpr ⟨d.wellFormed_numeral, d.spelling_numeral⟩
  have hread' := Numeral.read?_eq_some_iff.mpr ⟨d'.wellFormed_numeral, d'.spelling_numeral⟩
  rw [h] at hread
  have hnumeral := Option.some.inj (hread.symm.trans hread')
  rw [← value_toDecimal_numeral d, hnumeral, value_toDecimal_numeral]

/-! ## Scientific notation -/

theorem exponentPart_injective {e e' : Int} (h : exponentPart e = exponentPart e') : e = e' := by
  have hvalue (e : Int) : Nat.ofDigitChars 10 ((exponentPart e).drop 2) 0 = e.natAbs := by
    simp only [exponentPart, List.drop_succ_cons, List.drop_zero]
    rw [ofDigitChars_zeros_append, Nat.ofDigitChars_ten_toDigits]
  have habs : e.natAbs = e'.natAbs := by rw [← hvalue, h, hvalue]
  simp only [exponentPart, List.cons.injEq, true_and] at h
  obtain ⟨hsign, -⟩ := h
  split at hsign <;> split at hsign
  · omega
  · exact absurd hsign (by decide)
  · exact absurd hsign (by decide)
  · omega

/-- The digits of a decimal with a point behind the first one, if there are more. -/
def significand (d : Decimal) : List Char :=
  let digits := Nat.toDigits 10 d.coefficient
  digits.take 1 ++ (if digits.length = 1 then [] else ['.']) ++ digits.drop 1

theorem isNumberChar_of_mem_exponentPart {e : Int} {c : Char} (h : c ∈ exponentPart e) :
    isNumberChar c = true := by
  simp only [exponentPart, List.mem_cons, List.mem_append] at h
  rcases h with rfl | rfl | h | h
  · decide
  · split <;> decide
  · rw [List.eq_of_mem_replicate h]
    decide
  · exact isNumberChar_of_mem_toDigits h

theorem scientific_eq (d : Decimal) :
    d.scientific = d.significand ++
      exponentPart (d.exponent + (Nat.toDigits 10 d.coefficient).length - 1) := rfl

theorem mem_significand {d : Decimal} {c : Char} (h : c ∈ d.significand) :
    c.isDigit = true ∨ c = '.' := by
  simp only [significand, List.mem_append] at h
  rcases h with (h | h) | h
  · exact .inl (isDigit_of_mem_toDigits (List.mem_of_mem_take h))
  · split at h
    · cases h
    · exact .inr (List.mem_singleton.mp h)
  · exact .inl (isDigit_of_mem_toDigits (List.mem_of_mem_drop h))

theorem exists_cons_significand (d : Decimal) :
    ∃ c more, d.significand = c :: more ∧ c.isDigit = true := by
  obtain ⟨c, digits, hdigits, hc⟩ := exists_cons_toDigits d.coefficient
  refine ⟨c, (if (c :: digits).length = 1 then [] else ['.']) ++ digits, ?_, hc⟩
  rw [significand, hdigits]
  rfl

theorem filter_significand (d : Decimal) :
    d.significand.filter Char.isDigit = Nat.toDigits 10 d.coefficient := by
  have hdigits : ∀ c ∈ Nat.toDigits 10 d.coefficient, c.isDigit = true :=
    fun c => isDigit_of_mem_toDigits
  have hpoint : (if (Nat.toDigits 10 d.coefficient).length = 1 then [] else ['.']).filter
      Char.isDigit = [] := by
    split <;> decide
  rw [significand, List.filter_append, List.filter_append, hpoint, List.append_nil,
    ← List.filter_append, List.take_append_drop, List.filter_eq_self.mpr hdigits]

theorem mark_not_mem_significand (d : Decimal) : 'e' ∉ d.significand :=
  fun h => absurd (mem_significand h) (by decide)

theorem scientific_injective {d d' : Decimal} (h : d.scientific = d'.scientific) : d = d' := by
  rw [scientific_eq, scientific_eq] at h
  obtain ⟨hsignificand, hexponent⟩ :=
    append_cons_inj d.mark_not_mem_significand d'.mark_not_mem_significand h
  have hdigits : Nat.toDigits 10 d.coefficient = Nat.toDigits 10 d'.coefficient := by
    rw [← filter_significand, hsignificand, filter_significand]
  have hcoefficient := toDigits_injective hdigits
  have hexponent : d.exponent = d'.exponent := by
    have := exponentPart_injective (congrArg ('e' :: ·) hexponent)
    rw [hdigits] at this
    omega
  cases d
  cases d'
  simp only at hcoefficient hexponent
  rw [hcoefficient, hexponent]

/-! ## The text of a decimal -/

theorem text_eq (d : Decimal) : d.text = d.positional ∨ d.text = d.scientific := by
  simp only [text]
  split
  · exact .inl rfl
  · exact .inr rfl

theorem mark_not_mem_positional (d : Decimal) : 'e' ∉ d.positional :=
  fun h => absurd (mem_positional h) (by decide)

theorem mark_mem_scientific (d : Decimal) : 'e' ∈ d.scientific := by
  rw [scientific_eq]
  exact List.mem_append_right _ List.mem_cons_self

theorem isNumberChar_of_mem_text {d : Decimal} {c : Char} (h : c ∈ d.text) :
    isNumberChar c = true := by
  have hpoint {c : Char} (h : c.isDigit = true ∨ c = '.') : isNumberChar c = true := by
    rcases h with h | rfl
    · exact isNumberChar_of_isDigit h
    · decide
  rcases d.text_eq with ht | ht
  · exact hpoint (mem_positional (ht ▸ h))
  · rw [ht, scientific_eq, List.mem_append] at h
    rcases h with h | h
    · exact hpoint (mem_significand h)
    · exact isNumberChar_of_mem_exponentPart h

/-- The notation shows in the text, and each notation determines the value. -/
theorem value_eq_of_text_eq {d d' : Decimal} (h : d.text = d'.text) : d.value = d'.value := by
  rcases d.text_eq with ht | ht <;> rcases d'.text_eq with ht' | ht' <;> rw [ht, ht'] at h
  · exact value_eq_of_positional_eq h
  · exact absurd (h ▸ d'.mark_mem_scientific) d.mark_not_mem_positional
  · exact absurd (h ▸ d.mark_mem_scientific) d'.mark_not_mem_positional
  · rw [scientific_injective h]

/-- A text starts with a digit and holds a point or a mark. -/
theorem text_spec (d : Decimal) :
    (∃ c ∈ d.text.head?, c.isDigit = true) ∧ ('.' ∈ d.text ∨ 'e' ∈ d.text) := by
  rcases d.text_eq with ht | ht
  · obtain ⟨whole, fraction, heq, hne, hwhole, -⟩ := d.exists_positional
    obtain ⟨c, whole, rfl⟩ := List.exists_cons_of_ne_nil hne
    rw [ht, heq]
    exact ⟨⟨c, rfl, hwhole c List.mem_cons_self⟩, .inl (by simp)⟩
  · obtain ⟨c, more, hsignificand, hc⟩ := d.exists_cons_significand
    rw [ht, scientific_eq, hsignificand]
    exact ⟨⟨c, rfl, hc⟩, .inr (by simp [exponentPart])⟩

end Decimal

/-! ## The text of a number -/

namespace Binary64

/-- The decimal that the short form of a magnitude shows. -/
def shown (r : Nat) : Decimal :=
  if r = 0 then ⟨0, 0⟩ else shortest r

theorem toBinary64_shown (r : Nat) : (shown r).toBinary64 = ofRank false r := by
  rw [shown]
  split
  · next h => rw [h]; rfl
  · exact toBinary64_shortest r

theorem shortText_finite (negative : Bool) (rank : Fin (2047 * Nat.pow 2 52)) :
    (finite negative rank).shortText = signText negative ++ (shown rank).text := rfl

theorem eq_of_shown_text_eq {r r' : Fin (2047 * Nat.pow 2 52)}
    (h : (shown r).text = (shown r').text) : r = r' := by
  have hvalue := Decimal.toBinary64_congr (Decimal.value_eq_of_text_eq h)
  rw [toBinary64_shown, toBinary64_shown] at hvalue
  exact Fin.ext (ofRank_injective r'.isLt hvalue)

/-- A sign is told from what follows when that does not start with one. -/
theorem signText_append_inj {negative negative' : Bool} {s s' : List Char}
    (hs : s.head? ≠ some '-') (hs' : s'.head? ≠ some '-')
    (h : signText negative ++ s = signText negative' ++ s') : negative = negative' ∧ s = s' := by
  cases negative <;> cases negative'
  · exact ⟨rfl, h⟩
  · exact absurd (congrArg List.head? h) hs
  · exact absurd (congrArg List.head? h).symm hs'
  · exact ⟨rfl, (List.cons.inj h).2⟩

theorem natMagnitude?_eq_some_iff {r n : Nat} :
    natMagnitude? r = some n ↔ unitsOfRank r = n * unitsPerOne := by
  have hpos := unitsPerOne_pos
  have heq : natMagnitude? r =
      if unitsOfRank r % unitsPerOne = 0 then some (unitsOfRank r / unitsPerOne) else none := by
    unfold natMagnitude? unitsPerOne
    rfl
  rw [heq]
  generalize unitsPerOne = one at hpos
  constructor
  · intro h
    split at h
    · next hmod =>
      obtain rfl := Option.some.inj h
      exact (Nat.div_mul_cancel (Nat.dvd_of_mod_eq_zero hmod)).symm
    · cases h
  · intro h
    rw [h, Nat.mul_mod_left, if_pos rfl, Nat.mul_div_cancel _ hpos]

theorem natMagnitude?_zero : natMagnitude? 0 = some 0 :=
  natMagnitude?_eq_some_iff.mpr (by rw [unitsOfRank_zero, Nat.zero_mul])

theorem eq_zero_of_natMagnitude? {r n : Nat} (h : natMagnitude? r = some n) : n = 0 ↔ r = 0 := by
  rw [natMagnitude?_eq_some_iff] at h
  constructor
  · rintro rfl
    rw [Nat.zero_mul] at h
    exact unitsOfRank_strictMono.injective h
  · rintro rfl
    exact (Nat.mul_eq_zero.mp h.symm).resolve_right unitsPerOne_pos.ne'

/-- Whether the display form shows a minus sign. -/
def showsMinus : Binary64 → Bool
  | .finite negative rank => negative && rank.val != 0
  | .infinite negative => negative
  | .nan => false

/-- The display form without its sign. -/
def unsignedDisplay : Binary64 → List Char
  | .finite _ rank =>
    match natMagnitude? rank with
    | some n => Nat.toDigits 10 n
    | none => (shown rank).text
  | .infinite _ => ['i', 'n', 'f']
  | .nan => ['n', 'a', 'n']

theorem unsignedDisplay_infinite (negative : Bool) :
    (infinite negative).unsignedDisplay = ['i', 'n', 'f'] := rfl

theorem unsignedDisplay_nan : nan.unsignedDisplay = ['n', 'a', 'n'] := rfl

theorem display_eq (x : Binary64) : x.display = signText x.showsMinus ++ x.unsignedDisplay := by
  cases x with
  | finite negative rank =>
    cases h : natMagnitude? rank.val with
    | some n =>
      have hzero : (n != 0) = (rank.val != 0) := by
        rw [Bool.eq_iff_iff, bne_iff_ne, bne_iff_ne, Ne, eq_zero_of_natMagnitude? h]
      simp only [display, showsMinus, unsignedDisplay, h, hzero]
    | none =>
      have hne : (rank.val != 0) = true := by
        rw [bne_iff_ne]
        intro hzero
        rw [hzero, natMagnitude?_zero] at h
        cases h
      simp only [display, showsMinus, unsignedDisplay, h, shortText_finite, hne, Bool.and_true]
  | infinite negative => rfl
  | nan => rfl

theorem isNumberChar_of_mem_display {x : Binary64} {c : Char} (h : c ∈ x.display) :
    isNumberChar c = true := by
  rw [display_eq, List.mem_append] at h
  rcases h with h | h
  · rw [signText] at h
    split at h
    · obtain rfl := List.mem_singleton.mp h
      decide
    · cases h
  · cases x with
    | finite negative rank =>
      simp only [unsignedDisplay] at h
      split at h
      · exact isNumberChar_of_mem_toDigits h
      · exact Decimal.isNumberChar_of_mem_text h
    | infinite negative =>
      simp only [unsignedDisplay_infinite, List.mem_cons, List.not_mem_nil, or_false] at h
      rcases h with rfl | rfl | rfl <;> decide
    | nan =>
      simp only [unsignedDisplay_nan, List.mem_cons, List.not_mem_nil, or_false] at h
      rcases h with rfl | rfl | rfl <;> decide

/-- Finite numbers start with a digit. -/
theorem head?_unsignedDisplay_finite (negative : Bool) (rank : Fin (2047 * Nat.pow 2 52)) :
    ∃ c ∈ (finite negative rank).unsignedDisplay.head?, c.isDigit = true := by
  simp only [unsignedDisplay]
  split
  · next n _ =>
    obtain ⟨c, digits, hdigits, hc⟩ := exists_cons_toDigits n
    rw [hdigits]
    exact ⟨c, rfl, hc⟩
  · exact (Decimal.text_spec _).1

theorem unsignedDisplay_finite_ne (negative : Bool) (rank : Fin (2047 * Nat.pow 2 52)) {c : Char}
    {s : List Char} (hc : c.isDigit = false) : (finite negative rank).unsignedDisplay ≠ c :: s := by
  intro h
  obtain ⟨d, hd, hdigit⟩ := head?_unsignedDisplay_finite negative rank
  rw [h] at hd
  rw [← Option.some.inj hd, hc] at hdigit
  cases hdigit

theorem head?_unsignedDisplay_ne_minus (x : Binary64) : x.unsignedDisplay.head? ≠ some '-' := by
  intro h
  obtain ⟨s, hs⟩ := List.head?_eq_some_iff.mp h
  cases x with
  | finite negative rank => exact unsignedDisplay_finite_ne negative rank (by decide) hs
  | infinite negative =>
    rw [unsignedDisplay_infinite] at h
    exact absurd h (by decide)
  | nan =>
    rw [unsignedDisplay_nan] at h
    exact absurd h (by decide)

/-- Whole numbers are shown by digits only, other magnitudes with a point or a mark. -/
theorem rank_eq_of_unsignedDisplay_eq {negative negative' : Bool}
    {r r' : Fin (2047 * Nat.pow 2 52)}
    (h : (finite negative r).unsignedDisplay = (finite negative' r').unsignedDisplay) : r = r' := by
  have hnotDigits (n : Nat) (d : Decimal) : Nat.toDigits 10 n ≠ d.text := by
    intro heq
    have hdigit (c : Char) (hc : c ∈ d.text) : c.isDigit = true := by
      rw [← heq] at hc
      exact isDigit_of_mem_toDigits hc
    rcases d.text_spec.2 with hc | hc
    · exact absurd (hdigit _ hc) (by decide)
    · exact absurd (hdigit _ hc) (by decide)
  simp only [unsignedDisplay] at h
  split at h <;> split at h
  · next _ n hn _ n' hn' =>
    rw [natMagnitude?_eq_some_iff] at hn hn'
    rw [toDigits_injective h, ← hn'] at hn
    exact Fin.ext (unitsOfRank_strictMono.injective hn)
  · exact absurd h (hnotDigits _ _)
  · exact absurd h.symm (hnotDigits _ _)
  · exact eq_of_shown_text_eq h

theorem sameValue_finite_iff {s s' : Bool} {r r' : Fin (2047 * Nat.pow 2 52)} :
    (finite s r).sameValue (finite s' r') = true ↔ r = r' ∧ (s = s' ∨ r.val = 0) := by
  have heq : (finite s r).sameValue (finite s' r') =
      (decide (r = r') && (decide (s = s') || decide (r.val = 0))) := rfl
  rw [heq, Bool.and_eq_true, Bool.or_eq_true, decide_eq_true_iff, decide_eq_true_iff,
    decide_eq_true_iff]

theorem isNaN_ofRank (negative : Bool) (r : Nat) : (ofRank negative r).isNaN = false := by
  rcases Nat.lt_or_ge r (2047 * Nat.pow 2 52) with h | h
  · rw [ofRank_of_lt h]
    rfl
  · rw [ofRank_of_le h]
    rfl

/-- Numbers without a sign are equal only when they are the same. -/
theorem ofRank_eq_of_equals {r r' : Nat}
    (h : (ofRank false r).equals (ofRank false r') = true) : ofRank false r = ofRank false r' := by
  have hsame : (ofRank false r).sameValue (ofRank false r') = true :=
    (Bool.and_eq_true_iff.mp h).2
  rcases Nat.lt_or_ge r (2047 * Nat.pow 2 52) with hr | hr
  · rcases Nat.lt_or_ge r' (2047 * Nat.pow 2 52) with hr' | hr'
    · rw [ofRank_of_lt hr, ofRank_of_lt hr', sameValue_finite_iff] at hsame
      rw [ofRank_of_lt hr, ofRank_of_lt hr', hsame.1]
    · rw [ofRank_of_lt hr, ofRank_of_le hr'] at hsame
      cases hsame
  · rcases Nat.lt_or_ge r' (2047 * Nat.pow 2 52) with hr' | hr'
    · rw [ofRank_of_le hr, ofRank_of_lt hr'] at hsame
      cases hsame
    · rw [ofRank_of_le hr, ofRank_of_le hr']

/-- The display form determines the value of a number. -/
theorem sameValue_of_display_eq {x y : Binary64} (h : x.display = y.display) :
    x.sameValue y = true := by
  rw [display_eq, display_eq] at h
  obtain ⟨hsign, hbody⟩ := signText_append_inj (head?_unsignedDisplay_ne_minus x)
    (head?_unsignedDisplay_ne_minus y) h
  cases x with
  | finite s r =>
    cases y with
    | finite s' r' =>
      have hrank : r = r' := rank_eq_of_unsignedDisplay_eq hbody
      rw [sameValue_finite_iff]
      refine ⟨hrank, ?_⟩
      rcases Nat.eq_zero_or_pos r.val with hzero | hpos
      · exact .inr hzero
      · have hne : (r.val != 0) = true := bne_iff_ne.mpr hpos.ne'
        simp only [showsMinus, ← hrank, hne, Bool.and_true] at hsign
        exact .inl hsign
    | infinite s' =>
      rw [unsignedDisplay_infinite] at hbody
      exact absurd hbody (unsignedDisplay_finite_ne s r (by decide))
    | nan =>
      rw [unsignedDisplay_nan] at hbody
      exact absurd hbody (unsignedDisplay_finite_ne s r (by decide))
  | infinite s =>
    rw [unsignedDisplay_infinite] at hbody
    cases y with
    | finite s' r' => exact absurd hbody.symm (unsignedDisplay_finite_ne s' r' (by decide))
    | infinite s' => exact decide_eq_true hsign
    | nan =>
      rw [unsignedDisplay_nan] at hbody
      exact absurd hbody (by decide)
  | nan =>
    rw [unsignedDisplay_nan] at hbody
    cases y with
    | finite s' r' => exact absurd hbody.symm (unsignedDisplay_finite_ne s' r' (by decide))
    | infinite s' =>
      rw [unsignedDisplay_infinite] at hbody
      exact absurd hbody (by decide)
    | nan => rfl

end Binary64

end LoxReader.Number
