import LoxReader.Proofs.Number.Nearest
import LoxReader.Proofs.Scan.NumberLexeme
import LoxReader.Proofs.Scan.Separate

/-! # Displayed numbers as sources

The display form of a number is a source. It is the number again when it needs no power of ten. A
power of ten below 10⁻⁴ has a sign that no numeral takes in, and infinity is displayed as a word. -/

namespace LoxReader

open Number Text

namespace Number

/-! ## Numbers below 10⁻⁴ -/

/-- The value nearest to 10⁻⁴. -/
def tenThousandth : ℚ :=
  magnitude (Decimal.mk 1 (-4)).rank

theorem rank_tenThousandth_lt : (Decimal.mk 1 (-4)).rank < 2047 * Nat.pow 2 52 := by
  decide +kernel

theorem isNearest_tenThousandth : IsNearest (1 / 10000) tenThousandth := by
  have hvalue : (Decimal.mk 1 (-4)).value = 1 / 10000 := by norm_num [Decimal.value]
  have hrank := rank_tenThousandth_lt
  rw [Decimal.rank] at hrank
  rw [← hvalue, Decimal.value_eq]
  exact isNearest_magnitude (Decimal.denominator_pos _) hrank

theorem le_magnitude {r : Nat} (h : unitsPerOne ≤ unitsOfRank r * 10000) :
    1 / 10000 ≤ magnitude r := by
  rw [magnitude, div_le_div_iff₀ (by norm_num) cast_unitsPerOne_pos, one_mul]
  exact_mod_cast h

theorem magnitude_lt_one_iff {r : Nat} : magnitude r < 1 ↔ unitsOfRank r < unitsPerOne := by
  rw [magnitude, div_lt_one cast_unitsPerOne_pos, Nat.cast_lt]

theorem le_tenThousandth : 1 / 10000 ≤ tenThousandth :=
  le_magnitude (by decide +kernel)

theorem tenThousandth_lt_one : tenThousandth < 1 :=
  magnitude_lt_one_iff.mpr (by decide +kernel)

/-- A decimal with a small leading digit is written with a negative power of ten. -/
theorem Decimal.text_eq_of_leading_lt {d : Decimal} (h : d.leading < positionalFrom) :
    ∃ digits, d.text = d.significand ++ 'e' :: '-' :: digits := by
  have htext : d.text = d.scientific := by
    apply if_neg
    rintro ⟨hle, -⟩
    exact absurd hle (Int.not_le.mpr h)
  have hneg : d.exponent + (Nat.toDigits 10 d.coefficient).length - 1 < 0 :=
    h.trans (by decide)
  rw [htext, scientific_eq, exponentPart, if_pos hneg]
  exact ⟨_, rfl⟩

theorem leading_lt_positionalFrom {r : Nat} (hr : r < (Decimal.mk 1 (-4)).rank) (hne : r ≠ 0) :
    (shortest r).leading < positionalFrom := by
  have hfinite := hr.trans rank_tenThousandth_lt
  rw [← Int.not_le]
  intro hle
  have hvalue : (Decimal.mk 1 (-4)).value ≤ (shortest r).value := by
    calc (Decimal.mk 1 (-4)).value = 10 ^ positionalFrom := by
          rw [Decimal.value, Nat.cast_one, one_mul, positionalFrom]
      _ ≤ 10 ^ (shortest r).leading := zpow_le_zpow_right₀ (by norm_num) hle
      _ ≤ (shortest r).value := Decimal.le_value (coefficient_shortest_ne_zero hfinite hne)
  have hrank := Decimal.rank_mono hvalue
  rw [rank_shortest hfinite] at hrank
  omega

theorem natMagnitude?_eq_none {r : Nat} (hne : r ≠ 0) (h : magnitude r < 1) :
    Binary64.natMagnitude? r = none := by
  rw [Option.eq_none_iff_forall_ne_some]
  intro n hn
  have hunits := Binary64.natMagnitude?_eq_some_iff.mp hn
  have hzero : n ≠ 0 := (Binary64.eq_zero_of_natMagnitude? hn).not.mpr hne
  have hlt := magnitude_lt_one_iff.mp h
  rw [hunits] at hlt
  exact absurd (Nat.le_mul_of_pos_left unitsPerOne (Nat.pos_of_ne_zero hzero)) (Nat.not_le.mpr hlt)

/-- A number between zero and 10⁻⁴ is displayed with a negative power of ten. -/
theorem display_of_lt_tenThousandth {rank : Fin (2047 * Nat.pow 2 52)} (hne : rank.val ≠ 0)
    (h : magnitude rank < tenThousandth) :
    ∃ (d : Decimal) (digits : List Char),
      (Binary64.finite false rank).display = d.significand ++ 'e' :: '-' :: digits := by
  have hrank : rank.val < (Decimal.mk 1 (-4)).rank := magnitude_strictMono.lt_iff_lt.mp h
  have hnone := natMagnitude?_eq_none hne (h.trans tenThousandth_lt_one)
  obtain ⟨digits, htext⟩ := Decimal.text_eq_of_leading_lt (leading_lt_positionalFrom hrank hne)
  refine ⟨shortest rank, digits, ?_⟩
  rw [← htext]
  simp only [Binary64.display, hnone, Binary64.shortText_finite, Binary64.shown, if_neg hne]
  rfl

/-- No numeral ends with a mark. -/
theorem Numeral.WellFormed.isMark_getLast? {n : Numeral} (hn : n.WellFormed) :
    ∀ c ∈ n.spelling.getLast?, isMark c = false := by
  have hdigit {c : Char} (h : c.isDigit = true) : isMark c = false := by
    rw [Bool.eq_false_iff]
    intro hmark
    rw [(isDigit_of_isMark hmark).1] at h
    cases h
  obtain ⟨⟨-, hwhole⟩, hfraction, hexponent⟩ := hn
  intro c hc
  rw [spelling_eq] at hc
  cases hpart : n.exponent with
  | some part =>
    obtain ⟨-, hne, hdigits⟩ := hexponent part hpart
    rw [hpart, exponentText, ← List.append_assoc, List.getLast?_append_of_ne_nil _ (by simp),
      ← List.singleton_append, List.getLast?_append_of_ne_nil _ hne] at hc
    exact hdigit (hdigits c (List.mem_of_getLast? hc))
  | none =>
    have hmem := List.mem_of_getLast? hc
    rw [hpart, exponentText, List.append_nil, List.mem_append] at hmem
    rcases hmem with hmem | hmem
    · exact hdigit (hwhole c hmem)
    · cases hdigits : n.fraction with
      | none =>
        rw [hdigits] at hmem
        cases hmem
      | some digits =>
        rw [hdigits] at hmem
        rcases List.mem_cons.mp hmem with rfl | hmem
        · decide
        · exact hdigit (hfraction digits hdigits c hmem)

end Number

/-! ## Sources of one lexeme -/

/-- A source that is one separate lexeme has its token. -/
theorem tokenize_of_separate {l : Lexeme} (hl : l.Separate) {t : Token}
    (ht : l.outcome 1 = .ok t) :
    tokenize (String.ofList l.text) = .ok [t, .endOn (1 + newlines l.text)] := by
  have hhead : ∀ c ∈ ([] : List Char).head?, c = ' ' := by simp
  have hpiece := Dissects.piece (isLongestGap_nil hl hhead) (hl [] hhead).1
    (.stop (isLongestGap_iff.mpr rfl))
  have hplaced : (placed 1 [([], l)]).map (fun p => p.2.outcome p.1) = [t].map .ok := by
    simp [placed, newlines, ht]
  rw [List.nil_append, List.append_nil] at hpiece
  rw [← String.toList_ofList (l := l.text)] at hpiece
  have htokens := tokenize_of_dissects hpiece hplaced
  rwa [String.toList_ofList] at htokens

/-- A source that starts with a malformed number has no tokens. -/
theorem tokenize_of_malformed {first : Char} {tail : List Char} (hfirst : first.isDigit = true)
    (h : ∀ n : Numeral, n.WellFormed → n.spelling ≠ first :: tail.takeWhile continuesNumber) :
    ∃ failure, tokenize (String.ofList (first :: tail)) = .error failure := by
  have hslash : first ≠ '/' := by
    rintro rfl
    cases hfirst
  have hgap : splitGap false (first :: tail) = ([], first :: tail) :=
    splitGap_cons_iff.mpr ⟨isBlank_of_isDigit hfirst, fun hcomment => hslash hcomment.1⟩
  have hrest : (Cursor.atStart (first :: tail)).skipGap.rest = first :: tail := by
    simp only [Cursor.skipGap, Cursor.atStart, hgap, Cursor.pass]
  have hstep := Cursor.step_of_isDigit hrest hfirst
  rw [(Lexeme.Yields.malformed h).outcome] at hstep
  have hrun := Cursor.run_of_step_some hstep
  have herrors : (scan (String.ofList (first :: tail)).toList).errors ≠ [] := by
    rw [String.toList_ofList, scan, hrun]
    simp
  exact ⟨_, dif_neg herrors⟩

/-! ## Displayed numbers -/

namespace Number.Binary64

variable {x : Binary64}

theorem newlines_display (x : Binary64) : newlines x.display = 0 := by
  rw [newlines, List.count_eq_zero]
  intro hmem
  exact absurd (isNumberChar_of_mem_display hmem) (by decide)

theorem tokenize_display_of_spellable (h : x.Spellable) :
    ∃ y, tokenize (String.ofList x.display) =
      .ok [⟨.number, 1, some (.number y)⟩, .endOn 1] ∧ x.equals y = true := by
  obtain ⟨n, hn, hspelling, hequals⟩ := h.exists_numeral
  have htokens := tokenize_of_separate (Lexeme.separate_numeral hn) (Lexeme.Yields.numeral hn).outcome
  have htext : (Lexeme.number n.spelling).text = x.display := hspelling
  rw [htext, newlines_display] at htokens
  exact ⟨_, htokens, hequals⟩

theorem tokenize_display_of_lt_tenThousandth {rank : Fin (2047 * Nat.pow 2 52)}
    (hne : rank.val ≠ 0) (h : magnitude rank < tenThousandth) :
    ∃ failure, tokenize (String.ofList (finite false rank).display) = .error failure := by
  obtain ⟨d, digits, hdisplay⟩ := display_of_lt_tenThousandth hne h
  obtain ⟨first, more, hsignificand, hfirst⟩ := d.exists_cons_significand
  have hstop : ∀ c ∈ ('-' :: digits).head?, continuesNumber c = false := by
    rintro c ⟨⟩
    decide
  have hmore : ∀ c ∈ more ++ ['e'], continuesNumber c = true := by
    rw [List.forall_mem_append, List.forall_mem_singleton]
    refine ⟨fun c hc => ?_, by decide⟩
    have hmem : c ∈ d.significand := by
      rw [hsignificand]
      exact List.mem_cons_of_mem first hc
    rcases Decimal.mem_significand hmem with hdigit | rfl
    · simp [continuesNumber, hdigit]
    · decide
  have hrun : (more ++ 'e' :: '-' :: digits).takeWhile continuesNumber = more ++ ['e'] := by
    rw [List.append_cons, takeWhile_append_of_stop hmore hstop]
  rw [hdisplay, hsignificand, List.cons_append]
  apply tokenize_of_malformed hfirst
  intro n hn hspelling
  rw [hrun, ← List.cons_append] at hspelling
  have hlast := hn.isMark_getLast? 'e' (by rw [hspelling, List.getLast?_concat]; rfl)
  exact absurd hlast (by decide)

/-- Infinity is displayed as a name. -/
theorem tokenize_display_infinite :
    tokenize (String.ofList (infinite false).display) =
      .ok [⟨.identifier, 1, some (.text "inf")⟩, .endOn 1] := by
  decide +kernel

theorem exists_rank_of_lt {v : ℚ} (hv : x.value? = some v) (hpos : 0 < v)
    (hlt : v < tenThousandth) :
    ∃ rank, x = finite false rank ∧ rank.val ≠ 0 ∧ magnitude rank < tenThousandth := by
  cases x with
  | infinite negative => cases hv
  | nan => cases hv
  | finite negative rank =>
    have hsign : 0 ≤ (unitsOfRank rank / unitsPerOne : ℚ) := magnitude_nonneg rank
    obtain rfl := Option.some.inj hv
    cases negative with
    | true =>
      rw [if_pos rfl] at hpos
      linarith
    | false =>
      rw [if_neg Bool.false_ne_true] at hpos hlt
      refine ⟨rank, rfl, ?_, hlt⟩
      intro hzero
      rw [hzero, unitsOfRank_zero, Nat.cast_zero, zero_div] at hpos
      exact lt_irrefl 0 hpos

/-- The display form of a number without a sign is scanned as one number token that is equal to it,
and as nothing else, exactly when the number is zero or at least the number nearest to 10⁻⁴. Between
these, scanning it fails, and for infinity it gives a name. -/
theorem tokenize_display_iff (hx : x = .infinite false ∨ ∃ v, x.value? = some v ∧ 0 ≤ v) :
    ((∃ y line last, tokenize (String.ofList x.display) =
          .ok [⟨.number, line, some (.number y)⟩, .endOn last] ∧ x.equals y = true) ↔
        ∃ v, x.value? = some v ∧ (v = 0 ∨ tenThousandth ≤ v)) ∧
      IsNearest (1 / 10000) tenThousandth ∧
      (∀ v, x.value? = some v → 0 < v → v < tenThousandth →
        ∃ failure, tokenize (String.ofList x.display) = .error failure) ∧
      (x = .infinite false → tokenize (String.ofList x.display) =
        .ok [⟨.identifier, 1, some (.text "inf")⟩, .endOn 1]) := by
  have hbetween : ∀ v, x.value? = some v → 0 < v → v < tenThousandth →
      ∃ failure, tokenize (String.ofList x.display) = .error failure := by
    intro v hv hpos hlt
    obtain ⟨rank, rfl, hne, hrank⟩ := exists_rank_of_lt hv hpos hlt
    exact tokenize_display_of_lt_tenThousandth hne hrank
  have hinfinite : x = .infinite false → tokenize (String.ofList x.display) =
      .ok [⟨.identifier, 1, some (.text "inf")⟩, .endOn 1] := by
    rintro rfl
    exact tokenize_display_infinite
  refine ⟨⟨?_, ?_⟩, isNearest_tenThousandth, hbetween, hinfinite⟩
  · rintro ⟨y, line, last, htokens, -⟩
    rcases hx with hx | ⟨v, hv, hnonneg⟩
    · rw [hinfinite hx] at htokens
      cases htokens
    · refine ⟨v, hv, ?_⟩
      by_contra hbound
      rw [not_or, not_le] at hbound
      obtain ⟨failure, hfailure⟩ :=
        hbetween v hv (lt_of_le_of_ne hnonneg (Ne.symm hbound.1)) hbound.2
      rw [hfailure] at htokens
      cases htokens
  · rintro ⟨v, hv, hbound⟩
    have hspellable : x.Spellable := ⟨v, hv, hbound.imp_right le_tenThousandth.trans⟩
    obtain ⟨y, htokens, hequals⟩ := tokenize_display_of_spellable hspellable
    exact ⟨y, 1, 1, htokens, hequals⟩

/-- The number nearest to 10⁻⁴ is a source again, and the one below it is none. -/
theorem tokenize_display_iff_tenThousandth :
    let rank : Fin (2047 * Nat.pow 2 52) := ⟨4547007122018943789, by decide⟩
    let below : Fin (2047 * Nat.pow 2 52) := ⟨4547007122018943788, by decide⟩
    (∃ y line last, tokenize "0.0001" = .ok [⟨.number, line, some (.number y)⟩, .endOn last] ∧
        (finite false rank).equals y = true) ∧
      ∃ failure, tokenize (String.ofList (finite false below).display) = .error failure := by
  intro rank below
  have hrank : (Decimal.mk 1 (-4)).rank = rank.val := by decide +kernel
  have hvalue (r : Fin (2047 * Nat.pow 2 52)) : (finite false r).value? = some (magnitude r) := rfl
  have hnonneg (r : Fin (2047 * Nat.pow 2 52)) : ∃ v, (finite false r).value? = some v ∧ 0 ≤ v :=
    ⟨magnitude r, hvalue r, magnitude_nonneg r⟩
  constructor
  · have hdisplay : String.ofList (finite false rank).display = "0.0001" := by decide +kernel
    have hbound : tenThousandth ≤ magnitude rank := by rw [tenThousandth, hrank]
    rw [← hdisplay]
    exact (tokenize_display_iff (.inr (hnonneg rank))).1.mpr ⟨_, hvalue rank, .inr hbound⟩
  · have hpos : 0 < magnitude below := magnitude_pos (by decide)
    have hlt : magnitude below < tenThousandth := by
      rw [tenThousandth, hrank]
      exact magnitude_strictMono (by decide)
    exact (tokenize_display_iff (.inr (hnonneg below))).2.2.1 _ (hvalue below) hpos hlt

end Number.Binary64

end LoxReader
