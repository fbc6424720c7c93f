import LoxReader.Number.Numeral
import Mathlib.Data.List.TakeWhile

/-! # Reading numerals

A text is read as a numeral exactly when it is the spelling of one. -/

namespace LoxReader

/-! ## Runs of characters -/

theorem takeWhile_append_of_stop {α : Type} {p : α → Bool} {run rest : List α}
    (hrun : ∀ c ∈ run, p c = true) (hrest : ∀ c ∈ rest.head?, p c = false) :
    (run ++ rest).takeWhile p = run := by
  rw [List.takeWhile_append_of_pos hrun]
  cases rest with
  | nil => simp
  | cons c rest => simp [hrest c rfl]

theorem dropWhile_append_of_stop {α : Type} {p : α → Bool} {run rest : List α}
    (hrun : ∀ c ∈ run, p c = true) (hrest : ∀ c ∈ rest.head?, p c = false) :
    (run ++ rest).dropWhile p = rest := by
  rw [List.dropWhile_append_of_pos hrun]
  cases rest with
  | nil => rfl
  | cons c rest => simp [hrest c rfl]

theorem head?_dropWhile_eq_false {α : Type} (p : α → Bool) (s : List α) :
    ∀ c ∈ (s.dropWhile p).head?, p c = false := by
  intro c hc
  have h := List.head?_dropWhile_not p s
  rwa [Option.mem_def.mp hc] at h

/-- What stands before a character that it does not hold is told from what follows. -/
theorem append_cons_inj {α : Type} {c : α} {s s' t t' : List α} (hs : c ∉ s) (hs' : c ∉ s')
    (h : s ++ c :: t = s' ++ c :: t') : s = s' ∧ t = t' := by
  induction s generalizing s' with
  | nil =>
    cases s' with
    | nil => exact ⟨rfl, (List.cons.inj h).2⟩
    | cons d s' => exact absurd (List.cons.inj h).1 (List.ne_of_not_mem_cons hs')
  | cons d s ih =>
    cases s' with
    | nil => exact absurd (List.cons.inj h).1.symm (List.ne_of_not_mem_cons hs)
    | cons d' s' =>
      obtain ⟨rfl, htail⟩ := List.cons.inj h
      obtain ⟨rfl, rfl⟩ :=
        ih (List.not_mem_of_not_mem_cons hs) (List.not_mem_of_not_mem_cons hs') htail
      exact ⟨rfl, rfl⟩

namespace Number.Numeral

/-! ## Exponents -/

/-- How an exponent part is written. -/
def exponentText : Option (Char × List Char) → List Char
  | some (mark, digits) => mark :: digits
  | none => []

/-- What an exponent part may be. -/
def ExponentWellFormed (part : Option (Char × List Char)) : Prop :=
  ∀ e ∈ part, isMark e.1 = true ∧ e.2 ≠ [] ∧ ∀ c ∈ e.2, c.isDigit = true

theorem isDigit_of_isMark {c : Char} (h : isMark c = true) : c.isDigit = false ∧ c ≠ '.' := by
  simp only [isMark, Bool.or_eq_true, decide_eq_true_eq] at h
  rcases h with rfl | rfl <;> decide

theorem ExponentWellFormed.head? {part : Option (Char × List Char)}
    (h : ExponentWellFormed part) :
    ∀ c ∈ (exponentText part).head?, c.isDigit = false ∧ c ≠ '.' := by
  intro c hc
  cases part with
  | none => cases hc
  | some e =>
    obtain rfl : e.1 = c := Option.some.inj hc
    exact isDigit_of_isMark (h e rfl).1

theorem readExponent?_eq_some_iff {s : List Char} {part : Option (Char × List Char)} :
    readExponent? s = some part ↔ ExponentWellFormed part ∧ exponentText part = s := by
  cases s with
  | nil =>
    cases part <;> simp [readExponent?, ExponentWellFormed, exponentText]
  | cons mark digits =>
    cases part with
    | none =>
      simp only [readExponent?, exponentText]
      split <;> simp
    | some e =>
      obtain ⟨mark', digits'⟩ := e
      simp only [readExponent?, ExponentWellFormed, exponentText, Option.mem_def,
        Option.some.injEq, forall_eq', List.cons.injEq]
      constructor
      · intro h
        split at h
        · next hcond =>
          simp only [Option.some.injEq, Prod.mk.injEq] at h
          obtain ⟨rfl, rfl⟩ := h
          simpa [and_assoc] using hcond
        · cases h
      · rintro ⟨⟨hmark, hne, hdigits⟩, rfl, rfl⟩
        rw [if_pos]
        simpa [and_assoc] using ⟨hmark, hne, hdigits⟩

/-! ## Numerals -/

/-- How a fraction is written. -/
def fractionText : Option (List Char) → List Char
  | some digits => '.' :: digits
  | none => []

theorem spelling_eq (n : Numeral) :
    n.spelling = n.whole ++ (fractionText n.fraction ++ exponentText n.exponent) := by
  rw [spelling, List.append_assoc]
  rfl

/-- A text is a numeral exactly when some well-formed numeral is written like it, and then it is
read as that one. -/
theorem read?_eq_some_iff {s : List Char} {n : Numeral} :
    read? s = some n ↔ n.WellFormed ∧ n.spelling = s := by
  constructor
  · intro h
    simp only [read?] at h
    split at h
    · cases h
    · next hempty =>
      have hne : s.takeWhile Char.isDigit ≠ [] := by simpa using hempty
      have hsplit : s.takeWhile Char.isDigit ++ s.dropWhile Char.isDigit = s :=
        List.takeWhile_append_dropWhile
      split at h
      · next rest hrest =>
        obtain ⟨part, hread, rfl⟩ := Option.map_eq_some_iff.mp h
        obtain ⟨hexponent, htext⟩ := readExponent?_eq_some_iff.mp hread
        refine ⟨⟨⟨hne, fun c => List.mem_takeWhile_imp⟩, ?_, hexponent⟩, ?_⟩
        · intro digits hdigits c hc
          obtain rfl := Option.some.inj hdigits
          exact List.mem_takeWhile_imp hc
        · rw [spelling_eq, fractionText, htext, List.cons_append,
            List.takeWhile_append_dropWhile, ← hrest, hsplit]
      · obtain ⟨part, hread, rfl⟩ := Option.map_eq_some_iff.mp h
        obtain ⟨hexponent, htext⟩ := readExponent?_eq_some_iff.mp hread
        refine ⟨⟨⟨hne, fun c => List.mem_takeWhile_imp⟩, by simp, hexponent⟩, ?_⟩
        rw [spelling_eq, fractionText, htext, List.nil_append, hsplit]
  · rintro ⟨⟨⟨hne, hwhole⟩, hfraction, hexponent⟩, rfl⟩
    have hexponent : ExponentWellFormed n.exponent := hexponent
    have hread := readExponent?_eq_some_iff.mpr ⟨hexponent, rfl⟩
    have hstop : ∀ c ∈ (exponentText n.exponent).head?, c.isDigit = false :=
      fun c hc => (hexponent.head? c hc).1
    have hempty : ¬ n.whole.isEmpty = true := by simpa using hne
    obtain ⟨whole, fraction, exponent⟩ := n
    rw [spelling_eq]
    cases fraction with
    | some digits =>
      have hpoint : ∀ c ∈ (fractionText (some digits) ++ exponentText exponent).head?,
          c.isDigit = false := by
        intro c hc
        obtain rfl : '.' = c := Option.some.inj hc
        decide
      have hdigits := hfraction digits rfl
      simp only [read?, takeWhile_append_of_stop hwhole hpoint,
        dropWhile_append_of_stop hwhole hpoint, if_neg hempty]
      simp only [fractionText, List.cons_append, takeWhile_append_of_stop hdigits hstop,
        dropWhile_append_of_stop hdigits hstop, hread, Option.map_some]
    | none =>
      simp only [read?, fractionText, List.nil_append, takeWhile_append_of_stop hwhole hstop,
        dropWhile_append_of_stop hwhole hstop, if_neg hempty]
      split
      · next rest hrest =>
        have hhead := hexponent.head? '.' (by simp [hrest])
        exact absurd rfl hhead.2
      · rw [hread, Option.map_some]

end Number.Numeral

end LoxReader
