import LoxReader.Proofs.Scan.Boundary

/-! # Cleaned sources

A character that starts no lexeme and a malformed number are reported and passed over. Spaces in
their place change nothing else: no lexemes join or part, and the tokens, their lines and an open
string stay what they are. -/

namespace LoxReader

open Number Text

/-! ## Fragments -/

namespace LexicalError

/-- Whether an error is about a fragment of the source that is passed over. A string without a
closing quote is none: it reaches up to the end. -/
def isFragment : LexicalError → Bool
  | .unknownCharacter .. | .malformedNumber .. => true
  | .unterminatedString _ | .custom .. => false

def isOpenString : LexicalError → Bool
  | .unterminatedString _ => true
  | .unknownCharacter .. | .malformedNumber .. | .custom .. => false

end LexicalError

namespace Lexeme

/-- Whether a lexeme is a fragment that is reported and passed over. -/
def isFragment (l : Lexeme) : Bool :=
  match l.outcome 1 with
  | .error e => e.isFragment
  | .ok _ => false

/-- The text of a lexeme, with a space in place of every character of a fragment. -/
def cleanedText (l : Lexeme) : List Char :=
  if l.isFragment then List.replicate l.text.length ' ' else l.text

end Lexeme

/-- A source with a space in place of every character of its fragments. -/
def cleaned (source : List Char) : List Char :=
  match _ : (splitGap false source).2 with
  | [] => source
  | first :: rest =>
    (splitGap false source).1 ++
      ((Lexeme.split first rest).1.cleanedText ++ cleaned (Lexeme.split first rest).2)
termination_by source.length
decreasing_by
  have hgap := length_splitGap_snd false source
  have hsplit := Lexeme.length_split_snd first rest
  simp_all only [List.length_cons]
  omega

namespace Lexeme

variable {l : Lexeme} {gap rest : List Char}

theorem isFragment_word (letters : List Char) : (word letters).isFragment = false := by
  simp only [isFragment, outcome]
  cases TokenKind.keyword? (String.ofList letters) <;> rfl

/-- What a lexeme yields on any line: a fragment an error that says so, any other lexeme a token or
the error of an open string. -/
theorem outcome_cases (l : Lexeme) (line : Int) :
    (l.isFragment = true ∧ ∃ e, l.outcome line = .error e ∧ e.isOpenString = false) ∨
      (l.isFragment = false ∧ ∃ t, l.outcome line = .ok t) ∨
      (l.isFragment = false ∧ (∃ body, l = .openString body) ∧
        l.outcome line = .error (.unterminatedString line)) := by
  cases l with
  | symbol | string => exact .inr (.inl ⟨rfl, _, rfl⟩)
  | openString body => exact .inr (.inr ⟨rfl, ⟨body, rfl⟩, rfl⟩)
  | number run =>
    simp only [isFragment, outcome]
    cases Numeral.read? run with
    | none => exact .inl ⟨rfl, _, rfl, rfl⟩
    | some n => exact .inr (.inl ⟨rfl, _, rfl⟩)
  | word letters =>
    refine .inr (.inl ⟨isFragment_word letters, ?_⟩)
    simp only [outcome]
    cases TokenKind.keyword? (String.ofList letters) <;> exact ⟨_, rfl⟩
  | stray c => exact .inl ⟨rfl, _, rfl, rfl⟩

/-- A fragment holds no blanks. -/
theorem IsLongest.isBlank_of_isFragment (hl : l.IsLongest rest)
    (hgap : IsLongestGap gap (l.text ++ rest)) (h : l.isFragment = true) :
    ∀ c ∈ l.text, isBlank c = false := by
  cases hl with
  | number hfirst hrun =>
    rw [text, List.forall_mem_cons]
    exact ⟨isBlank_of_isDigit hfirst, fun c hc => isBlank_of_continuesNumber (hrun c hc)⟩
  | stray =>
    rw [text, List.forall_mem_singleton]
    exact hgap.isBlank_eq_false
  | single | compound | alone | string | openString => cases h
  | word =>
    rw [isFragment_word] at h
    cases h

end Lexeme

/-! ## Cleaning piece by piece -/

theorem cleaned_of_stop {last : List Char} (h : IsLongestGap last []) : cleaned last = last := by
  have hsplit := isLongestGap_iff.mp h
  rw [List.append_nil] at hsplit
  rw [cleaned]
  split
  · rfl
  · next heq =>
    rw [hsplit] at heq
    cases heq

theorem cleaned_of_piece {gap rest : List Char} {l : Lexeme}
    (hgap : IsLongestGap gap (l.text ++ rest)) (hl : l.IsLongest rest) :
    cleaned (gap ++ (l.text ++ rest)) = gap ++ (l.cleanedText ++ cleaned rest) := by
  obtain ⟨first, tail, htext, hfirst⟩ := hl.split
  have hsplit := isLongestGap_iff.mp hgap
  rw [cleaned]
  split
  · next heq =>
    rw [hsplit, htext] at heq
    cases heq
  · next first' tail' heq =>
    rw [hsplit, htext] at heq
    obtain ⟨rfl, rfl⟩ := List.cons.inj heq
    rw [hsplit, hfirst]

/-- A source is cleaned lexeme by lexeme, and its gaps stay. -/
theorem Dissects.cleaned_eq {s last : List Char} {pieces : List (List Char × Lexeme)}
    (h : Dissects s pieces last) :
    cleaned s = (pieces.flatMap fun p => p.1 ++ p.2.cleanedText) ++ last := by
  induction h with
  | stop hlast => exact cleaned_of_stop hlast
  | piece hgap hl _ ih =>
    rw [cleaned_of_piece hgap hl, ih, List.flatMap_cons, List.append_assoc, List.append_assoc]

/-- The character that cleaning puts in place of another one. -/
def Cleans (c d : Char) : Prop :=
  d = c ∨ isBlank c = false ∧ d = ' '

theorem cleans_self (s : List Char) : List.Forall₂ Cleans s s :=
  List.forall₂_same.mpr fun _ _ => .inl rfl

theorem cleans_replicate {s : List Char} (h : ∀ c ∈ s, isBlank c = false) :
    List.Forall₂ Cleans s (List.replicate s.length ' ') := by
  induction s with
  | nil => exact .nil
  | cons c s ih =>
    obtain ⟨hc, hs⟩ := List.forall_mem_cons.mp h
    exact .cons (.inr ⟨hc, rfl⟩) (ih hs)

/-- Cleaning keeps every character or replaces it by a space, and it keeps the blanks. -/
theorem Dissects.cleans {s last : List Char} {pieces : List (List Char × Lexeme)}
    (h : Dissects s pieces last) : List.Forall₂ Cleans s (cleaned s) := by
  induction h with
  | stop hlast =>
    rw [cleaned_of_stop hlast]
    exact cleans_self _
  | @piece gap l rest pieces last hgap hl _ ih =>
    have htext : List.Forall₂ Cleans l.text l.cleanedText := by
      rw [Lexeme.cleanedText]
      split
      · next hfragment => exact cleans_replicate (hl.isBlank_of_isFragment hgap hfragment)
      · exact cleans_self _
    rw [cleaned_of_piece hgap hl]
    exact List.rel_append (cleans_self gap) (List.rel_append htext ih)

theorem fits_of_cleans {s s' : List Char} (h : List.Forall₂ Cleans s s') : Fits s s' := by
  intro c hc
  cases h with
  | nil => cases hc
  | cons hclean _ =>
    obtain rfl := Option.some.inj hc
    rcases hclean with rfl | ⟨-, rfl⟩
    · exact .inl rfl
    · exact .inr (by decide)

theorem newlines_of_cleans {s s' : List Char} (h : List.Forall₂ Cleans s s') :
    newlines s' = newlines s := by
  induction h with
  | nil => rfl
  | @cons c d s s' hclean _ ih =>
    rcases hclean with rfl | ⟨hblank, rfl⟩
    · simp only [newlines, List.count_cons] at ih ⊢
      rw [ih]
    · have hc := ne_newline_of_isBlank_eq_false hblank
      simpa [newlines, List.count_cons, hc] using ih

/-! ## The scan of a cleaned source -/

theorem isGap_replicate (rest : List Char) (n : Nat) : IsGap rest (List.replicate n ' ') := by
  induction n with
  | zero => exact .nil
  | succ n ih => exact .blank (by decide) ih

theorem newlines_replicate (n : Nat) : newlines (List.replicate n ' ') = 0 := by
  simp [newlines, List.count_replicate]

/-- A cleaned source is taken apart as before, except that its fragments are parts of gaps. -/
theorem Dissects.exists_cleaned {s last : List Char} {pieces : List (List Char × Lexeme)}
    (h : Dissects s pieces last) :
    ∃ pieces' last', Dissects (cleaned s) pieces' last' ∧
      ∀ line, placed line pieces' = (placed line pieces).filter fun p => !p.2.isFragment := by
  induction h with
  | stop hlast =>
    rw [cleaned_of_stop hlast]
    exact ⟨[], _, .stop hlast, fun line => rfl⟩
  | @piece gap l rest pieces last hgap hl hrest ih =>
    obtain ⟨pieces', last', hpieces, hplaced⟩ := ih
    rw [cleaned_of_piece hgap hl]
    cases hfragment : l.isFragment with
    | true =>
      -- The spaces and the gap in front of them become the beginning of the next gap.
      have hfront : IsGap (cleaned rest) (gap ++ List.replicate l.text.length ' ') :=
        (hl.isGap hgap _).append (isGap_replicate _ _)
      obtain ⟨pieces'', last'', hpieces', hplaced'⟩ := hpieces.prepend hfront
      rw [List.append_assoc] at hpieces'
      refine ⟨pieces'', last'', by rwa [Lexeme.cleanedText, if_pos hfragment], fun line => ?_⟩
      have hlines : newlines l.text = 0 := by
        have hblank := hl.isBlank_of_isFragment hgap hfragment
        exact List.count_eq_zero.mpr fun hmem =>
          ne_newline_of_isBlank_eq_false (hblank _ hmem) rfl
      simp [hplaced', hplaced, placed, hfragment, newlines_append, newlines_replicate, hlines]
    | false =>
      have hfits : Fits rest (cleaned rest) := fits_of_cleans hrest.cleans
      have hopen : ∀ body, l = .openString body → cleaned rest = [] := by
        rintro body rfl
        obtain rfl := hl.rest_eq_nil
        exact List.forall₂_nil_left_iff.mp hrest.cleans
      rw [Lexeme.cleanedText, if_neg (by simp [hfragment])]
      refine ⟨(gap, l) :: pieces', last',
        .piece (hl.exchange_gap hgap hfits) (hl.exchange hopen hfits) hpieces, fun line => ?_⟩
      simp [placed, hplaced, hfragment]

/-- Without fragments, the same tokens are left and of the errors that of an open string. -/
theorem outcomes_filter (placed : List (Int × Lexeme)) :
    tokensOf ((placed.filter fun p => !p.2.isFragment).map fun p => p.2.outcome p.1) =
        tokensOf (placed.map fun p => p.2.outcome p.1) ∧
      errorsOf ((placed.filter fun p => !p.2.isFragment).map fun p => p.2.outcome p.1) =
        (errorsOf (placed.map fun p => p.2.outcome p.1)).filter (·.isOpenString) := by
  induction placed with
  | nil => exact ⟨rfl, rfl⟩
  | cons p placed ih =>
    rcases p.2.outcome_cases p.1 with ⟨hfragment, e, he, hopen⟩ | ⟨hfragment, t, ht⟩ |
      ⟨hfragment, -, herror⟩
    · simpa [hfragment, he, hopen] using ih
    · simpa [hfragment, ht] using ih
    · have hopen : (LexicalError.unterminatedString p.1).isOpenString = true := rfl
      simpa [hfragment, herror, hopen] using ih

/-- A string without a closing quote is the last lexeme of a source. -/
theorem Dissects.length_openString_le {s last : List Char} {pieces : List (List Char × Lexeme)}
    (h : Dissects s pieces last) (line : Int) :
    ((errorsOf ((placed line pieces).map fun p => p.2.outcome p.1)).filter
      (·.isOpenString)).length ≤ 1 := by
  induction h generalizing line with
  | stop => exact Nat.zero_le 1
  | @piece gap l rest pieces last hgap hl hrest ih =>
    have htail := ih (line + newlines gap + newlines l.text)
    rcases l.outcome_cases (line + newlines gap) with ⟨-, e, he, hopen⟩ | ⟨-, t, ht⟩ |
      ⟨-, ⟨body, rfl⟩, herror⟩
    · simpa [placed, he, hopen] using htail
    · simpa [placed, ht] using htail
    · obtain rfl := hl.rest_eq_nil
      obtain ⟨rfl, -⟩ := hrest.unique (.stop (isLongestGap_iff.mpr rfl)) rfl
      simp only [placed, List.map_cons, List.map_nil, herror]
      exact Nat.le_refl 1

/-- Spaces in place of the fragments of a source leave all its tokens, with their payloads and
lines, and no errors but that of an open string. So the tokens that come with a failure are those of
the cleaned source. -/
theorem scan_cleaned (source : List Char) :
    (∃ pieces last, Dissects source pieces last ∧
        cleaned source = (pieces.flatMap fun p => p.1 ++ p.2.cleanedText) ++ last) ∧
      (scan (cleaned source)).allTokens = (scan source).allTokens ∧
      (scan (cleaned source)).errors = (scan source).errors.filter (·.isOpenString) ∧
      (scan (cleaned source)).errors.length ≤ 1 ∧
      ∀ failure, tokenize (String.ofList source) = .error failure →
        failure.partialTokens = (scan (cleaned source)).allTokens := by
  obtain ⟨pieces, last, h⟩ := exists_dissects source
  obtain ⟨pieces', last', h', hplaced⟩ := h.exists_cleaned
  obtain ⟨htokens, herrors⟩ := outcomes_filter (placed 1 pieces)
  have hlines : newlines (cleaned source) = newlines source := newlines_of_cleans h.cleans
  have hall : (scan (cleaned source)).allTokens = (scan source).allTokens := by
    simp only [Scan.allTokens, scan_of_dissects h, scan_of_dissects h', hplaced, htokens, hlines]
  have hrest : (scan (cleaned source)).errors = (scan source).errors.filter (·.isOpenString) := by
    simp only [scan_of_dissects h, scan_of_dissects h', hplaced, herrors]
  refine ⟨⟨pieces, last, h, h.cleaned_eq⟩, hall, hrest, ?_, ?_⟩
  · rw [hrest, scan_of_dissects h]
    exact h.length_openString_le 1
  · intro failure hfailure
    simp only [tokenize, String.toList_ofList] at hfailure
    split at hfailure
    · cases hfailure
    · obtain rfl := Except.error.inj hfailure
      exact hall.symm

example : cleaned "/@/ 1.2.3 // #\n!#= 4x_".toList = "/ /       // #\n! =   _".toList := by
  decide +kernel

end LoxReader
