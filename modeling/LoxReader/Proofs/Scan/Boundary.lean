import LoxReader.Proofs.Scan.Separate

/-! # What stands behind a lexeme

Where a gap and the lexeme behind it end depends only on the first character of what follows, and a
blank ends every lexeme. So what follows may be exchanged for something that starts with the same
character, with a blank, or not at all. -/

namespace LoxReader

open Text

/-- What may stand behind a lexeme instead of `rest`: it starts with the same character or with a
blank, or it is nothing. -/
def Fits (rest rest' : List Char) : Prop :=
  ∀ c ∈ rest'.head?, c ∈ rest.head? ∨ isBlank c = true

theorem fits_of_head?_eq {rest rest' : List Char} (h : rest'.head? = rest.head?) :
    Fits rest rest' :=
  fun _ hc => .inl (h ▸ hc)

theorem fits_of_isBlank {c : Char} (hc : isBlank c = true) (rest rest' : List Char) :
    Fits rest (c :: rest') := by
  intro d hd
  obtain rfl := Option.some.inj hd
  exact .inr hc

/-- A character that is not blank follows only if it followed before. -/
theorem Fits.head? {rest rest' : List Char} {c : Char} (h : Fits rest rest')
    (hc : isBlank c = false) (hhead : rest'.head? = some c) : rest.head? = some c := by
  rcases h c hhead with hrest | hblank
  · exact hrest
  · rw [hblank] at hc
    cases hc

/-- A run that ends in front of `rest` ends as well in front of what fits there. -/
theorem Fits.stops {rest rest' : List Char} (h : Fits rest rest') {continues : Char → Bool}
    (hblank : ∀ c, continues c = true → isBlank c = false)
    (hstop : ∀ c ∈ rest.head?, continues c = false) :
    ∀ c ∈ rest'.head?, continues c = false := by
  intro c hc
  rcases h c hc with hrest | hrest
  · exact hstop c hrest
  · rw [Bool.eq_false_iff]
    intro hcontinues
    rw [hblank c hcontinues] at hrest
    cases hrest

/-! ## One gap and one lexeme -/

/-- A gap in front of anything but a newline is a gap in front of everything, because no comment
ends there. -/
theorem IsGap.exchange {gap rest : List Char} {c : Char} (h : IsGap (c :: rest) gap)
    (hc : c ≠ '\n') (rest' : List Char) : IsGap rest' gap := by
  induction h with
  | nil => exact .nil
  | blank hblank _ ih => exact .blank hblank ih
  | @comment body gap hbody hend _ ih =>
    refine .comment hbody ?_ ih
    cases gap with
    | nil => exact absurd (hend c rfl) hc
    | cons d gap => exact hend

theorem ne_newline_of_isBlank_eq_false {c : Char} (h : isBlank c = false) : c ≠ '\n' := by
  rintro rfl
  rw [isBlank_newline] at h
  cases h

/-- A gap may be put in front of the longest one. -/
theorem IsLongestGap.prepend {front gap rest : List Char} (h : IsLongestGap gap rest)
    (hfront : IsGap (gap ++ rest) front) : IsLongestGap (front ++ gap) rest := by
  obtain ⟨hgap, hsplit⟩ := isLongestGap_iff_splitGap.mp h
  exact isLongestGap_iff_splitGap.mpr ⟨hfront.append hgap, hsplit⟩

namespace Lexeme

variable {l : Lexeme} {gap rest rest' : List Char}

/-- The gap in front of a lexeme is a gap in front of everything. -/
theorem IsLongest.isGap (hl : l.IsLongest rest) (h : IsLongestGap gap (l.text ++ rest))
    (rest' : List Char) : IsGap rest' gap := by
  obtain ⟨c, text, htext⟩ := List.exists_cons_of_ne_nil hl.text_ne_nil
  rw [htext] at h
  exact h.isGap.exchange (ne_newline_of_isBlank_eq_false h.isBlank_eq_false) rest'

theorem IsLongest.exchange_gap (hl : l.IsLongest rest) (h : IsLongestGap gap (l.text ++ rest))
    (hfits : Fits rest rest') : IsLongestGap gap (l.text ++ rest') := by
  refine isLongestGap_iff_splitGap.mpr ⟨hl.isGap h _, ?_⟩
  obtain ⟨c, text, htext⟩ := List.exists_cons_of_ne_nil hl.text_ne_nil
  rw [htext] at h ⊢
  obtain ⟨hblank, hcomment⟩ := splitGap_cons_iff.mp (isLongestGap_iff_splitGap.mp h).2
  refine splitGap_cons_iff.mpr ⟨hblank, ?_⟩
  rintro ⟨hslash, hnext⟩
  apply hcomment
  refine ⟨hslash, ?_⟩
  cases text with
  | nil => exact hfits.head? (by decide) hnext
  | cons d text => exact hnext

/-- An open string reaches up to the end of the text. -/
theorem IsLongest.rest_eq_nil {body : List Char} (hl : (Lexeme.openString body).IsLongest rest) :
    rest = [] := by
  cases hl with
  | openString _ hnil => exact hnil

/-- A lexeme stays the longest one when something that fits stands behind it. Only an open string
needs the end of the text. -/
theorem IsLongest.exchange (hl : l.IsLongest rest)
    (hopen : ∀ body, l = .openString body → rest' = []) (hfits : Fits rest rest') :
    l.IsLongest rest' := by
  cases hl with
  | single hmem => exact .single hmem
  | compound hmem => exact .compound hmem
  | alone hmem hhead => exact .alone hmem fun hequal => hhead (hfits.head? (by decide) hequal)
  | string hbody => exact .string hbody
  | openString hbody => exact .openString hbody (hopen _ rfl)
  | number hfirst hrun hhead =>
    exact .number hfirst hrun (hfits.stops (fun _ => isBlank_of_continuesNumber) hhead)
  | word hfirst hletters hhead =>
    exact .word hfirst hletters (hfits.stops (fun _ => isBlank_of_continuesWord) hhead)
  | stray hc => exact .stray hc

end Lexeme

/-! ## All that follows -/

/-- A gap in front of a source only moves its lexemes down. -/
theorem Dissects.prepend {s last front : List Char} {pieces : List (List Char × Lexeme)}
    (h : Dissects s pieces last) (hfront : IsGap s front) :
    ∃ pieces' last', Dissects (front ++ s) pieces' last' ∧
      ∀ line, placed line pieces' = placed (line + newlines front) pieces := by
  cases h with
  | stop hlast =>
    have hgap := hlast.prepend (by rwa [List.append_nil])
    exact ⟨[], front ++ s, .stop hgap, fun _ => rfl⟩
  | @piece gap l rest pieces last hgap hl hrest =>
    have hpiece := Dissects.piece (hgap.prepend hfront) hl hrest
    rw [List.append_assoc] at hpiece
    refine ⟨_, last, hpiece, fun line => ?_⟩
    have hline : line + newlines (front ++ gap) = line + newlines front + newlines gap := by
      rw [newlines_append]
      push_cast
      omega
    simp only [placed, hline]

end LoxReader
