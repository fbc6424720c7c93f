import LoxReader.Lexeme

/-! # Gaps

A gap is a run of blanks and comments, where a comment reaches up to the end of its line. The
gap that is split off a text is the longest one, and there is only one such gap. -/

namespace LoxReader

open Text

/-- Blanks and comments in front of `rest`. A comment runs from two slashes up to a newline, which
does not belong to it, or up to the end. -/
inductive IsGap (rest : List Char) : List Char → Prop where
  | nil : IsGap rest []
  | blank {c gap} : isBlank c = true → IsGap rest gap → IsGap rest (c :: gap)
  | comment {body gap} : '\n' ∉ body → (∀ c ∈ (gap ++ rest).head?, c = '\n') →
      IsGap rest gap → IsGap rest ('/' :: '/' :: (body ++ gap))

/-- A gap that takes in as much as possible of a text. -/
structure IsLongestGap (gap rest : List Char) : Prop where
  isGap : IsGap rest gap
  longest : ∀ more rest', rest = more ++ rest' → IsGap rest' (gap ++ more) → more = []

theorem isBlank_newline : isBlank '\n' = true := by
  decide

/-- No gap starts at a character that is neither blank nor the first one of a comment. -/
theorem splitGap_cons_iff {c : Char} {rest : List Char} :
    splitGap false (c :: rest) = ([], c :: rest) ↔
      isBlank c = false ∧ ¬ (c = '/' ∧ rest.head? = some '/') := by
  rw [splitGap]
  simp only [Bool.false_eq_true, if_false]
  by_cases hblank : isBlank c = true
  · simp [hblank]
  · by_cases hcomment : c = '/' ∧ rest.head? = some '/'
    · rw [if_neg hblank, if_pos hcomment]
      simp [hcomment]
    · rw [if_neg hblank, if_neg hcomment]
      simpa [hblank] using hcomment

theorem splitGap_append_eq (inComment : Bool) (s : List Char) :
    (splitGap inComment s).1 ++ (splitGap inComment s).2 = s := by
  induction s generalizing inComment with
  | nil => rfl
  | cons c s ih =>
    simp only [splitGap]
    split
    · exact congrArg (c :: ·) (ih _)
    · split
      · exact congrArg (c :: ·) (ih _)
      · split
        · exact congrArg (c :: ·) (ih _)
        · rfl

/-- A comment ends in front of a newline, where the gap goes on as outside of a comment. -/
theorem splitGap_comment {body s : List Char} (hbody : '\n' ∉ body)
    (hs : ∀ c ∈ s.head?, c = '\n') :
    splitGap true (body ++ s) = (body ++ (splitGap false s).1, (splitGap false s).2) := by
  induction body with
  | nil =>
    cases s with
    | nil => rfl
    | cons c s =>
      obtain rfl : c = '\n' := hs c rfl
      simp [splitGap, isBlank_newline]
  | cons c body ih =>
    simp only [List.mem_cons, not_or] at hbody
    have hc : (c != '\n') = true := by simpa using Ne.symm hbody.1
    simp [splitGap, hc, ih hbody.2]

theorem IsGap.append {gap gap' rest : List Char} (h : IsGap (gap' ++ rest) gap)
    (h' : IsGap rest gap') : IsGap rest (gap ++ gap') := by
  induction h with
  | nil => exact h'
  | blank hc _ ih => exact .blank hc ih
  | comment hbody hend _ ih =>
    rw [List.cons_append, List.cons_append, List.append_assoc]
    refine .comment hbody ?_ ih
    rwa [List.append_assoc]

theorem IsGap.splitGap {gap rest : List Char} (h : IsGap rest gap) :
    splitGap false (gap ++ rest) =
      (gap ++ (LoxReader.splitGap false rest).1, (LoxReader.splitGap false rest).2) := by
  induction h with
  | nil => rfl
  | blank hc _ ih => simp [LoxReader.splitGap, hc, ih]
  | @comment body gap hbody hend _ ih =>
    have hslash : isBlank '/' = false := by decide
    have hcomment := splitGap_comment hbody hend
    rw [ih] at hcomment
    simp [LoxReader.splitGap, hslash, hcomment]

/-- What is split off is a gap; when it starts inside of a comment, the rest of that comment
comes first. -/
theorem isGap_splitGap (s : List Char) :
    IsGap (splitGap false s).2 (splitGap false s).1 ∧
      ∃ body gap, (splitGap true s).1 = body ++ gap ∧ '\n' ∉ body ∧
        (∀ c ∈ (gap ++ (splitGap true s).2).head?, c = '\n') ∧ IsGap (splitGap true s).2 gap := by
  induction s with
  | nil => exact ⟨.nil, [], [], rfl, by simp, by simp [splitGap], .nil⟩
  | cons c s ih =>
    obtain ⟨houtside, body, gap, hinside, hbody, hend, hgap⟩ := ih
    refine ⟨?_, ?_⟩
    · simp only [splitGap, Bool.false_eq_true, if_false]
      split
      · next hblank => exact .blank hblank houtside
      · split
        · next hcomment =>
          obtain ⟨rfl, hslash⟩ := hcomment
          have hsplit := splitGap_append_eq true s
          simp only [hinside] at hsplit ⊢
          -- The second slash is the first character of what the comment still holds.
          cases body with
          | nil =>
            rw [List.nil_append] at hsplit
            exact absurd (hend '/' (by rw [hsplit]; exact hslash)) (by decide)
          | cons d body =>
            rw [← hsplit] at hslash
            obtain rfl : d = '/' := Option.some.inj hslash
            rw [List.mem_cons, not_or] at hbody
            exact .comment hbody.2 hend hgap
        · exact .nil
    · simp only [splitGap, if_true]
      by_cases hc : c = '\n'
      · subst hc
        exact ⟨[], '\n' :: (splitGap false s).1, by simp, by simp, by simp,
          by simpa using .blank isBlank_newline houtside⟩
      · have hne : (c != '\n') = true := by simpa using hc
        simp only [hne]
        refine ⟨c :: body, gap, by rw [hinside, List.cons_append], ?_, hend, hgap⟩
        simpa [Ne.symm hc] using hbody

/-- The longest gap of a text is what is split off it. -/
theorem isLongestGap_iff {gap rest : List Char} :
    IsLongestGap gap rest ↔ splitGap false (gap ++ rest) = (gap, rest) := by
  constructor
  · intro h
    have hsplit := h.isGap.splitGap
    have hmore := h.longest (splitGap false rest).1 (splitGap false rest).2
      (splitGap_append_eq false rest).symm
    have hgap := (isGap_splitGap (gap ++ rest)).1
    rw [hsplit] at hgap
    have hnil := hmore hgap
    have hrest := splitGap_append_eq false rest
    rw [hnil, List.nil_append] at hrest
    rw [hsplit, hnil, hrest, List.append_nil]
  · intro h
    refine ⟨?_, ?_⟩
    · have hgap := (isGap_splitGap (gap ++ rest)).1
      rwa [h] at hgap
    · intro more rest' hrest hmore
      have hsplit := hmore.splitGap
      rw [List.append_assoc, ← hrest, h, List.append_assoc] at hsplit
      have hnil := List.self_eq_append_right.mp (congrArg Prod.fst hsplit)
      exact (List.append_eq_nil_iff.mp hnil).1

/-- A gap is the longest one when no gap starts behind it. -/
theorem isLongestGap_iff_splitGap {gap rest : List Char} :
    IsLongestGap gap rest ↔ IsGap rest gap ∧ splitGap false rest = ([], rest) := by
  constructor
  · intro h
    have hsplit := isLongestGap_iff.mp h
    rw [h.isGap.splitGap] at hsplit
    obtain ⟨hgap, hrest⟩ := Prod.mk.inj hsplit
    exact ⟨h.isGap, Prod.ext (List.append_right_eq_self.mp hgap) hrest⟩
  · rintro ⟨hgap, hrest⟩
    rw [isLongestGap_iff, hgap.splitGap, hrest, List.append_nil]

/-- A lexeme behind the longest gap does not start with a blank. -/
theorem IsLongestGap.isBlank_eq_false {gap rest : List Char} {c : Char}
    (h : IsLongestGap gap (c :: rest)) : isBlank c = false :=
  (splitGap_cons_iff.mp (isLongestGap_iff_splitGap.mp h).2).1

theorem IsLongestGap.unique {gap gap' rest rest' : List Char} (h : IsLongestGap gap rest)
    (h' : IsLongestGap gap' rest') (heq : gap ++ rest = gap' ++ rest') :
    gap = gap' ∧ rest = rest' := by
  rw [isLongestGap_iff] at h h'
  rw [heq, h'] at h
  exact Prod.mk.inj h.symm

end LoxReader
