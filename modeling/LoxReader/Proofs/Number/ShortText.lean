import LoxReader.Proofs.Number.Layout

/-! # Short forms and integers

The text of an integer is its sign in front of its digits, and the short form of a number tells
which number it is. -/

namespace LoxReader.Number

/-! ## Integers -/

theorem toList_toString (n : Int) :
    (toString n).toList = Binary64.signText (decide (n < 0)) ++ Nat.toDigits 10 n.natAbs := by
  cases n with
  | ofNat n => exact Nat.toList_repr
  | negSucc n =>
    have htext : toString (Int.negSucc n) = "-" ++ (n + 1).repr := rfl
    rw [htext, String.toList_append, Nat.toList_repr, decide_eq_true (Int.negSucc_lt_zero n)]
    rfl

/-! ## Short forms -/

namespace Binary64

/-- Whether the short form shows a minus sign. -/
def shortSign : Binary64 → Bool
  | .finite negative _ | .infinite negative => negative
  | .nan => false

/-- The short form without its sign. -/
def unsignedShortText : Binary64 → List Char
  | .finite _ rank => (shown rank).text
  | .infinite _ => ['i', 'n', 'f']
  | .nan => ['n', 'a', 'n']

theorem shortText_eq (x : Binary64) :
    x.shortText = signText x.shortSign ++ x.unsignedShortText := by
  cases x <;> rfl

theorem shown_text_ne (r : Nat) {c : Char} {s : List Char} (hc : c.isDigit = false) :
    (shown r).text ≠ c :: s := by
  intro h
  obtain ⟨d, hd, hdigit⟩ := (shown r).text_spec.1
  rw [h] at hd
  rw [← Option.some.inj hd, hc] at hdigit
  cases hdigit

theorem head?_unsignedShortText_ne_minus (x : Binary64) :
    x.unsignedShortText.head? ≠ some '-' := by
  cases x with
  | finite negative rank =>
    intro h
    obtain ⟨s, hs⟩ := List.head?_eq_some_iff.mp h
    exact shown_text_ne rank (by decide) hs
  | infinite negative => simp [unsignedShortText]
  | nan => simp [unsignedShortText]

/-- The short form determines the number, with the sign of zero. -/
theorem shortText_injective {x y : Binary64} (h : x.shortText = y.shortText) : x = y := by
  rw [shortText_eq, shortText_eq] at h
  obtain ⟨hsign, hbody⟩ := signText_append_inj (head?_unsignedShortText_ne_minus x)
    (head?_unsignedShortText_ne_minus y) h
  cases x with
  | finite negative rank =>
    cases y with
    | finite negative' rank' => rw [show negative = negative' from hsign, eq_of_shown_text_eq hbody]
    | infinite negative' => exact absurd hbody (shown_text_ne rank (by decide))
    | nan => exact absurd hbody (shown_text_ne rank (by decide))
  | infinite negative =>
    cases y with
    | finite negative' rank' => exact absurd hbody.symm (shown_text_ne rank' (by decide))
    | infinite negative' => rw [show negative = negative' from hsign]
    | nan => simp [unsignedShortText] at hbody
  | nan =>
    cases y with
    | finite negative' rank' => exact absurd hbody.symm (shown_text_ne rank' (by decide))
    | infinite negative' => simp [unsignedShortText] at hbody
    | nan => rfl

theorem isNumberChar_of_mem_shortText {x : Binary64} {c : Char} (h : c ∈ x.shortText) :
    isNumberChar c = true := by
  rw [shortText_eq, List.mem_append] at h
  rcases h with h | h
  · rw [signText] at h
    split at h
    · obtain rfl := List.mem_singleton.mp h
      decide
    · cases h
  · cases x with
    | finite negative rank => exact Decimal.isNumberChar_of_mem_text h
    | infinite negative =>
      have hall : ['i', 'n', 'f'].all isNumberChar = true := by decide
      exact List.all_eq_true.mp hall c h
    | nan =>
      have hall : ['n', 'a', 'n'].all isNumberChar = true := by decide
      exact List.all_eq_true.mp hall c h

/-- A short form has a first character. -/
theorem exists_cons_shortText (x : Binary64) :
    ∃ c s, x.shortText = c :: s ∧ isNumberChar c = true := by
  have hne : x.shortText ≠ [] := by
    rw [shortText_eq]
    apply List.append_ne_nil_of_right_ne_nil
    cases x with
    | finite negative rank =>
      obtain ⟨c, hc, -⟩ := (shown rank).text_spec.1
      intro h
      rw [show (shown rank).text = [] from h] at hc
      cases hc
    | infinite negative => exact List.cons_ne_nil _ _
    | nan => exact List.cons_ne_nil _ _
  obtain ⟨c, s, hcons⟩ := List.exists_cons_of_ne_nil hne
  refine ⟨c, s, hcons, isNumberChar_of_mem_shortText (x := x) ?_⟩
  rw [hcons]
  exact List.mem_cons_self

end Binary64

end LoxReader.Number
