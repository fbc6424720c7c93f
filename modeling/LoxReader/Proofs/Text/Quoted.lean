import LoxReader.Text.Quoted
import Mathlib.Algebra.Group.Nat.Defs
import Mathlib.Data.List.Basic

/-! # Reading quoted text

Behind the opening quote every character is read back from its escape, whatever characters show as
themselves, and none of them starts like the closing quote. So a quoted text determines the text, and
where it ends. -/

namespace LoxReader.Text

/-! ## Hexadecimal digits -/

def hexDigitValue (c : Char) : Nat :=
  if c.isDigit then c.toNat - 48 else c.toNat - 87

def ofHexDigits (s : List Char) : Nat :=
  s.foldl (fun n c => 16 * n + hexDigitValue c) 0

theorem hexDigitValue_digitChar : ∀ n < 16, hexDigitValue (Nat.digitChar n) = n := by
  decide

theorem ofHexDigits_append_singleton (s : List Char) (c : Char) :
    ofHexDigits (s ++ [c]) = 16 * ofHexDigits s + hexDigitValue c := by
  rw [ofHexDigits, List.foldl_append]
  rfl

theorem ofHexDigits_toDigits (n : Nat) : ofHexDigits (Nat.toDigits 16 n) = n := by
  induction n using Nat.strongRecOn with
  | ind n ih =>
    by_cases hlt : n < 16
    · rw [Nat.toDigits_of_lt_base hlt, ← List.nil_append [_], ofHexDigits_append_singleton,
        hexDigitValue_digitChar n hlt]
      exact Nat.zero_add n
    · rw [Nat.toDigits_of_base_le (by decide) (Nat.le_of_not_lt hlt),
        ofHexDigits_append_singleton, ih (n / 16) (by omega),
        hexDigitValue_digitChar _ (Nat.mod_lt n (by decide))]
      omega

theorem ofHexDigits_hexDigits (width n : Nat) : ofHexDigits (hexDigits width n) = n := by
  have hzeros (k : Nat) : (List.replicate k '0').foldl (fun n c => 16 * n + hexDigitValue c) 0 = 0 := by
    induction k with
    | zero => rfl
    | succ k ih => exact ih
  simp only [hexDigits]
  rw [ofHexDigits, List.foldl_append, hzeros]
  exact ofHexDigits_toDigits n

theorem length_hexDigits {width n : Nat} (hwidth : 0 < width) (h : n < 16 ^ width) :
    (hexDigits width n).length = width := by
  have hle := (Nat.length_toDigits_le_iff (by decide) hwidth).mpr h
  simp only [hexDigits, List.length_append, List.length_replicate]
  omega

/-! ## One character -/

/-- A character by its code point in as many digits, and what stands behind them. -/
def readCodePoint (width : Nat) (s : List Char) : Char × List Char :=
  (Char.ofNat (ofHexDigits (s.take width)), s.drop width)

/-- The character that is escaped behind a backslash, and what stands behind it. -/
def readEscape : List Char → Option (Char × List Char)
  | [] => none
  | 'n' :: rest => some ('\n', rest)
  | 'r' :: rest => some ('\r', rest)
  | 't' :: rest => some ('\t', rest)
  | 'x' :: rest => some (readCodePoint 2 rest)
  | 'u' :: rest => some (readCodePoint 4 rest)
  | 'U' :: rest => some (readCodePoint 8 rest)
  | c :: rest => some (c, rest)

/-- The character that a quoted text goes on with, and what stands behind it. -/
def readQuotedChar : List Char → Option (Char × List Char)
  | [] => none
  | c :: rest => if c = '\\' then readEscape rest else some (c, rest)

theorem readCodePoint_hexDigits {width : Nat} {c : Char} (hwidth : 0 < width)
    (h : c.toNat < 16 ^ width) (rest : List Char) :
    readCodePoint width (hexDigits width c.toNat ++ rest) = (c, rest) := by
  have hlength := length_hexDigits hwidth h
  rw [readCodePoint, List.take_left' hlength, List.drop_left' hlength, ofHexDigits_hexDigits,
    Char.ofNat_toNat]

theorem exists_codePointEscape (c : Char) :
    ∃ escape, codePointEscape c = '\\' :: escape ∧
      ∀ rest, readEscape (escape ++ rest) = some (c, rest) := by
  have hvalid : c.toNat < 16 ^ 8 := c.val.toNat_lt
  simp only [codePointEscape]
  by_cases hbyte : c.toNat ≤ 0xFF
  · rw [if_pos hbyte]
    exact ⟨_, rfl, fun rest => congrArg some (readCodePoint_hexDigits (by decide) (by omega) rest)⟩
  rw [if_neg hbyte]
  by_cases hplane : c.toNat ≤ 0xFFFF
  · rw [if_pos hplane]
    exact ⟨_, rfl, fun rest => congrArg some (readCodePoint_hexDigits (by decide) (by omega) rest)⟩
  · rw [if_neg hplane]
    exact ⟨_, rfl, fun rest => congrArg some (readCodePoint_hexDigits (by decide) hvalid rest)⟩

section

variable {quote : Char} (hquote : quote = apostrophe ∨ quote = doubleQuote) (shows : Char → Bool)

include hquote

/-- A character stands for itself, unless it is a backslash or the quote, or is escaped. -/
theorem quotedChar_cases (c : Char) :
    quotedChar shows quote c = [c] ∧ c ≠ '\\' ∧ c ≠ quote ∨
      ∃ escape, quotedChar shows quote c = '\\' :: escape ∧
        ∀ rest, readEscape (escape ++ rest) = some (c, rest) := by
  rw [quotedChar]
  split
  · next hbackslash =>
    subst hbackslash
    exact .inr ⟨['\\'], rfl, fun rest => rfl⟩
  next hbackslash =>
  split
  · next hsame =>
    subst hsame
    rcases hquote with rfl | rfl <;> exact .inr ⟨_, rfl, fun rest => rfl⟩
  next hsame =>
  split
  · next hnewline =>
    subst hnewline
    exact .inr ⟨['n'], rfl, fun rest => rfl⟩
  split
  · next hreturn =>
    subst hreturn
    exact .inr ⟨['r'], rfl, fun rest => rfl⟩
  split
  · next htab =>
    subst htab
    exact .inr ⟨['t'], rfl, fun rest => rfl⟩
  split
  · exact .inr (exists_codePointEscape c)
  split
  · exact .inl ⟨rfl, hbackslash, hsame⟩
  split
  · exact .inl ⟨rfl, hbackslash, hsame⟩
  · exact .inr (exists_codePointEscape c)

theorem readQuotedChar_quotedChar (c : Char) (rest : List Char) :
    readQuotedChar (quotedChar shows quote c ++ rest) = some (c, rest) := by
  rcases quotedChar_cases hquote shows c with ⟨hself, hbackslash, -⟩ | ⟨escape, hescape, hread⟩
  · rw [hself, List.singleton_append, readQuotedChar, if_neg hbackslash]
  · rw [hescape, List.cons_append, readQuotedChar, if_pos rfl]
    exact hread rest

/-- No character in a quoted text starts like the closing quote. -/
theorem quotedChar_append_ne (c : Char) (s rest : List Char) :
    quotedChar shows quote c ++ s ≠ quote :: rest := by
  rcases quotedChar_cases hquote shows c with ⟨hself, -, hsame⟩ | ⟨escape, hescape, -⟩
  · rw [hself]
    exact fun h => hsame (List.cons.inj h).1
  · rw [hescape]
    intro h
    have hbackslash := (List.cons.inj h).1
    rcases hquote with rfl | rfl <;> exact absurd hbackslash (by decide)

/-! ## Whole texts -/

/-- What stands between two quotes determines the text and what follows. -/
theorem flatMap_quotedChar_append_inj {s s' rest rest' : List Char}
    (h : s.flatMap (quotedChar shows quote) ++ quote :: rest =
      s'.flatMap (quotedChar shows quote) ++ quote :: rest') : s = s' ∧ rest = rest' := by
  induction s generalizing s' with
  | nil =>
    cases s' with
    | nil => exact ⟨rfl, (List.cons.inj h).2⟩
    | cons c' s' =>
      rw [List.flatMap_cons, List.append_assoc] at h
      exact absurd h.symm (quotedChar_append_ne hquote shows c' _ _)
  | cons c s ih =>
    rw [List.flatMap_cons, List.append_assoc] at h
    cases s' with
    | nil => exact absurd h (quotedChar_append_ne hquote shows c _ _)
    | cons c' s' =>
      rw [List.flatMap_cons, List.append_assoc] at h
      have hread := congrArg readQuotedChar h
      rw [readQuotedChar_quotedChar hquote, readQuotedChar_quotedChar hquote] at hread
      obtain ⟨rfl, htail⟩ := Prod.mk.inj (Option.some.inj hread)
      obtain ⟨rfl, hrest⟩ := ih htail
      exact ⟨rfl, hrest⟩

end

theorem quoteFor_eq (s : List Char) : quoteFor s = apostrophe ∨ quoteFor s = doubleQuote := by
  rw [quoteFor]
  split
  · exact .inr rfl
  · exact .inl rfl

theorem quoted_append (shows : Char → Bool) (s rest : List Char) :
    quoted shows s ++ rest =
      quoteFor s :: (s.flatMap (quotedChar shows (quoteFor s)) ++ quoteFor s :: rest) := by
  simp [quoted]

/-- The opening quote tells how the text is escaped, and then the text is read character by
character. -/
theorem quoted_append_inj {shows : Char → Bool} {s s' rest rest' : List Char}
    (h : quoted shows s ++ rest = quoted shows s' ++ rest') : s = s' ∧ rest = rest' := by
  rw [quoted_append, quoted_append] at h
  obtain ⟨hquote, hbody⟩ := List.cons.inj h
  rw [← hquote] at hbody
  exact flatMap_quotedChar_append_inj (quoteFor_eq s) shows hbody

end LoxReader.Text
