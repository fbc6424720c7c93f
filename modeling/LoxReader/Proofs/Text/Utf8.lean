import LoxReader.Text.Utf8
import Mathlib

/-! # Well-formed UTF-8

Decoding accepts just the encodings of texts and gives the text back. A character is read byte by
byte, and inside it what may follow is what completes it. -/

namespace LoxReader.Text.Utf8

/-- The bytes of a text. -/
def encode (text : List Char) : List UInt8 :=
  text.flatMap String.utf8EncodeChar

@[simp] theorem encode_nil : encode [] = [] := rfl

@[simp] theorem encode_cons (c : Char) (text : List Char) :
    encode (c :: text) = String.utf8EncodeChar c ++ encode text :=
  List.flatMap_cons

/-! ## Encodings of characters -/

section Encode

variable {b b₁ b₂ b₃ : UInt8}

theorem toNat_ofNat_of_isValidChar {n : Nat} (h : n.isValidChar) : (Char.ofNat n).toNat = n := by
  rw [Char.toNat_ofNat, if_pos h]

theorem utf8EncodeChar_one (h : b.toNat < 0x80) :
    String.utf8EncodeChar (Char.ofNat b.toNat) = [b] := by
  have hvalue := toNat_ofNat_of_isValidChar (n := b.toNat) (.inl (by omega))
  simp only [String.utf8EncodeChar, Char.toNat_val, hvalue]
  rw [if_pos (by omega), UInt8.ofNat_toNat]

theorem utf8EncodeChar_two (h : 0xC2 ≤ b.toNat ∧ b.toNat ≤ 0xDF)
    (h₁ : 0x80 ≤ b₁.toNat ∧ b₁.toNat ≤ 0xBF) :
    String.utf8EncodeChar (Char.ofNat ((b.toNat - 0xC0) * 64 + (b₁.toNat - 0x80))) = [b, b₁] := by
  generalize hn : (b.toNat - 0xC0) * 64 + (b₁.toNat - 0x80) = n
  have hvalue := toNat_ofNat_of_isValidChar (n := n) (.inl (by omega))
  simp only [String.utf8EncodeChar, Char.toNat_val, hvalue]
  rw [if_neg (by omega), if_pos (by omega)]
  simp only [List.cons.injEq, UInt8.ofNat_eq_iff_mod_eq_toNat, and_true]
  omega

theorem utf8EncodeChar_three (h : 0xE0 ≤ b.toNat ∧ b.toNat ≤ 0xEF)
    (hlow : (if b.toNat = 0xE0 then 0xA0 else 0x80) ≤ b₁.toNat)
    (hhigh : b₁.toNat ≤ if b.toNat = 0xED then 0x9F else 0xBF)
    (h₂ : 0x80 ≤ b₂.toNat ∧ b₂.toNat ≤ 0xBF) :
    String.utf8EncodeChar (Char.ofNat
      (((b.toNat - 0xE0) * 64 + (b₁.toNat - 0x80)) * 64 + (b₂.toNat - 0x80))) = [b, b₁, b₂] := by
  have hlow : 0x80 ≤ b₁.toNat ∧ (b.toNat = 0xE0 → 0xA0 ≤ b₁.toNat) := by
    split at hlow <;> omega
  have hhigh : b₁.toNat ≤ 0xBF ∧ (b.toNat = 0xED → b₁.toNat ≤ 0x9F) := by
    split at hhigh <;> omega
  generalize hn : ((b.toNat - 0xE0) * 64 + (b₁.toNat - 0x80)) * 64 + (b₂.toNat - 0x80) = n
  -- The bounds of the second byte keep out surrogates.
  have hvalid : n.isValidChar := by
    rw [Nat.isValidChar]
    omega
  simp only [String.utf8EncodeChar, Char.toNat_val, toNat_ofNat_of_isValidChar hvalid]
  rw [if_neg (by omega), if_neg (by omega), if_pos (by omega)]
  simp only [List.cons.injEq, UInt8.ofNat_eq_iff_mod_eq_toNat, and_true]
  omega

theorem utf8EncodeChar_four (h : 0xF0 ≤ b.toNat ∧ b.toNat ≤ 0xF4)
    (hlow : (if b.toNat = 0xF0 then 0x90 else 0x80) ≤ b₁.toNat)
    (hhigh : b₁.toNat ≤ if b.toNat = 0xF4 then 0x8F else 0xBF)
    (h₂ : 0x80 ≤ b₂.toNat ∧ b₂.toNat ≤ 0xBF) (h₃ : 0x80 ≤ b₃.toNat ∧ b₃.toNat ≤ 0xBF) :
    String.utf8EncodeChar (Char.ofNat
      ((((b.toNat - 0xF0) * 64 + (b₁.toNat - 0x80)) * 64 + (b₂.toNat - 0x80)) * 64 +
        (b₃.toNat - 0x80))) = [b, b₁, b₂, b₃] := by
  have hlow : 0x80 ≤ b₁.toNat ∧ (b.toNat = 0xF0 → 0x90 ≤ b₁.toNat) := by
    split at hlow <;> omega
  have hhigh : b₁.toNat ≤ 0xBF ∧ (b.toNat = 0xF4 → b₁.toNat ≤ 0x8F) := by
    split at hhigh <;> omega
  generalize hn : (((b.toNat - 0xF0) * 64 + (b₁.toNat - 0x80)) * 64 + (b₂.toNat - 0x80)) * 64 +
    (b₃.toNat - 0x80) = n
  have hvalid : n.isValidChar := by
    rw [Nat.isValidChar]
    omega
  simp only [String.utf8EncodeChar, Char.toNat_val, toNat_ofNat_of_isValidChar hvalid]
  rw [if_neg (by omega), if_neg (by omega), if_neg (by omega)]
  simp only [List.cons.injEq, UInt8.ofNat_eq_iff_mod_eq_toNat, and_true]
  omega

end Encode

/-! ## Leading bytes -/

section Lead

variable {position : Nat} {b : UInt8}

theorem lead?_two (h : 0xC2 ≤ b.toNat ∧ b.toNat ≤ 0xDF) :
    lead? position b = some ⟨position, b, 1, b.toNat - 0xC0, 1, 0x80, 0xBF⟩ := by
  rw [lead?, if_pos h]

theorem lead?_three (h : 0xE0 ≤ b.toNat ∧ b.toNat ≤ 0xEF) :
    lead? position b = some ⟨position, b, 1, b.toNat - 0xE0, 2,
      if b.toNat = 0xE0 then 0xA0 else 0x80, if b.toNat = 0xED then 0x9F else 0xBF⟩ := by
  rw [lead?, if_neg (by omega)]
  by_cases hlow : b.toNat = 0xE0
  · simp [hlow]
  · by_cases hhigh : b.toNat = 0xED
    · simp [hhigh]
    · rw [if_neg hlow, if_neg hhigh, if_pos (by omega), if_neg hlow, if_neg hhigh]

theorem lead?_four (h : 0xF0 ≤ b.toNat ∧ b.toNat ≤ 0xF4) :
    lead? position b = some ⟨position, b, 1, b.toNat - 0xF0, 3,
      if b.toNat = 0xF0 then 0x90 else 0x80, if b.toNat = 0xF4 then 0x8F else 0xBF⟩ := by
  rw [lead?, if_neg (by omega), if_neg (by omega), if_neg (by omega), if_neg (by omega)]
  by_cases hlow : b.toNat = 0xF0
  · simp [hlow]
  · by_cases hhigh : b.toNat = 0xF4
    · simp [hhigh]
    · rw [if_neg hlow, if_pos (by omega), if_neg hlow, if_neg hhigh]

/-- Only the bytes of three ranges start a character of several bytes. -/
theorem range_of_lead?_eq_some {p : Partial} (h : lead? position b = some p) :
    (0xC2 ≤ b.toNat ∧ b.toNat ≤ 0xDF) ∨ (0xE0 ≤ b.toNat ∧ b.toNat ≤ 0xEF) ∨
      (0xF0 ≤ b.toNat ∧ b.toNat ≤ 0xF4) := by
  refine Decidable.byContradiction fun hrange => ?_
  rw [lead?, if_neg (by omega), if_neg (by omega), if_neg (by omega), if_neg (by omega),
    if_neg (by omega), if_neg (by omega), if_neg (by omega)] at h
  cases h

end Lead

/-! ## Completing a character -/

/-- What is read of a character with one more byte of it. -/
def Partial.next (p : Partial) (b : UInt8) : Partial :=
  ⟨p.position, p.first, p.seen + 1, p.value * 64 + (b.toNat - 0x80), p.owed - 1, 0x80, 0xBF⟩

/-- The bytes that complete a character of which some are read. -/
inductive Partial.Completes : Partial → List UInt8 → Char → Prop where
  | last {p b} : p.owed = 1 → p.low ≤ b.toNat → b.toNat ≤ p.high →
      Completes p [b] (Char.ofNat (p.value * 64 + (b.toNat - 0x80)))
  | more {p b tail c} : p.owed ≠ 1 → p.low ≤ b.toNat → b.toNat ≤ p.high →
      Completes (p.next b) tail c → Completes p (b :: tail) c

theorem utf8EncodeChar_of_completes {position : Nat} {b : UInt8} {p : Partial} {tail : List UInt8}
    {c : Char} (hlead : lead? position b = some p) (h : p.Completes tail c) :
    String.utf8EncodeChar c = b :: tail := by
  rcases range_of_lead?_eq_some hlead with hrange | hrange | hrange
  · obtain rfl := Option.some.inj (hlead.symm.trans (lead?_two hrange))
    cases h with
    | last _ hlow hhigh => exact utf8EncodeChar_two hrange ⟨hlow, hhigh⟩
    | more howed => exact absurd rfl howed
  · obtain rfl := Option.some.inj (hlead.symm.trans (lead?_three hrange))
    cases h with
    | last howed => cases howed
    | more _ hlow hhigh h =>
      cases h with
      | last _ hlow' hhigh' => exact utf8EncodeChar_three hrange hlow hhigh ⟨hlow', hhigh'⟩
      | more howed => exact absurd rfl howed
  · obtain rfl := Option.some.inj (hlead.symm.trans (lead?_four hrange))
    cases h with
    | last howed => cases howed
    | more _ hlow hhigh h =>
      cases h with
      | last howed => cases howed
      | more _ hlow' hhigh' h =>
        cases h with
        | last _ hlow'' hhigh'' =>
          exact utf8EncodeChar_four hrange hlow hhigh ⟨hlow', hhigh'⟩ ⟨hlow'', hhigh''⟩
        | more howed => exact absurd rfl howed

theorem exists_byte {n : Nat} (h : n < 256) : ∃ b : UInt8, b.toNat = n :=
  ⟨UInt8.ofNat n, UInt8.toNat_ofNat_of_lt' h⟩

theorem ofNat_eq_of_eq_toNat {n : Nat} {c : Char} (h : n = c.toNat) : Char.ofNat n = c := by
  rw [h, Char.ofNat_toNat]

/-- Every character beyond one byte is started by some byte and completed by others. -/
theorem exists_completes {c : Char} (h : 0x80 ≤ c.toNat) (position : Nat) :
    ∃ b p tail, lead? position b = some p ∧ p.Completes tail c := by
  have hvalid : c.toNat < 0xD800 ∨ 0xDFFF < c.toNat ∧ c.toNat < 0x110000 := c.valid
  -- The lowest bits are in the last byte however many there are.
  obtain ⟨last, hlast⟩ := exists_byte (n := 0x80 + c.toNat % 64) (by omega)
  have hlastRange : 0x80 ≤ last.toNat ∧ last.toNat ≤ 0xBF := by omega
  by_cases htwo : c.toNat ≤ 0x7FF
  · obtain ⟨b, hb⟩ := exists_byte (n := 0xC0 + c.toNat / 64) (by omega)
    have hc : Char.ofNat ((b.toNat - 0xC0) * 64 + (last.toNat - 0x80)) = c :=
      ofNat_eq_of_eq_toNat (by omega)
    refine ⟨b, _, [last], lead?_two (by omega), ?_⟩
    rw [← hc]
    exact .last rfl hlastRange.1 hlastRange.2
  obtain ⟨third, hthird⟩ := exists_byte (n := 0x80 + c.toNat / 64 % 64) (by omega)
  have hthirdRange : 0x80 ≤ third.toNat ∧ third.toNat ≤ 0xBF := by omega
  by_cases hthree : c.toNat ≤ 0xFFFF
  · obtain ⟨b, hb⟩ := exists_byte (n := 0xE0 + c.toNat / 4096) (by omega)
    have hc : Char.ofNat (((b.toNat - 0xE0) * 64 + (third.toNat - 0x80)) * 64 +
        (last.toNat - 0x80)) = c :=
      ofNat_eq_of_eq_toNat (by omega)
    have hlow : (if b.toNat = 0xE0 then 0xA0 else 0x80) ≤ third.toNat := by split <;> omega
    have hhigh : third.toNat ≤ if b.toNat = 0xED then 0x9F else 0xBF := by split <;> omega
    refine ⟨b, _, [third, last], lead?_three (by omega), ?_⟩
    rw [← hc]
    exact .more nofun hlow hhigh (.last rfl hlastRange.1 hlastRange.2)
  · obtain ⟨b, hb⟩ := exists_byte (n := 0xF0 + c.toNat / 262144) (by omega)
    obtain ⟨second, hsecond⟩ := exists_byte (n := 0x80 + c.toNat / 4096 % 64) (by omega)
    have hc : Char.ofNat ((((b.toNat - 0xF0) * 64 + (second.toNat - 0x80)) * 64 +
        (third.toNat - 0x80)) * 64 + (last.toNat - 0x80)) = c :=
      ofNat_eq_of_eq_toNat (by omega)
    have hlow : (if b.toNat = 0xF0 then 0x90 else 0x80) ≤ second.toNat := by split <;> omega
    have hhigh : second.toNat ≤ if b.toNat = 0xF4 then 0x8F else 0xBF := by split <;> omega
    refine ⟨b, _, [second, third, last], lead?_four (by omega), ?_⟩
    rw [← hc]
    exact .more nofun hlow hhigh
      (.more nofun hthirdRange.1 hthirdRange.2 (.last rfl hlastRange.1 hlastRange.2))

/-! ## Decoding -/

/-- Inside a character its remaining bytes are read as just that character. -/
theorem Partial.Completes.continueFrom_append {p : Partial} {tail : List UInt8} {c : Char}
    (h : p.Completes tail c) :
    ∃ position, ∀ done rest,
      continueFrom done p (tail ++ rest) = decodeFrom (c :: done) position rest := by
  induction h with
  | @last p b howed hlow hhigh =>
    refine ⟨p.position + p.seen + 1, fun done rest => ?_⟩
    rw [List.singleton_append, continueFrom, if_pos ⟨hlow, hhigh⟩, if_pos howed]
  | more howed hlow hhigh _ ih =>
    obtain ⟨position, ih⟩ := ih
    refine ⟨position, fun done rest => ?_⟩
    rw [List.cons_append, continueFrom, if_pos ⟨hlow, hhigh⟩, if_neg howed]
    exact ih done rest

theorem exists_completes_of_continueFrom {p : Partial} {done u : List Char} {bytes : List UInt8}
    (h : continueFrom done p bytes = .ok u) :
    ∃ tail c rest position, bytes = tail ++ rest ∧ p.Completes tail c ∧
      decodeFrom (c :: done) position rest = .ok u := by
  induction bytes generalizing p with
  | nil => cases h
  | cons b bytes ih =>
    rw [continueFrom] at h
    split at h
    · next hrange =>
      dsimp only at h
      split at h
      · next howed => exact ⟨[b], _, bytes, _, rfl, .last howed hrange.1 hrange.2, h⟩
      · next howed =>
        obtain ⟨tail, c, rest, position, rfl, hcompletes, hrest⟩ := ih (p := p.next b) h
        exact ⟨b :: tail, c, rest, position, rfl, .more howed hrange.1 hrange.2 hcompletes, hrest⟩
    · cases h

/-- One character. -/
theorem decodeFrom_append (c : Char) (position : Nat) :
    ∃ position', ∀ done rest,
      decodeFrom done position (String.utf8EncodeChar c ++ rest) =
        decodeFrom (c :: done) position' rest := by
  by_cases hone : c.toNat < 0x80
  · obtain ⟨b, hb⟩ := exists_byte (n := c.toNat) (by omega)
    obtain rfl : Char.ofNat b.toNat = c := ofNat_eq_of_eq_toNat hb
    refine ⟨position + 1, fun done rest => ?_⟩
    rw [utf8EncodeChar_one (hb ▸ hone), List.singleton_append, decodeFrom, if_pos (hb ▸ hone)]
  · obtain ⟨b, p, tail, hlead, hcompletes⟩ := exists_completes (Nat.not_lt.mp hone) position
    obtain ⟨position', hcontinue⟩ := hcompletes.continueFrom_append
    have hb := range_of_lead?_eq_some hlead
    refine ⟨position', fun done rest => ?_⟩
    rw [utf8EncodeChar_of_completes hlead hcompletes, List.cons_append, decodeFrom,
      if_neg (by omega), hlead]
    exact hcontinue done rest

theorem exists_char_of_decodeFrom {done u : List Char} {position : Nat} {b : UInt8}
    {bytes : List UInt8} (h : decodeFrom done position (b :: bytes) = .ok u) :
    ∃ c tail rest position', String.utf8EncodeChar c = b :: tail ∧ bytes = tail ++ rest ∧
      decodeFrom (c :: done) position' rest = .ok u := by
  rw [decodeFrom] at h
  split at h
  · next hone => exact ⟨_, [], bytes, _, utf8EncodeChar_one hone, rfl, h⟩
  · split at h
    · next p hlead =>
      obtain ⟨tail, c, rest, position', rfl, hcompletes, hrest⟩ := exists_completes_of_continueFrom h
      exact ⟨c, tail, rest, position', utf8EncodeChar_of_completes hlead hcompletes, rfl, hrest⟩
    · cases h

/-- Whole texts. -/
theorem decodeFrom_encode (done : List Char) (position : Nat) (text : List Char) :
    decodeFrom done position (encode text) = .ok (done.reverse ++ text) := by
  induction text generalizing done position with
  | nil => rw [encode_nil, decodeFrom, List.append_nil]
  | cons c text ih =>
    obtain ⟨position', hchar⟩ := decodeFrom_append c position
    rw [encode_cons, hchar, ih, List.reverse_cons, List.append_assoc, List.singleton_append]

theorem exists_encode_of_decodeFrom {done u : List Char} {position : Nat} {bytes : List UInt8}
    (h : decodeFrom done position bytes = .ok u) :
    ∃ text, bytes = encode text ∧ u = done.reverse ++ text := by
  induction hn : bytes.length using Nat.strongRecOn generalizing done position bytes with
  | ind n ih =>
    cases bytes with
    | nil =>
      obtain rfl := Except.ok.inj h
      exact ⟨[], rfl, (List.append_nil _).symm⟩
    | cons b bytes =>
      obtain ⟨c, tail, rest, position', hchar, rfl, hrest⟩ := exists_char_of_decodeFrom h
      have hlt : rest.length < n := by
        rw [← hn, List.length_cons, List.length_append]
        omega
      obtain ⟨text, rfl, rfl⟩ := ih _ hlt hrest rfl
      refine ⟨c :: text, ?_, ?_⟩
      · rw [encode_cons, hchar, List.cons_append]
      · rw [List.reverse_cons, List.append_assoc, List.singleton_append]

/-- Decoding accepts just the encodings of texts. -/
theorem decode_eq_ok_iff {bytes : List UInt8} {text : List Char} :
    decode bytes = .ok text ↔ bytes = encode text := by
  constructor
  · intro h
    obtain ⟨text', rfl, rfl⟩ := exists_encode_of_decodeFrom h
    rfl
  · rintro rfl
    exact decodeFrom_encode [] 0 text

theorem encode_injective {text text' : List Char} (h : encode text = encode text') :
    text = text' :=
  Except.ok.inj ((decode_eq_ok_iff.mpr rfl).symm.trans (decode_eq_ok_iff.mpr h))

/-- Bytes that encode no text have a fault. -/
theorem exists_fault {bytes : List UInt8} (h : ∀ text, bytes ≠ encode text) :
    ∃ fault, decode bytes = .error fault := by
  cases hdecode : decode bytes with
  | error fault => exact ⟨fault, rfl⟩
  | ok text => exact absurd (decode_eq_ok_iff.mp hdecode) (h text)

/-! An overlong form, a surrogate, a value beyond the last character, a stray continuation, and a
character that is cut off. -/

example : decode [0xC0, 0x80] = .error ⟨0, 1, 0xC0, .startByte⟩ := rfl

example : decode [0xED, 0xA0, 0x80] = .error ⟨0, 1, 0xED, .continuationByte⟩ := rfl

example : decode [0xF4, 0x90, 0x80, 0x80] = .error ⟨0, 1, 0xF4, .continuationByte⟩ := rfl

example : decode [0x31, 0x80] = .error ⟨1, 1, 0x80, .startByte⟩ := rfl

example : decode [0x31, 0xE2, 0x82] = .error ⟨1, 2, 0xE2, .endOfData⟩ := rfl

end LoxReader.Text.Utf8
