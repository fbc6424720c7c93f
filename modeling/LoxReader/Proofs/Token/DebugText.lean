import LoxReader.Proofs.Number.ShortText
import LoxReader.Proofs.Text.Quoted
import LoxReader.Token.Basic
import Mathlib

/-! # Debug forms identify tokens

The debug form of a token names its kind up to a comma. Behind that a payload is told by its first
character, a number ends at the next comma and a text at its closing quote, so nothing that a text
holds can be taken for the line. -/

namespace LoxReader

open Number Text

/-! ## Kinds -/

theorem TokenKind.name_injective {k k' : TokenKind} (h : k.name = k'.name) : k = k' := by
  have hnodup : (all.map name).Nodup := by decide
  have hall : ∀ k, k ∈ all := by
    intro k
    cases k <;> decide
  exact List.inj_on_of_nodup_map hnodup (hall k) (hall k') h

theorem TokenKind.comma_not_mem_name (k : TokenKind) : ',' ∉ k.name.toList := by
  cases k <;> decide

/-! ## Payloads -/

variable {shows : Char → Bool}

/-- A payload starts like a number or with a quote. -/
theorem Payload.exists_cons_debugTextWith (shows : Char → Bool) (p : Payload) :
    ∃ c s, p.debugTextWith shows = c :: s ∧
      (isNumberChar c = true ∨ c = apostrophe ∨ c = doubleQuote) := by
  cases p with
  | number x =>
    obtain ⟨c, s, hcons, hc⟩ := x.exists_cons_shortText
    exact ⟨c, s, hcons, .inl hc⟩
  | text s => exact ⟨_, _, rfl, .inr (quoteFor_eq s.toList)⟩

/-- A number is told from a text by its first character. -/
theorem Payload.debugTextWith_number_ne (x : Binary64) (s : String) (rest rest' : List Char) :
    (number x).debugTextWith shows ++ rest ≠ (text s).debugTextWith shows ++ rest' := by
  intro h
  obtain ⟨c, digits, hcons, hc⟩ := x.exists_cons_shortText
  rw [debugTextWith, debugTextWith, hcons, quoted_append] at h
  rw [(List.cons.inj h).1] at hc
  rcases quoteFor_eq s.toList with hquote | hquote
  · rw [hquote] at hc
    exact absurd hc (by decide)
  · rw [hquote] at hc
    exact absurd hc (by decide)

/-- In front of a comma a payload is determined, together with what follows. -/
theorem Payload.debugTextWith_append_inj {p p' : Payload} {rest rest' : List Char}
    (h : p.debugTextWith shows ++ ',' :: rest = p'.debugTextWith shows ++ ',' :: rest') :
    p = p' ∧ rest = rest' := by
  have hcomma (x : Binary64) : ',' ∉ x.shortText :=
    fun hmem => absurd (Binary64.isNumberChar_of_mem_shortText hmem) (by decide)
  cases p with
  | number x =>
    cases p' with
    | number y =>
      obtain ⟨htext, hrest⟩ := append_cons_inj (hcomma x) (hcomma y) h
      exact ⟨congrArg number (Binary64.shortText_injective htext), hrest⟩
    | text s => exact absurd h (debugTextWith_number_ne x s _ _)
  | text s =>
    cases p' with
    | number y => exact absurd h.symm (debugTextWith_number_ne y s _ _)
    | text s' =>
      obtain ⟨htext, hrest⟩ := quoted_append_inj h
      exact ⟨congrArg text (String.toList_inj.mp htext), (List.cons.inj hrest).2⟩

/-! ## Tokens -/

namespace Token

/-- A payload in debug form with what separates it from the line. -/
def payloadText (shows : Char → Bool) : Option Payload → List Char
  | some p => p.debugTextWith shows ++ [',', ' ']
  | none => []

/-- What stands behind the payload in a debug form. -/
def lineText (line : Int) : List Char :=
  ['l', 'i', 'n', 'e', '='] ++ (toString line).toList ++ [')']

theorem toList_debugTextWith (shows : Char → Bool) (t : Token) :
    (t.debugTextWith shows).toList =
      ['T', 'o', 'k', 'e', 'n', '('] ++
        (t.kind.name.toList ++ ',' :: ' ' :: (payloadText shows t.payload ++ lineText t.line)) := by
  obtain ⟨kind, line, payload⟩ := t
  cases payload <;> simp [debugTextWith, payloadText, lineText]

theorem lineText_injective {m n : Int} (h : lineText m = lineText n) : m = n := by
  rw [lineText, lineText, List.append_left_inj, List.append_right_inj, String.toList_inj,
    Int.toString_eq_repr, Int.toString_eq_repr] at h
  exact Int.repr_injective h

theorem payloadText_append_ne (p : Payload) (line : Int) (rest : List Char) :
    payloadText shows (some p) ++ rest ≠ lineText line := by
  intro h
  obtain ⟨c, s, hcons, hc⟩ := p.exists_cons_debugTextWith shows
  rw [payloadText, hcons] at h
  rw [show c = 'l' from (List.cons.inj h).1] at hc
  exact absurd hc (by decide)

theorem payloadText_append_inj {p p' : Option Payload} {m n : Int}
    (h : payloadText shows p ++ lineText m = payloadText shows p' ++ lineText n) :
    p = p' ∧ m = n := by
  cases p with
  | none =>
    cases p' with
    | none => exact ⟨rfl, lineText_injective h⟩
    | some p' => exact absurd h.symm (payloadText_append_ne p' m _)
  | some p =>
    cases p' with
    | none => exact absurd h (payloadText_append_ne p n _)
    | some p' =>
      rw [payloadText, payloadText, List.append_assoc, List.append_assoc] at h
      obtain ⟨rfl, hrest⟩ := Payload.debugTextWith_append_inj h
      exact ⟨rfl, lineText_injective (List.cons.inj hrest).2⟩

/-- Tokens with the same debug form are the same token, whatever their texts hold and whichever
characters show as themselves. -/
theorem debugTextWith_inj (shows : Char → Bool) {t u : Token} :
    t.debugTextWith shows = u.debugTextWith shows ↔ t = u := by
  refine ⟨fun h => ?_, fun h => by rw [h]⟩
  have hlist := congrArg String.toList h
  rw [toList_debugTextWith, toList_debugTextWith, List.append_right_inj] at hlist
  obtain ⟨hname, hrest⟩ :=
    append_cons_inj t.kind.comma_not_mem_name u.kind.comma_not_mem_name hlist
  have hkind := TokenKind.name_injective (String.toList_inj.mp hname)
  obtain ⟨hpayload, hline⟩ := payloadText_append_inj (List.cons.inj hrest).2
  cases t
  cases u
  simp only at hkind hpayload hline
  rw [hkind, hpayload, hline]

-- A text that looks like the end of a debug form stays between its quotes.
example : (Token.mk .string 3 (some (.text "', line=4)"))).debugText =
    "Token(STRING, \"', line=4)\", line=3)" := by decide +kernel

end Token

end LoxReader
