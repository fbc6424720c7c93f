import LoxReader.Proofs.Expr.Grammar
import LoxReader.Proofs.Number.Layout
import LoxReader.Proofs.Scan.Dissection

/-! # Trees up to their literals and operators

Two trees of the same shape may differ in how their numbers are signed, or in what their operators
carry besides their kind. Trees that are read from a source have only plain literals and bare
operators, for which such differences vanish. -/

namespace LoxReader

open Number Text

/-! ## Likeness -/

namespace Expr

/-- All literals of a tree and all its operators have given properties. -/
def Holds (ofLiteral : Literal → Prop) (ofOperator : Token → Prop) : Expr → Prop
  | .literal value => ofLiteral value
  | .group inner => inner.Holds ofLiteral ofOperator
  | .unary operator operand => ofOperator operator ∧ operand.Holds ofLiteral ofOperator
  | .binary left operator right =>
    left.Holds ofLiteral ofOperator ∧ ofOperator operator ∧ right.Holds ofLiteral ofOperator

/-- Two trees have the same shape, with literals and operators that are the same in a given
sense. -/
inductive Alike (sameLiteral : Literal → Literal → Prop) (sameOperator : Token → Token → Prop) :
    Expr → Expr → Prop where
  | literal {a b} : sameLiteral a b → Alike sameLiteral sameOperator (.literal a) (.literal b)
  | group {a b} : Alike sameLiteral sameOperator a b →
      Alike sameLiteral sameOperator (.group a) (.group b)
  | unary {t u a b} : sameOperator t u → Alike sameLiteral sameOperator a b →
      Alike sameLiteral sameOperator (.unary t a) (.unary u b)
  | binary {t u a b c d} : Alike sameLiteral sameOperator a b → sameOperator t u →
      Alike sameLiteral sameOperator c d →
      Alike sameLiteral sameOperator (.binary a t c) (.binary b u d)

variable {P P' : Literal → Prop} {Q Q' : Token → Prop} {R R' : Literal → Literal → Prop}
  {S S' : Token → Token → Prop}

theorem Holds.imp {e : Expr} (h : e.Holds P Q) (hP : ∀ value, P value → P' value)
    (hQ : ∀ t, Q t → Q' t) : e.Holds P' Q' := by
  induction e with
  | literal value => exact hP value h
  | group inner ih => exact ih h
  | unary t operand ih => exact ⟨hQ t h.1, ih h.2⟩
  | binary left t right ihl ihr => exact ⟨ihl h.1, hQ t h.2.1, ihr h.2.2⟩

/-- Sameness may be refined by what holds of the literals and the operators. -/
theorem Alike.refine {e e' : Expr} (h : Alike R S e e') (he : e.Holds P Q) (he' : e'.Holds P Q)
    (hR : ∀ a b, P a → P b → R a b → R' a b) (hS : ∀ t u, Q t → Q u → S t u → S' t u) :
    Alike R' S' e e' := by
  induction h with
  | literal h => exact .literal (hR _ _ he he' h)
  | group _ ih => exact .group (ih he he')
  | unary ht _ ih => exact .unary (hS _ _ he.1 he'.1 ht) (ih he.2 he'.2)
  | binary _ ht _ ihl ihr =>
    exact .binary (ihl he.1 he'.1) (hS _ _ he.2.1 he'.2.1 ht) (ihr he.2.2 he'.2.2)

end Expr

/-- What holds of the tokens of an expression holds in its tree. -/
theorem Derives.holds {n : Nonterminal} {ts : List Token} {e : Expr} (h : Derives n ts e)
    {P : Literal → Prop} {Q : Token → Prop} (hP : ∀ t ∈ ts, ∀ value, t.StandsFor value → P value)
    (hQ : ∀ t ∈ ts, t.kind = .bang ∨ t.kind ∈ binaryOperators → Q t) : e.Holds P Q := by
  induction h with
  | expression _ ih | operand _ ih | primary _ ih => exact ih hP hQ
  | @binary level ls rs l r t _ ht _ ihl ihr =>
    refine ⟨ihl ?_ ?_, hQ t (by simp) (.inr (mem_binaryOperators ht)), ihr ?_ ?_⟩
    · exact fun u hu => hP u (List.mem_append_left _ hu)
    · exact fun u hu => hQ u (List.mem_append_left _ hu)
    · exact fun u hu => hP u (List.mem_append_right _ (List.mem_cons_of_mem _ hu))
    · exact fun u hu => hQ u (List.mem_append_right _ (List.mem_cons_of_mem _ hu))
  | @unary t ts e ht _ ih =>
    have hoperator : t.kind = .bang ∨ t.kind ∈ binaryOperators := by
      rcases ht with ht | ht
      · exact .inl ht
      · rw [ht]
        decide
    refine ⟨hQ t List.mem_cons_self hoperator, ih ?_ ?_⟩
    · exact fun u hu => hP u (List.mem_cons_of_mem t hu)
    · exact fun u hu => hQ u (List.mem_cons_of_mem t hu)
  | @group o c ts e _ _ _ ih =>
    refine ih ?_ ?_
    · exact fun u hu => hP u (by simp [hu])
    · exact fun u hu => hQ u (by simp [hu])
  | @literal t value hv => exact hP t List.mem_cons_self value hv

/-! ## Trees of a source -/

/-- A literal as a source may spell it: a number without a sign, a string without a quote. -/
def Literal.Plain : Literal → Prop
  | .number x => ∃ rank, x = .ofRank false rank
  | .string s => doubleQuote ∉ s.toList
  | .boolean _ | .nil => True

/-- A token as a source may spell it: only plain literals, and no operator with a payload. -/
structure Token.Plain (t : Token) : Prop where
  literal : ∀ value, t.StandsFor value → value.Plain
  operator : t.kind = .bang ∨ t.kind ∈ binaryOperators → t.payload = none

theorem Token.plain_of_payload_eq_none {t : Token} (h : t.payload = none) : t.Plain := by
  refine ⟨fun value hvalue => ?_, fun _ => h⟩
  cases hvalue with
  | number | string => cases h
  | true | false | nil => exact trivial

namespace Lexeme

/-- The tokens of a source are plain. -/
theorem plain_of_yields {l : Lexeme} {rest : List Char} (hl : l.IsLongest rest) {line : Int}
    {t : Token} (h : l.Yields line (.ok t)) : t.Plain := by
  cases h with
  | symbol => exact Token.plain_of_payload_eq_none rfl
  | keyword => exact Token.plain_of_payload_eq_none rfl
  | string =>
    refine ⟨fun value hvalue => ?_, by simp [binaryOperators]⟩
    cases hvalue with
    | string =>
      cases hl with
      | string hbody => simpa [Literal.Plain] using hbody
  | @numeral n =>
    refine ⟨fun value hvalue => ?_, by simp [binaryOperators]⟩
    cases hvalue with
    | number => exact ⟨_, n.toDecimal.toBinary64_eq⟩
  | identifier =>
    refine ⟨fun value hvalue => ?_, by simp [binaryOperators]⟩
    cases hvalue

end Lexeme

theorem plain_of_mem_scan {source : List Char} {t : Token} (h : t ∈ (scan source).allTokens) :
    t.Plain := by
  rw [Scan.allTokens, List.mem_append, List.mem_singleton] at h
  rcases h with h | rfl
  · obtain ⟨l, rest, line, hl, hyields⟩ := exists_yields_of_mem_scan h
    exact Lexeme.plain_of_yields hl hyields
  · exact Token.plain_of_payload_eq_none rfl

end LoxReader
