import LoxReader.Proofs.Expr.Correspondence
import LoxReader.Proofs.Expr.Splitting
import LoxReader.Proofs.Scan.Concatenation

/-! # Tokens one list behind the other

When all of the first tokens are read into trees and no binary operator follows them, reading goes
on as at the start. All that remains of them are the lines that the later tokens are on. -/

namespace LoxReader

def SyntaxError.shift (n : Int) : SyntaxError → SyntaxError
  | .unclosedGroup line openLine => .unclosedGroup (line + n) (openLine + n)
  | .notAnOperand token => .notAnOperand (token.shift n)
  | .missingOperand line => .missingOperand (line + n)
  | .emptyGroup line => .emptyGroup (line + n)
  | .custom message line help => .custom message (line + n) help

namespace Correspondence

/-- The same tokens, `n` lines further down. -/
def shift (n : Int) : Correspondence where
  sameToken t u := t.shift n = u
  sameLine line line' := line + n = line'
  sameLiteral := Eq
  kind_eq := by
    rintro t _ rfl
    rfl
  sameLine_of_token := by
    rintro t _ rfl
    rfl
  sameLiteral_of_token := by
    rintro t _ rfl
    have hliteral : (t.shift n).literal? = t.literal? := rfl
    rw [hliteral]
    cases t.literal? with
    | none => exact .none
    | some value => exact .some rfl

theorem SameError.eq_shift {n : Int} {e e' : SyntaxError} (h : (shift n).SameError e e') :
    e.shift n = e' := by
  cases h with
  | unclosedGroup hline hopen => rw [← hline, ← hopen, SyntaxError.shift]
  | notAnOperand ht => rw [← ht, SyntaxError.shift]
  | missingOperand hline => rw [← hline, SyntaxError.shift]
  | emptyGroup hline => rw [← hline, SyntaxError.shift]

end Correspondence

/-- Tokens further down are read alike, wherever reading starts. -/
theorem readAll_map_shift (n : Int) (tokens : List Token) (p p' : Place) :
    (readAll p' (tokens.map (Token.shift n))).trees.map Expr.render =
        (readAll p tokens).trees.map Expr.render ∧
      (readAll p' (tokens.map (Token.shift n))).errors =
        (readAll p tokens).errors.map (SyntaxError.shift n) := by
  have hsame : List.Forall₂ (Correspondence.shift n).sameToken tokens
      (tokens.map (Token.shift n)) := by
    rw [List.forall₂_map_right_iff]
    exact List.forall₂_same.mpr fun t _ => rfl
  obtain ⟨htrees, herrors⟩ := Correspondence.same_readAll hsame p p'
  constructor
  · have hdisplay {t u : Token} (h : t.shift n = u) : t.display = u.display := by
      rw [← h]
      rfl
    exact (Correspondence.map_render_eq (congrArg Literal.display) hdisplay htrees).symm
  · rw [eq_comm, ← List.forall₂_eq_eq_eq, List.forall₂_map_left_iff]
    exact herrors.imp fun e e' => Correspondence.SameError.eq_shift

open ExprReader in
/-- Tokens that are read without an error, up to the end behind them, are read in the same way when
other tokens follow instead. -/
theorem readAll_append {ts rest : List Token} {line : Int} (hts : ∀ t ∈ ts, t.kind ≠ .endOfInput)
    (h : (readAll {} (ts ++ [.endOn line])).errors = [])
    (hrest : ∀ t ∈ rest.head?, t.kind ∉ binaryOperators) :
    readAll {} (ts ++ rest) =
      let all := readAll (Place.after {} ts) rest
      { all with trees := (readAll {} (ts ++ [.endOn line])).trees ++ all.trees } := by
  have hfresh : (fresh (ts ++ [.endOn line])).readRest.2.errors = [] := h
  obtain ⟨split, hcovers, hj, htrees, -⟩ := exists_split_of_errors_eq_nil hfresh
  have htokens : split.tokens = ts := by
    rw [hcovers.tokens_eq, beforeEnd_append hts rfl]
  have htrees : split.trees = (readAll {} (ts ++ [.endOn line])).trees := htrees
  rw [← htrees, ← htokens]
  exact hj.readAll hcovers.valid hrest {}

end LoxReader
