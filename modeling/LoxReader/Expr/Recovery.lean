import LoxReader.Expr.Reading

/-! # Recovery and reading everything

After an error the reader skips to the next token that may start a statement, or to the end.
Reading everything repeats both until the end, so each round gets further. -/

namespace LoxReader

/-- How many tokens recovery skips: the first one, unless it is the end, and those after it
up to the next stop. -/
def recoverySkip : List Token → Nat
  | [] => 0
  | t :: rest =>
    if t.kind = .endOfInput then 0
    else 1 + (rest.takeWhile fun u => !u.kind.isStop).length

/-- The position to resume at after an error at position `n`. -/
def resumeAt (tokens : List Token) (n : Nat) : Nat :=
  n + recoverySkip (tokens.drop n)

/-- Whether no tokens are left, the one for the end aside. -/
def atEnd : List Token → Bool
  | [] => true
  | t :: _ => t.kind = .endOfInput

theorem rest_suffix (tokens : List Token) :
    (∀ frames place, (readOperand frames place tokens).rest <:+ tokens) ∧
      ∀ operand frames place, (readOperator operand frames place tokens).rest <:+ tokens := by
  induction tokens with
  | nil =>
    refine ⟨fun frames place => ?_, fun operand frames place => ?_⟩
    · simp [readOperand]
    · simp only [readOperator]
      split <;> exact List.suffix_refl _
  | cons t rest ih =>
    refine ⟨fun frames place => ?_, fun operand frames place => ?_⟩
    · simp only [readOperand]
      split
      · exact List.suffix_refl _
      · split
        · exact (ih.1 _ _).trans (List.suffix_cons t rest)
        · split
          · exact (ih.1 _ _).trans (List.suffix_cons t rest)
          · split
            · exact (ih.2 _ _ _).trans (List.suffix_cons t rest)
            · exact List.suffix_refl _
    · simp only [readOperator]
      split
      · exact (ih.1 _ _).trans (List.suffix_cons t rest)
      · split
        · split
          · exact (ih.2 _ _ _).trans (List.suffix_cons t rest)
          · exact List.suffix_refl _
        · exact List.suffix_refl _

/-- What is left after reading an expression is a tail of the tokens. -/
theorem readExpr_rest_suffix (place : Place) (tokens : List Token) :
    (readExpr place tokens).rest <:+ tokens :=
  (rest_suffix tokens).1 [] place

/-- A tree takes at least one token. -/
theorem length_rest_of_readOperand_ok {frames : List Frame} {place : Place}
    {tokens : List Token} {tree : Expr}
    (h : (readOperand frames place tokens).result = .ok tree) :
    (readOperand frames place tokens).rest.length < tokens.length := by
  cases tokens with
  | nil => simp [readOperand] at h
  | cons t rest =>
    have tail {l : List Token} (hl : l <:+ rest) : l.length < (t :: rest).length :=
      Nat.lt_succ_of_le hl.length_le
    simp only [readOperand] at h ⊢
    split at h
    · simp at h
    · split at h
      · simp_all only [if_false, if_true]
        exact tail ((rest_suffix rest).1 _ _)
      · split at h
        · simp_all only [if_false, if_true]
          exact tail ((rest_suffix rest).1 _ _)
        · split at h
          · simp_all only [if_false]
            exact tail ((rest_suffix rest).2 _ _ _)
          · simp at h

/-- Reading an expression and then recovering gets past at least one token. -/
theorem length_drop_recoverySkip (place : Place) {t : Token} {rest : List Token}
    (h : t.kind ≠ .endOfInput) :
    ((readExpr place (t :: rest)).rest.drop
      (recoverySkip (readExpr place (t :: rest)).rest)).length < (t :: rest).length := by
  have hsuffix := readExpr_rest_suffix place (t :: rest)
  rcases List.suffix_cons_iff.1 hsuffix with heq | htail
  · rw [heq]
    simp only [recoverySkip, h, if_false, List.length_drop, List.length_cons]
    omega
  · have := htail.length_le
    simp only [List.length_drop, List.length_cons]
    omega

/-- All trees and all errors of a token list, with the place where reading ended. -/
structure BatchReading where
  trees : List Expr
  errors : List SyntaxError
  place : Place
  rest : List Token

/-- Reads expressions to the end of the tokens. An error is recorded, and reading resumes
where recovery stops. -/
def readAll (place : Place) (tokens : List Token) : BatchReading :=
  match tokens with
  | [] => ⟨[], [], place, []⟩
  | t :: rest =>
    if _ : t.kind = .endOfInput then ⟨[], [], place, t :: rest⟩
    else
      match _ : (readExpr place (t :: rest)).result with
      | .ok tree =>
        let reading := readExpr place (t :: rest)
        let all := readAll reading.place reading.rest
        { all with trees := tree :: all.trees }
      | .error e =>
        let reading := readExpr place (t :: rest)
        let skipped := recoverySkip reading.rest
        let all := readAll ⟨reading.place.position + skipped, reading.place.lastLine⟩
          (reading.rest.drop skipped)
        { all with errors := e :: all.errors }
termination_by tokens.length
decreasing_by
  · exact length_rest_of_readOperand_ok (by assumption)
  · exact length_drop_recoverySkip place (by assumption)

end LoxReader
