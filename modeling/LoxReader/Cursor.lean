import LoxReader.Lexeme

/-! # Cursors

A cursor is a place in a source. One step passes a gap and the lexeme behind it, and every
step but the last shortens what is left to read. -/

namespace LoxReader

open Text

/-- A place in a source: the characters still to read, the number of those passed, and the
line, counted from 1. -/
structure Cursor where
  rest : List Char
  position : Nat := 0
  line : Int := 1
deriving DecidableEq

theorem length_splitGap_snd (inComment : Bool) (s : List Char) :
    (splitGap inComment s).2.length ≤ s.length := by
  induction s generalizing inComment with
  | nil => simp [splitGap]
  | cons c rest ih =>
    simp only [splitGap]
    split
    · exact Nat.le_succ_of_le (ih _)
    · split
      · exact Nat.le_succ_of_le (ih _)
      · split
        · exact Nat.le_succ_of_le (ih _)
        · exact Nat.le_refl _

theorem Lexeme.length_split_snd (first : Char) (rest : List Char) :
    (Lexeme.split first rest).2.length ≤ rest.length := by
  simp only [Lexeme.split]
  split
  · exact Nat.le_refl _
  · split
    · split
      · exact Nat.le_succ _
      · exact Nat.le_refl _
    · split
      · have h := (List.dropWhile_suffix (l := rest) (· != doubleQuote)).length_le
        split
        · exact Nat.zero_le _
        · next heq =>
          rw [heq] at h
          exact Nat.le_of_succ_le h
      · split
        · exact (List.dropWhile_suffix _).length_le
        · split
          · exact (List.dropWhile_suffix _).length_le
          · exact Nat.le_refl _

namespace Cursor

def atStart (source : List Char) : Cursor where
  rest := source

/-- The cursor behind a passed text, with what is left after it. -/
def pass (c : Cursor) (passed rest : List Char) : Cursor :=
  ⟨rest, c.position + passed.length, c.line + newlines passed⟩

/-- The cursor behind the gap in front of it. -/
def skipGap (c : Cursor) : Cursor :=
  let (gap, rest) := splitGap false c.rest
  c.pass gap rest

/-- Passes a gap and a lexeme. The outcome is the token or the error of the lexeme, and
`none` when only a gap was left. -/
def step (c : Cursor) : Option (Except LexicalError Token) × Cursor :=
  let c := c.skipGap
  match c.rest with
  | [] => (none, c)
  | first :: rest =>
    let (lexeme, rest) := Lexeme.split first rest
    (some (lexeme.outcome c.line), c.pass lexeme.text rest)

theorem length_rest_skipGap (c : Cursor) : c.skipGap.rest.length ≤ c.rest.length :=
  length_splitGap_snd false c.rest

/-- A step that meets a lexeme leaves less to read. -/
theorem length_rest_step {c next : Cursor} {outcome : Except LexicalError Token}
    (h : c.step = (some outcome, next)) : next.rest.length < c.rest.length := by
  have hgap := c.length_rest_skipGap
  simp only [step] at h
  split at h
  · simp at h
  · next first rest heq =>
    have hsplit := Lexeme.length_split_snd first rest
    simp only [Prod.mk.injEq] at h
    obtain ⟨-, rfl⟩ := h
    rw [heq] at hgap
    exact Nat.lt_of_lt_of_le (Nat.lt_succ_of_le hsplit) hgap

/-- The outcomes of all lexemes from a cursor on, and the cursor at the end. -/
def run (c : Cursor) : List (Except LexicalError Token) × Cursor :=
  match _ : c.step with
  | (none, stop) => ([], stop)
  | (some outcome, next) =>
    let (outcomes, stop) := next.run
    (outcome :: outcomes, stop)
termination_by c.rest.length
decreasing_by exact length_rest_step (by assumption)

/-- The next token after a cursor, with the errors met on the way to it and the cursor behind
it; `none` at the end of the source. -/
def nextToken (c : Cursor) : List LexicalError × Option Token × Cursor :=
  match _ : c.step with
  | (none, stop) => ([], none, stop)
  | (some (.ok token), next) => ([], some token, next)
  | (some (.error e), next) =>
    let (errors, token, stop) := next.nextToken
    (e :: errors, token, stop)
termination_by c.rest.length
decreasing_by exact length_rest_step (by assumption)

end Cursor

end LoxReader
