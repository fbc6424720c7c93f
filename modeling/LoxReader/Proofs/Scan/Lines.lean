import LoxReader.Proofs.Scan.Dissection

/-! # Lines

Every token and every error is on the line where its lexeme starts: one more than the number of
newlines in front of it. The counter may have been moved by blanks, by comments, by the body of a
string or by what came before an error. -/

namespace LoxReader

open Text

/-! ## Where lexemes start -/

/-- The line of the character at an offset. -/
def lineAt (source : List Char) (offset : Nat) : Int :=
  1 + newlines (source.take offset)

/-- The lexemes of pieces that start at an offset, each with the offset of its first character. -/
def startsFrom (offset : Nat) : List (List Char × Lexeme) → List (Nat × Lexeme)
  | [] => []
  | (gap, l) :: pieces =>
    let start := offset + gap.length
    (start, l) :: startsFrom (start + l.text.length) pieces

/-- The line of a token or of an error. -/
def outcomeLine : Except LexicalError Token → Int
  | .ok t => t.line
  | .error e => e.line

@[simp] theorem lineAt_append (passed s : List Char) :
    lineAt (passed ++ s) passed.length = 1 + newlines passed := by
  rw [lineAt, List.take_left]

/-- The running count of a dissection agrees with the count from the start of the source. -/
theorem Dissects.placed_eq {s last : List Char} {pieces : List (List Char × Lexeme)}
    (h : Dissects s pieces last) (passed : List Char) :
    placed (1 + newlines passed) pieces =
      (startsFrom passed.length pieces).map fun p => (lineAt (passed ++ s) p.1, p.2) := by
  induction h generalizing passed with
  | stop => rfl
  | @piece gap l rest pieces last _ _ _ ih =>
    have hgap : lineAt (passed ++ (gap ++ (l.text ++ rest))) (passed.length + gap.length) =
        1 + newlines passed + newlines gap := by
      rw [← List.append_assoc, ← List.length_append, lineAt_append, newlines_append]
      push_cast
      omega
    have hrest : placed (1 + newlines (passed ++ gap ++ l.text)) pieces = _ :=
      ih (passed ++ gap ++ l.text)
    simp only [newlines_append, List.length_append, List.append_assoc] at hrest
    simp only [placed, startsFrom, List.map_cons, hgap, Nat.add_assoc]
    rw [← hrest]
    push_cast
    simp only [Int.add_assoc]

/-- The lexemes of a dissection stand in the source where they start. -/
theorem Dissects.text_prefix {s last : List Char} {pieces : List (List Char × Lexeme)}
    (h : Dissects s pieces last) (passed : List Char) :
    ∀ p ∈ startsFrom passed.length pieces, p.2.text <+: (passed ++ s).drop p.1 := by
  induction h generalizing passed with
  | stop => simp [startsFrom]
  | @piece gap l rest pieces last _ _ _ ih =>
    intro p hp
    have hsplit : passed ++ (gap ++ (l.text ++ rest)) = (passed ++ gap) ++ (l.text ++ rest) := by
      rw [List.append_assoc]
    simp only [startsFrom, List.mem_cons] at hp
    rcases hp with rfl | hp
    · rw [hsplit, ← List.length_append, List.drop_left]
      exact List.prefix_append l.text rest
    · have hrest := ih (passed ++ gap ++ l.text)
      simp only [List.length_append, List.append_assoc] at hrest
      rw [Nat.add_assoc] at hp
      exact hrest p hp

namespace Lexeme

/-- What a lexeme yields is on the line of the lexeme. -/
theorem Yields.outcomeLine_eq {line : Int} {l : Lexeme} {o : Except LexicalError Token}
    (h : l.Yields line o) : outcomeLine o = line := by
  cases h <;> rfl

end Lexeme

/-! ## The lines of a scan -/

/-- A token or an error stands on the right line for a lexeme that starts at an offset. -/
structure OnItsLine (source : List Char) (start : Nat × Lexeme)
    (outcome : Except LexicalError Token) : Prop where
  stands : start.2.text <+: source.drop start.1
  yields : start.2.Yields (lineAt source start.1) outcome
  line_eq : outcomeLine outcome = 1 + newlines (source.take start.1)

theorem Dissects.onItsLine {source last : List Char} {pieces : List (List Char × Lexeme)}
    (h : Dissects source pieces last) :
    List.Forall₂ (OnItsLine source) (startsFrom 0 pieces)
      ((placed 1 pieces).map fun p => p.2.outcome p.1) := by
  have hplaced : placed (1 + newlines []) pieces = _ := h.placed_eq []
  have hstands := h.text_prefix []
  simp only [List.length_nil, List.nil_append] at hplaced hstands
  have hone : ((1 : Int) + newlines []) = 1 := rfl
  rw [hone] at hplaced
  rw [hplaced, List.map_map, List.forall₂_map_right_iff, List.forall₂_same]
  intro p hp
  have hyields := Lexeme.yields_outcome (lineAt source p.1) p.2
  exact ⟨hstands p hp, hyields, hyields.outcomeLine_eq⟩

namespace SharedScan

/-- Draining a fresh stream puts every token and every error on the line where its lexeme starts,
and the end, with the cursor, on the line behind all newlines of the source. -/
theorem drain_fresh_lines (s : SharedScan) :
    ∃ pieces last outcomes, Dissects s.source pieces last ∧
      List.Forall₂ (OnItsLine s.source) (startsFrom 0 pieces) outcomes ∧
      (s.drain .fresh).1 = tokensOf outcomes ++ [.endOn (1 + newlines s.source)] ∧
      (s.drain .fresh).2.errors = errorsOf outcomes ∧
      (s.drain .fresh).2.cursor.line = 1 + newlines s.source := by
  obtain ⟨pieces, last, hpieces⟩ := exists_dissects s.source
  have hrun := hpieces.run (.atStart s.source) rfl
  refine ⟨pieces, last, _, hpieces, hpieces.onItsLine, ?_, ?_, ?_⟩
  all_goals
    simp only [drain, resume, restart, advanceToEnd]
    rw [hrun]
    rfl

end SharedScan

end LoxReader
