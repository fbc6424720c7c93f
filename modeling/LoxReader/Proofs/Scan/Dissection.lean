import LoxReader.Proofs.Scan.Gap
import LoxReader.Proofs.Scan.Lexeme
import LoxReader.ScanStream
import Mathlib.Data.List.Forall2

/-! # Dissections

There is one way to take a source apart into gaps and lexemes that are each the longest at
their place. A scan follows it from the first character to the last. -/

namespace LoxReader

open Text

/-- A source taken apart into pieces, each a gap and the lexeme behind it, and a last gap. -/
inductive Dissects : List Char → List (List Char × Lexeme) → List Char → Prop where
  | stop {last} : IsLongestGap last [] → Dissects last [] last
  | piece {gap l rest pieces last} : IsLongestGap gap (l.text ++ rest) → l.IsLongest rest →
      Dissects rest pieces last → Dissects (gap ++ (l.text ++ rest)) ((gap, l) :: pieces) last

/-- The lexemes of pieces, each with the line on which it starts. -/
def placed (line : Int) : List (List Char × Lexeme) → List (Int × Lexeme)
  | [] => []
  | (gap, l) :: pieces =>
    let line := line + newlines gap
    (line, l) :: placed (line + newlines l.text) pieces

theorem forall₂_yields_iff {placed : List (Int × Lexeme)}
    {outcomes : List (Except LexicalError Token)} :
    List.Forall₂ (fun p o => p.2.Yields p.1 o) placed outcomes ↔
      outcomes = placed.map fun p => p.2.outcome p.1 := by
  simp only [Lexeme.yields_iff]
  rw [← List.forall₂_map_left_iff, List.forall₂_eq_eq_eq, eq_comm]

theorem exists_dissects (s : List Char) : ∃ pieces last, Dissects s pieces last := by
  induction hn : s.length using Nat.strongRecOn generalizing s with
  | ind n ih =>
    subst hn
    have happend := splitGap_append_eq false s
    have hgap : IsLongestGap (splitGap false s).1 (splitGap false s).2 := by
      rw [isLongestGap_iff, happend]
    cases hrest : (splitGap false s).2 with
    | nil =>
      rw [hrest] at hgap happend
      rw [List.append_nil] at happend
      exact ⟨[], s, .stop (happend ▸ hgap)⟩
    | cons first tail =>
      obtain ⟨l, rest, hl, htext⟩ := Lexeme.exists_isLongest first tail
      rw [hrest, ← htext] at hgap happend
      have hshorter : rest.length < s.length := by
        have hpos := List.length_pos_iff.mpr hl.text_ne_nil
        have hlength := congrArg List.length happend
        simp only [List.length_append] at hlength
        omega
      obtain ⟨pieces, last, hpieces⟩ := ih rest.length hshorter rest rfl
      have hpiece := Dissects.piece hgap hl hpieces
      rw [happend] at hpiece
      exact ⟨_, last, hpiece⟩

namespace Dissects

variable {s s' : List Char} {pieces pieces' : List (List Char × Lexeme)} {last last' : List Char}

theorem unique (h : Dissects s pieces last) (h' : Dissects s' pieces' last') (hs : s = s') :
    pieces = pieces' ∧ last = last' := by
  -- Only sources that are variables let the second derivation be taken apart by cases.
  induction h generalizing s' pieces' with
  | stop hlast =>
    cases h' with
    | stop => exact ⟨rfl, hs⟩
    | piece hgap hl =>
      have heq := (hlast.unique hgap (by rw [List.append_nil, hs])).2
      exact absurd (List.append_eq_nil_iff.mp heq.symm).1 hl.text_ne_nil
  | piece hgap hl _ ih =>
    cases h' with
    | stop hlast =>
      have heq := (hgap.unique hlast (by rw [List.append_nil, hs])).2
      exact absurd (List.append_eq_nil_iff.mp heq).1 hl.text_ne_nil
    | piece hgap' hl' hpieces =>
      obtain ⟨rfl, htext⟩ := hgap.unique hgap' hs
      obtain ⟨rfl, hrest⟩ := hl.unique hl' htext
      obtain ⟨rfl, hlast⟩ := ih hpieces hrest
      exact ⟨rfl, hlast⟩

end Dissects

/-! ## The scan of a dissected source -/

namespace Cursor

theorem pass_pass (c : Cursor) (s t rest rest' : List Char) :
    (c.pass s rest).pass t rest' = c.pass (s ++ t) rest' := by
  simp only [pass, newlines_append, List.length_append, mk.injEq, true_and]
  omega

theorem skipGap_of_isLongestGap {c : Cursor} {gap rest : List Char} (hgap : IsLongestGap gap rest)
    (hc : c.rest = gap ++ rest) : c.skipGap = c.pass gap rest := by
  rw [skipGap, hc, isLongestGap_iff.mp hgap]

/-- One step passes a gap and the lexeme behind it as a whole. -/
theorem step_of_isLongest {c : Cursor} {gap rest : List Char} {l : Lexeme}
    (hgap : IsLongestGap gap (l.text ++ rest)) (hl : l.IsLongest rest)
    (hc : c.rest = gap ++ (l.text ++ rest)) :
    c.step = (some (l.outcome (c.line + newlines gap)), c.pass (gap ++ l.text) rest) := by
  obtain ⟨first, tail, htext, hsplit⟩ := hl.split
  rw [← c.pass_pass gap l.text (l.text ++ rest) rest]
  simp only [step, skipGap_of_isLongestGap hgap hc, pass, htext, hsplit]

theorem step_of_stop {c : Cursor} {last : List Char} (hlast : IsLongestGap last [])
    (hc : c.rest = last) : c.step = (none, c.pass last []) := by
  have hgap := skipGap_of_isLongestGap hlast (by rw [hc, List.append_nil])
  simp only [step, hgap, pass]

theorem run_of_step_none {c stop : Cursor} (h : c.step = (none, stop)) : c.run = ([], stop) := by
  rw [run]
  split
  · next hstep =>
    rw [h] at hstep
    cases hstep
    rfl
  · next hstep =>
    rw [h] at hstep
    cases hstep

theorem run_of_step_some {c next : Cursor} {o : Except LexicalError Token}
    (h : c.step = (some o, next)) : c.run = (o :: next.run.1, next.run.2) := by
  rw [run]
  split
  · next hstep =>
    rw [h] at hstep
    cases hstep
  · next hstep =>
    rw [h] at hstep
    cases hstep
    rfl

end Cursor

/-- A run passes the whole of what is left, and gives the outcomes of its lexemes in order. -/
theorem Dissects.run {s : List Char} {pieces : List (List Char × Lexeme)} {last : List Char}
    (h : Dissects s pieces last) (c : Cursor) (hc : c.rest = s) :
    c.run = ((placed c.line pieces).map fun p => p.2.outcome p.1, c.pass s []) := by
  induction h generalizing c with
  | stop hlast => exact Cursor.run_of_step_none (Cursor.step_of_stop hlast hc)
  | @piece gap l rest pieces last hgap hl _ ih =>
    have hstep := Cursor.step_of_isLongest hgap hl hc
    rw [Cursor.run_of_step_some hstep, ih _ rfl, Cursor.pass_pass]
    have hline : (c.pass (gap ++ l.text) rest).line = c.line + newlines gap + newlines l.text := by
      simp only [Cursor.pass, newlines_append]
      omega
    rw [hline, List.append_assoc]
    rfl

theorem scan_of_dissects {source last : List Char} {pieces : List (List Char × Lexeme)}
    (h : Dissects source pieces last) :
    scan source =
      let outcomes := (placed 1 pieces).map fun p => p.2.outcome p.1
      ⟨tokensOf outcomes, errorsOf outcomes, ⟨[], source.length, 1 + newlines source⟩⟩ := by
  have hrun := h.run (.atStart source) rfl
  simp only [scan, hrun]
  simp [Cursor.pass, Cursor.atStart]

/-! ## Where tokens and errors come from -/

theorem mem_tokensOf {t : Token} {os : List (Except LexicalError Token)} :
    t ∈ tokensOf os ↔ .ok t ∈ os := by
  induction os with
  | nil => simp
  | cons o os ih => cases o <;> simp [ih]

theorem mem_errorsOf {e : LexicalError} {os : List (Except LexicalError Token)} :
    e ∈ errorsOf os ↔ .error e ∈ os := by
  induction os with
  | nil => simp
  | cons o os ih => cases o <;> simp [ih]

theorem Dissects.exists_isLongest {s last : List Char} {pieces : List (List Char × Lexeme)}
    (h : Dissects s pieces last) (line : Int) :
    ∀ p ∈ placed line pieces,
      ∃ gap rest, IsLongestGap gap (p.2.text ++ rest) ∧ p.2.IsLongest rest := by
  induction h generalizing line with
  | stop => simp [placed]
  | @piece gap l rest pieces last hgap hl _ ih =>
    simp only [placed, List.forall_mem_cons]
    exact ⟨⟨gap, rest, hgap, hl⟩, ih _⟩

/-- Every token of a scan is yielded by a lexeme that is the longest at its place. -/
theorem exists_yields_of_mem_scan {source : List Char} {t : Token}
    (h : t ∈ (scan source).tokens) :
    ∃ (l : Lexeme) (rest : List Char) (line : Int), l.IsLongest rest ∧ l.Yields line (.ok t) := by
  obtain ⟨pieces, last, hpieces⟩ := exists_dissects source
  rw [scan_of_dissects hpieces, mem_tokensOf] at h
  obtain ⟨p, hp, hok⟩ := List.mem_map.mp h
  obtain ⟨-, rest, -, hl⟩ := hpieces.exists_isLongest 1 p hp
  exact ⟨p.2, rest, p.1, hl, Lexeme.yields_iff.mpr hok⟩

/-- No lexeme is the end of the input. -/
theorem Lexeme.Yields.ne_endOfInput {l : Lexeme} {line : Int} {t : Token}
    (h : l.Yields line (.ok t)) {rest : List Char} (hl : l.IsLongest rest) :
    t.kind ≠ .endOfInput := by
  cases h with
  | symbol =>
    have hsingles : ∀ p ∈ TokenKind.singles, p.2 ≠ .endOfInput := by decide
    have hcompounds : ∀ p ∈ TokenKind.compounds,
        p.2.1 ≠ .endOfInput ∧ p.2.2 ≠ .endOfInput := by decide
    cases hl with
    | single hmem => exact hsingles _ hmem
    | compound hmem => exact (hcompounds _ hmem).2
    | alone hmem => exact (hcompounds _ hmem).1
  | @keyword kind hmem =>
    rintro rfl
    exact absurd hmem (by decide)
  | string | numeral | identifier => simp

theorem ne_endOfInput_of_mem_scan {source : List Char} {t : Token}
    (h : t ∈ (scan source).tokens) : t.kind ≠ .endOfInput := by
  obtain ⟨l, rest, line, hl, hyields⟩ := exists_yields_of_mem_scan h
  exact hyields.ne_endOfInput hl

namespace SharedScan

/-- A source is taken apart in exactly one way. Draining a fresh stream gives the token of each
well-formed lexeme and records the error of each malformed one, in order and on their lines, and
passes every character once. -/
theorem drain_fresh_dissects (s : SharedScan) :
    ∃ pieces last, Dissects s.source pieces last ∧
      (∀ pieces' last', Dissects s.source pieces' last' → pieces' = pieces ∧ last' = last) ∧
      ∃ outcomes,
        (∀ outcomes', List.Forall₂ (fun p o => p.2.Yields p.1 o) (placed 1 pieces) outcomes' ↔
          outcomes' = outcomes) ∧
        s.drain .fresh =
          (tokensOf outcomes ++ [.endOn (1 + newlines s.source)],
            { s with
              cursor := ⟨[], s.source.length, 1 + newlines s.source⟩
              errors := errorsOf outcomes }) := by
  obtain ⟨pieces, last, hpieces⟩ := exists_dissects s.source
  have hrun := hpieces.run (.atStart s.source) rfl
  have hstop : (Cursor.atStart s.source).pass s.source [] =
      ⟨[], s.source.length, 1 + newlines s.source⟩ := by
    simp [Cursor.pass, Cursor.atStart]
  rw [hstop] at hrun
  refine ⟨pieces, last, hpieces, fun pieces' last' h => h.unique hpieces rfl, _,
    fun outcomes' => forall₂_yields_iff, ?_⟩
  simp only [drain, resume, restart, advanceToEnd]
  rw [hrun]
  rfl

end SharedScan

end LoxReader
