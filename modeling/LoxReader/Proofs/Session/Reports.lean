import LoxReader.Proofs.Expr.ErrorLines
import LoxReader.Proofs.Scan.Reports
import LoxReader.Proofs.Session.Concatenation

/-! # What a run reports

Every error of a run is reported on one line, or on four when it is explained. The reports stand in
the order of the lines that they name, and these are lines of the source. -/

namespace LoxReader

open Text

namespace SyntaxError

variable {tokens : List Token} {e : SyntaxError}

/-- An error that is found in tokens shows at most a token that stands for no literal. -/
theorem FoundIn.fillsLines (h : e.FoundIn tokens)
    (hdisplay : ∀ t ∈ tokens, t.literal? = none → OneLine t.display.toList) :
    e.diagnostic.FillsLines := by
  cases h with
  | @unclosedGroup t openLine =>
    refine ⟨?_, rfl, ⟨"P001", rfl, by decide, by decide⟩, ⟨_, rfl, by simp, ?_⟩⟩
    · unfold diagnostic message
      simp only [String.toList_append, oneLine_append]
      exact ⟨⟨⟨by decide +kernel, oneLine_toString t.line⟩, by decide +kernel⟩,
        oneLine_toString openLine⟩
    · simp only [String.toList_append, oneLine_append]
      exact ⟨⟨by decide +kernel, oneLine_toString openLine⟩, by decide +kernel⟩
  | @notAnOperand t ht hliteral =>
    refine ⟨?_, rfl, ⟨"P002", rfl, by decide, by decide⟩,
      ⟨_, rfl, by decide +kernel, by decide +kernel⟩⟩
    unfold diagnostic message
    simp only [String.toList_append, oneLine_append]
    exact ⟨⟨⟨by decide +kernel, hdisplay t ht hliteral⟩, by decide⟩, oneLine_toString t.line⟩
  | @missingOperand t =>
    refine ⟨?_, rfl, ⟨"P003", rfl, by decide, by decide⟩,
      ⟨_, rfl, by decide +kernel, by decide +kernel⟩⟩
    unfold diagnostic message
    simp only [String.toList_append, oneLine_append]
    exact ⟨⟨by decide +kernel, oneLine_toString t.line⟩, by decide +kernel⟩
  | @emptyGroup t =>
    refine ⟨?_, rfl, ⟨"P004", rfl, by decide, by decide⟩,
      ⟨_, rfl, by decide +kernel, by decide +kernel⟩⟩
    unfold diagnostic message
    simp only [String.toList_append, oneLine_append]
    exact ⟨by decide +kernel, oneLine_toString t.line⟩

end SyntaxError

theorem exists_endOfInput (source : List Char) :
    ∃ t ∈ (scan source).allTokens, t.kind = .endOfInput :=
  ⟨.endOn (scan source).stop.line, List.mem_append_right _ List.mem_cons_self, rfl⟩

/-- The errors of the expressions of a source are found in its tokens, in the order of their
lines. -/
theorem foundIn_and_ascendTo_syntaxErrorsOf (source : List Char) :
    (∀ e ∈ syntaxErrorsOf source, e.FoundIn (scan source).allTokens) ∧
      AscendTo (1 + newlines source) ((syntaxErrorsOf source).map (·.line)) := by
  have htokens := (scan_ascendTo source).1
  have herrors : (ExprReader.fresh (scan source).allTokens).readRest.2.errors =
      syntaxErrorsOf source := rfl
  obtain ⟨hfound, hsorted⟩ := ExprReader.foundIn_and_pairwise_errors_readRest
    (exists_endOfInput source) (List.pairwise_map.mp htokens.pairwise)
  rw [herrors] at hfound hsorted
  refine ⟨hfound, List.pairwise_map.mpr hsorted, ?_⟩
  rw [List.forall_mem_map]
  intro e he
  obtain ⟨t, ht, hline⟩ := (hfound e he).exists_line
  rw [hline]
  exact htokens.within t.line (List.mem_map_of_mem ht)

/-- What a run reports fills lines, and names lines of the source in their order. -/
theorem fillsLines_and_ascendTo_diagnosticsOf (source : List Char) :
    (∀ d ∈ diagnosticsOf source, d.FillsLines) ∧
      AscendTo (1 + newlines source) ((diagnosticsOf source).map (·.line)) := by
  by_cases h : (scan source).errors = []
  · obtain ⟨hfound, hlines⟩ := foundIn_and_ascendTo_syntaxErrorsOf source
    rw [diagnosticsOf_of_scan h, List.forall_mem_map, List.map_map]
    exact ⟨fun e he => (hfound e he).fillsLines fun t => oneLine_display_of_mem_allTokens, hlines⟩
  · have hlexical : diagnosticsOf source = (scan source).errors.map (·.diagnostic) := by
      simp [diagnosticsOf, h]
    rw [hlexical, List.forall_mem_map, List.map_map]
    exact ⟨fun e => fillsLines_of_mem_scan, (scan_ascendTo source).2⟩

theorem length_flatMap_lines (explain : Bool) (ds : List Diagnostic) :
    (ds.flatMap (Diagnostic.lines explain)).length = ds.length * if explain then 4 else 1 := by
  simp [List.length_flatMap, Diagnostic.length_lines]

namespace Session

/-- The error stream of a run shows one line for each error that it reports, or four lines when
errors are explained, as no message breaks a line, wherever it may be shown. The lines of the source
that the reports name ascend, and a run succeeds exactly when it reports nothing. -/
theorem run_reports (settings : Settings) (source : List Char) :
    let errors := errorsTextOf ((fresh settings).run source).2.1
    (∀ c, isLineBreak c = true → isBlank c = true ∧ isLetter c = false) ∧
      (∀ d ∈ diagnosticsOf source, ∀ c ∈ d.message.toList, isLineBreak c = false) ∧
      shownLines errors.toList =
        ((diagnosticsOf source).flatMap (Diagnostic.lines settings.explain)).map String.toList ∧
      (shownLines errors.toList).length =
        (diagnosticsOf source).length * (if settings.explain then 4 else 1) ∧
      AscendTo (1 + newlines source) ((diagnosticsOf source).map (·.line)) ∧
      (((fresh settings).run source).1 = true ↔ errors = "") := by
  intro errors
  obtain ⟨hfills, hlines⟩ := fillsLines_and_ascendTo_diagnosticsOf source
  have herrors : errors = errorsTextOf ((diagnosticsOf source).flatMap (reportEvents settings)) :=
    errorsTextOf_runSource settings source
  have hshown : shownLines errors.toList = _ := herrors ▸ shownLines_reports settings hfills
  have hlength : (shownLines errors.toList).length =
      (diagnosticsOf source).length * (if settings.explain then 4 else 1) := by
    rw [hshown, List.length_map, length_flatMap_lines]
  refine ⟨?_, fun d hd => (hfills d hd).message, hshown, hlength, hlines, ?_⟩
  · intro c hc
    have hblank := isBlank_of_isLineBreak hc
    exact ⟨hblank, isLetter_of_isBlank hblank⟩
  · have hsucceeded : ((fresh settings).run source).1 = (diagnosticsOf source).isEmpty :=
      succeeded_runSource settings source
    rw [hsucceeded, List.isEmpty_iff]
    constructor
    · intro hnil
      rw [herrors, hnil]
      rfl
    · intro hempty
      rw [hempty] at hlength
      have hzero : (0 : Nat) = (diagnosticsOf source).length * _ := hlength
      apply List.eq_nil_of_length_eq_zero
      split at hzero <;> omega

end Session

end LoxReader
