import LoxReader.Proofs.Expr.Concatenation
import LoxReader.Proofs.Session.Prompt

/-! # Running sources one behind the other

A source that is run without an error leaves no trace in a source that follows it on a new line,
but for the lines that errors of the second one name. -/

namespace LoxReader

open Text

/-- The errors of the expressions of a source. -/
def syntaxErrorsOf (source : List Char) : List SyntaxError :=
  (readAll {} (scan source).allTokens).errors

/-- The text in which errors of expressions are reported. -/
def reportsOf (settings : Settings) (errors : List SyntaxError) : String :=
  errorsTextOf (errors.flatMap fun e => reportEvents settings e.diagnostic)

theorem diagnosticsOf_of_scan {source : List Char} (h : (scan source).errors = []) :
    diagnosticsOf source = (syntaxErrorsOf source).map (·.diagnostic) := by
  simp [diagnosticsOf, syntaxErrorsOf, h]

theorem treesOf_of_scan {source : List Char} (h : (scan source).errors = []) :
    treesOf source = (readAll {} (scan source).allTokens).trees := by
  simp [treesOf, h]

theorem diagnosticsOf_eq_nil_iff {source : List Char} :
    diagnosticsOf source = [] ↔ (scan source).errors = [] ∧ syntaxErrorsOf source = [] := by
  by_cases h : (scan source).errors = []
  · simp [diagnosticsOf_of_scan h, h]
  · simp [diagnosticsOf, h]

theorem reportsOf_syntaxErrorsOf (settings : Settings) {source : List Char}
    (h : (scan source).errors = []) :
    errorsTextOf (runSource settings source).events =
      reportsOf settings (syntaxErrorsOf source) := by
  rw [errorsTextOf_runSource, diagnosticsOf_of_scan h, List.flatMap_map, reportsOf]

/-! ## The seam -/

variable {a b : List Char}

theorem not_unterminatedString (ha : (scan a).errors = []) :
    ∀ line, .unterminatedString line ∉ (scan a).errors := by
  simp [ha]

/-- The tokens of the second source follow those of the first one without the end. -/
theorem allTokens_append_newline (ha : (scan a).errors = []) (b : List Char) :
    (scan (a ++ '\n' :: b)).allTokens =
      (scan a).tokens ++ (scan b).allTokens.map (Token.shift (newlines a + 1)) := by
  obtain ⟨htokens, -, hline⟩ := scan_append_newline b (not_unterminatedString ha)
  rw [Scan.allTokens, htokens, hline, Scan.allTokens, List.map_append, List.append_assoc]
  rfl

theorem readAll_append_newline (ha : diagnosticsOf a = []) (hb : (scan b).errors = [])
    (hfirst : ∀ t ∈ (scan b).tokens.head?, t.kind ∉ binaryOperators) :
    (scan (a ++ '\n' :: b)).errors = [] ∧
      (treesOf (a ++ '\n' :: b)).map Expr.render =
        (treesOf a).map Expr.render ++ (treesOf b).map Expr.render ∧
      syntaxErrorsOf (a ++ '\n' :: b) =
        (syntaxErrorsOf b).map (SyntaxError.shift (newlines a + 1)) := by
  obtain ⟨hscan, hread⟩ := diagnosticsOf_eq_nil_iff.mp ha
  have hjoined : (scan (a ++ '\n' :: b)).errors = [] := by
    obtain ⟨-, herrors, -⟩ := scan_append_newline b (not_unterminatedString hscan)
    simp [herrors, hscan, hb]
  have hrest : ∀ t ∈ ((scan b).allTokens.map (Token.shift (newlines a + 1))).head?,
      t.kind ∉ binaryOperators := by
    rw [Scan.allTokens]
    cases htokens : (scan b).tokens with
    | nil =>
      intro t ht
      obtain rfl := Option.some.inj ht
      simp [Token.shift, Token.endOn, binaryOperators]
    | cons first tokens =>
      intro t ht
      obtain rfl := Option.some.inj ht
      exact hfirst first (by simp [htokens])
  have hall := readAll_append (fun t => ne_endOfInput_of_mem_scan) hread hrest
  obtain ⟨htrees, herrors⟩ := readAll_map_shift (newlines a + 1) (scan b).allTokens {}
    (Place.after {} (scan a).tokens)
  refine ⟨hjoined, ?_, ?_⟩
  · rw [treesOf_of_scan hjoined, treesOf_of_scan hscan, treesOf_of_scan hb,
      allTokens_append_newline hscan, hall, List.map_append, htrees]
    rfl
  · rw [syntaxErrorsOf, allTokens_append_newline hscan, hall]
    exact herrors

namespace Session

/-- A source without an error, a newline and a second source are run like one after the other. The
second one has to consist of tokens and must not start with a binary operator, which would join it
to the first one. Its errors are reported on later lines. -/
theorem run_append_newline (settings : Settings) (hshow : settings.showTokens = false)
    (ha : ((fresh settings).run a).1 = true) (hb : (scan b).errors = [])
    (hfirst : ∀ t ∈ (scan b).tokens.head?, t.kind ∉ binaryOperators) :
    outputOf ((fresh settings).run (a ++ '\n' :: b)).2.1 =
        outputOf ((fresh settings).run a).2.1 ++ outputOf ((fresh settings).run b).2.1 ∧
      ((fresh settings).run (a ++ '\n' :: b)).1 = ((fresh settings).run b).1 ∧
      syntaxErrorsOf (a ++ '\n' :: b) =
        (syntaxErrorsOf b).map (SyntaxError.shift (newlines a + 1)) ∧
      errorsTextOf ((fresh settings).run b).2.1 = reportsOf settings (syntaxErrorsOf b) ∧
      errorsTextOf ((fresh settings).run (a ++ '\n' :: b)).2.1 =
        reportsOf settings (syntaxErrorsOf (a ++ '\n' :: b)) := by
  have hsucceeded : diagnosticsOf a = [] := by
    have h : (runSource settings a).succeeded = true := ha
    rwa [succeeded_runSource, List.isEmpty_iff] at h
  obtain ⟨hjoined, htrees, herrors⟩ := readAll_append_newline hsucceeded hb hfirst
  have hout (source : List Char) : outputOf ((fresh settings).run source).2.1 =
      String.join (((treesOf source).map Expr.render).map (· ++ "\n")) := by
    have h : outputOf ((fresh settings).run source).2.1 = _ := outputOf_runSource settings source
    rw [hshow] at h
    simpa [List.map_map, Function.comp_def] using h
  refine ⟨?_, ?_, herrors, reportsOf_syntaxErrorsOf settings hb,
    reportsOf_syntaxErrorsOf settings hjoined⟩
  · rw [hout, hout, hout, htrees, List.map_append, String.join_append]
  · have hsame : (diagnosticsOf (a ++ '\n' :: b)).isEmpty = (diagnosticsOf b).isEmpty := by
      rw [diagnosticsOf_of_scan hjoined, diagnosticsOf_of_scan hb, herrors]
      simp
    rw [← succeeded_runSource settings, ← succeeded_runSource settings] at hsame
    exact hsame

/-- A string over two lines, then a comment at the seam. The group that is never closed is two lines
further down than in the second source alone. -/
theorem run_append_newline_comment :
    outputOf ((fresh {}).run "1 + \"x\ny\" // c\n2\n(3 4".toList).2.1 =
        "(Binary + (Literal 1) (Literal \"x\ny\"))\n(Literal 2)\n" ∧
      ((fresh {}).run "1 + \"x\ny\" // c\n2\n(3 4".toList).1 = false ∧
      syntaxErrorsOf "1 + \"x\ny\" // c\n2\n(3 4".toList = [.unclosedGroup 4 4] := by
  let a := "1 + \"x\ny\" // c".toList
  let b := "2\n(3 4".toList
  have ha : ((fresh {}).run a).1 = true := by decide +kernel
  have hb : (scan b).errors = [] := by decide +kernel
  have hfirst : ∀ t ∈ (scan b).tokens.head?, t.kind ∉ binaryOperators := by decide +kernel
  have houta : outputOf ((fresh {}).run a).2.1 =
      "(Binary + (Literal 1) (Literal \"x\ny\"))\n" := by decide +kernel
  have houtb : outputOf ((fresh {}).run b).2.1 = "(Literal 2)\n" := by decide +kernel
  have hresult : ((fresh {}).run b).1 = false := by decide +kernel
  have herrors : syntaxErrorsOf b = [.unclosedGroup 2 2] := by decide +kernel
  have hlines : newlines a = 1 := by decide
  obtain ⟨hout, hsame, hshift, -, -⟩ := run_append_newline {} rfl ha hb hfirst
  rw [houta, houtb] at hout
  rw [hresult] at hsame
  rw [herrors, hlines] at hshift
  exact ⟨hout, hsame, hshift⟩

end Session

end LoxReader
