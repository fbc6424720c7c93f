import LoxReader.Proofs.Text.LineBreak
import LoxReader.Session

/-! # Reports as lines

A diagnostic whose texts do not break is reported on one line, and explained on three more. -/

namespace LoxReader

open Text

namespace Diagnostic

/-- A diagnostic with a code and a help in which no text breaks. -/
structure FillsLines (d : Diagnostic) : Prop where
  message : OneLine d.message.toList
  severity : d.severity = "error"
  code : ∃ code, d.code = some code ∧ code ≠ "" ∧ OneLine code.toList
  help : ∃ help, d.help = some help ∧ help ≠ "" ∧ OneLine help.toList

/-- The line on which a diagnostic is reported. -/
def reportLine (d : Diagnostic) : String :=
  "[line " ++ toString d.line ++ "] Error: " ++ d.message

/-- The three lines that explain a diagnostic with a code and a help. -/
def explanation (d : Diagnostic) : List String :=
  ["ERROR[" ++ d.code.getD "" ++ "]: " ++ d.message, "  --> line " ++ toString d.line,
    "  help: " ++ d.help.getD ""]

/-- The lines that are written for a diagnostic. -/
def lines (explain : Bool) (d : Diagnostic) : List String :=
  d.reportLine :: if explain then d.explanation else []

theorem length_lines (explain : Bool) (d : Diagnostic) :
    (d.lines explain).length = if explain then 4 else 1 := by
  cases explain <;> rfl

theorem upper_error : upper "error" = "ERROR" := by
  decide +kernel

theorem report_eq (d : Diagnostic) : d.report = d.reportLine ++ "\n" :=
  rfl

theorem FillsLines.text_eq {d : Diagnostic} (h : d.FillsLines) :
    d.text = String.join (d.explanation.map (· ++ "\n")) := by
  obtain ⟨code, hcode, hcodeNe, -⟩ := h.code
  obtain ⟨help, hhelp, hhelpNe, -⟩ := h.help
  rw [← String.toList_inj]
  simp [text, explanation, h.severity, upper_error, hcode, hhelp, hcodeNe, hhelpNe]

theorem FillsLines.oneLine_reportLine {d : Diagnostic} (h : d.FillsLines) :
    OneLine d.reportLine.toList := by
  simp only [reportLine, String.toList_append, oneLine_append]
  exact ⟨⟨⟨by decide, oneLine_toString d.line⟩, by decide⟩, h.message⟩

theorem FillsLines.oneLine_explanation {d : Diagnostic} (h : d.FillsLines) :
    ∀ line ∈ d.explanation, OneLine line.toList := by
  obtain ⟨code, hcode, -, hcodeLine⟩ := h.code
  obtain ⟨help, hhelp, -, hhelpLine⟩ := h.help
  simp only [explanation, hcode, hhelp, Option.getD_some, List.forall_mem_cons,
    String.toList_append, oneLine_append]
  exact ⟨⟨⟨⟨by decide, hcodeLine⟩, by decide⟩, h.message⟩, ⟨by decide, oneLine_toString d.line⟩,
    ⟨by decide, hhelpLine⟩, by simp⟩

theorem FillsLines.oneLine_lines {d : Diagnostic} (h : d.FillsLines) (explain : Bool) :
    ∀ line ∈ d.lines explain, OneLine line.toList := by
  rw [lines, List.forall_mem_cons]
  refine ⟨h.oneLine_reportLine, ?_⟩
  cases explain with
  | false => simp
  | true => exact h.oneLine_explanation

theorem FillsLines.errorsTextOf_reportEvents {d : Diagnostic} (h : d.FillsLines)
    (settings : Settings) :
    errorsTextOf (reportEvents settings d) =
      String.join ((d.lines settings.explain).map (· ++ "\n")) := by
  cases hexplain : settings.explain <;>
    simp [reportEvents, lines, hexplain, report_eq, h.text_eq]

end Diagnostic

/-- Lines without breaks, each with a newline behind it, are shown as they are. -/
theorem shownLines_join {lines : List String} (h : ∀ line ∈ lines, OneLine line.toList) :
    shownLines (String.join (lines.map (· ++ "\n"))).toList = lines.map String.toList := by
  induction lines with
  | nil => simp [shownLines]
  | cons line lines ih =>
    obtain ⟨hline, hlines⟩ := List.forall_mem_cons.mp h
    have hnewline : "\n".toList = ['\n'] := rfl
    rw [List.map_cons, String.join_cons, String.toList_append, String.toList_append, hnewline,
      List.append_assoc, List.singleton_append, shownLines_append_newline hline, ih hlines,
      List.map_cons]

/-- Reports of diagnostics show the lines of each of them, one behind the other. -/
theorem shownLines_reports (settings : Settings) {ds : List Diagnostic}
    (h : ∀ d ∈ ds, d.FillsLines) :
    shownLines (errorsTextOf (ds.flatMap (reportEvents settings))).toList =
      (ds.flatMap (Diagnostic.lines settings.explain)).map String.toList := by
  have htext : errorsTextOf (ds.flatMap (reportEvents settings)) =
      String.join ((ds.flatMap (Diagnostic.lines settings.explain)).map (· ++ "\n")) := by
    induction ds with
    | nil => rfl
    | cons d ds ih =>
      obtain ⟨hd, hds⟩ := List.forall_mem_cons.mp h
      simp [hd.errorsTextOf_reportEvents, ih hds]
  rw [htext]
  apply shownLines_join
  intro line hline
  obtain ⟨d, hd, hline⟩ := List.mem_flatMap.mp hline
  exact (h d hd).oneLine_lines _ line hline

end LoxReader
