import LoxReader.Proofs.Session.Run
import Mathlib.Data.List.Basic

/-! # Prompts and calls

A prompt runs each line of its input as a session of its own would. More generally, whatever calls
a session has seen, a run depends on nothing but its source and the settings, and the session only
remembers whether an error was reported since the last line of a prompt was completed. -/

namespace LoxReader

open Text

/-! ## Lines of an input -/

/-- The lines of an input, each with the newline that ends it. What follows the last newline is a
line without one, unless it is empty. -/
inductive IsLines : List Char → List (List Char) → Prop where
  | nil : IsLines [] []
  | last {line} : line ≠ [] → '\n' ∉ line → IsLines line [line]
  | cons {line rest lines} : '\n' ∉ line → IsLines rest lines →
      IsLines (line ++ '\n' :: rest) ((line ++ ['\n']) :: lines)

theorem splitLine_append {line rest : List Char} (h : '\n' ∉ line) :
    splitLine (line ++ '\n' :: rest) = (line ++ ['\n'], rest) := by
  induction line with
  | nil => simp [splitLine]
  | cons c line ih =>
    rw [List.mem_cons, not_or] at h
    simp [splitLine, Ne.symm h.1, ih h.2]

theorem splitLine_of_not_mem {line : List Char} (h : '\n' ∉ line) :
    splitLine line = (line, []) := by
  induction line with
  | nil => rfl
  | cons c line ih =>
    rw [List.mem_cons, not_or] at h
    simp [splitLine, Ne.symm h.1, ih h.2]

theorem inputLines_of_ne_nil {input : List Char} (h : input ≠ []) :
    inputLines input = (splitLine input).1 :: inputLines (splitLine input).2 := by
  cases input with
  | nil => exact absurd rfl h
  | cons c rest => rw [inputLines]

theorem IsLines.inputLines_eq {input : List Char} {lines : List (List Char)}
    (h : IsLines input lines) : inputLines input = lines := by
  induction h with
  | nil => simp [inputLines]
  | last hne hline => simp [inputLines_of_ne_nil hne, splitLine_of_not_mem hline, inputLines]
  | @cons line rest lines hline _ ih =>
    rw [inputLines_of_ne_nil (by simp), splitLine_append hline, ih]

theorem isLines_inputLines (input : List Char) : IsLines input (inputLines input) := by
  fun_induction inputLines input with
  | case1 => exact .nil
  | case2 c rest ih =>
    by_cases hmem : '\n' ∈ c :: rest
    · obtain ⟨line, more, hsplit, hline⟩ := List.eq_append_cons_of_mem hmem
      rw [hsplit, splitLine_append hline] at ih ⊢
      exact .cons hline ih
    · rw [splitLine_of_not_mem hmem, inputLines]
      exact .last (by simp) hmem

/-! ## Prompts -/

namespace Session

/-- A session that has seen no calls. -/
def fresh (settings : Settings) (input : List Char := []) : Session where
  settings := settings
  input := input

theorem runLine_fst (s : Session) (line : List Char) :
    (s.runLine line).1 = ((fresh s.settings).run line).2.1 := rfl

theorem settings_runLine (s : Session) (line : List Char) :
    (s.runLine line).2.settings = s.settings := rfl

theorem settings_runLines (s : Session) (lines : List (List Char)) :
    (s.runLines lines).2.settings = s.settings := by
  induction lines generalizing s with
  | nil => rfl
  | cons line lines ih => exact ih _

/-- Each line is run as by a fresh session. -/
theorem texts_runLines (s : Session) (lines : List (List Char)) :
    outputOf (s.runLines lines).1 = String.join (lines.map fun line =>
        s.settings.prompt ++ outputOf ((fresh s.settings).run line).2.1) ∧
      errorsTextOf (s.runLines lines).1 =
        String.join (lines.map fun line => errorsTextOf ((fresh s.settings).run line).2.1) := by
  induction lines generalizing s with
  | nil => exact ⟨rfl, rfl⟩
  | cons line lines ih =>
    obtain ⟨hout, herr⟩ := ih (s.runLine line).2
    rw [settings_runLine] at hout herr
    constructor
    · simp [runLines, hout, runLine_fst, String.append_assoc]
    · simp [runLines, herr, runLine_fst]

theorem hadError_runLines (s : Session) (lines : List (List Char)) :
    (s.runLines lines).2.hadError = if lines = [] then s.hadError else false := by
  induction lines generalizing s with
  | nil => rfl
  | cons line lines ih => simp [runLines, ih, runLine]

/-! ## Calls -/

/-- A call of a session. The contents of a file are given with its path. -/
inductive Call where
  | run (source : List Char)
  | runFile (path : String) (contents : Except FileError (List UInt8))
  | runPrompt
  | report (d : Diagnostic)

/-- What a call writes and leaves behind. -/
def perform (s : Session) : Call → List Event × Session
  | .run source => (s.run source).2
  | .runFile path contents => (s.runFile path contents).2
  | .runPrompt => s.runPrompt.2
  | .report d => s.report d

def performAll (s : Session) (calls : List Call) : Session :=
  calls.foldl (fun s call => (s.perform call).2) s

/-- The source that running a file runs, if the file can be opened and decoded. -/
def fileSource? (path : String) (contents : Except FileError (List UInt8)) : Option (List Char) :=
  if Char.ofNat 0 ∈ path.toList then none
  else
    match contents with
    | .error _ => none
    | .ok bytes =>
      match Text.Utf8.decode bytes with
      | .error _ => none
      | .ok text => some (unifyLineEndings text)

/-- What is written about a file that cannot be opened. -/
def fileMessage (path : String) (contents : Except FileError (List UInt8)) : String :=
  if Char.ofNat 0 ∈ path.toList then ""
  else
    match contents with
    | .error e => "Could not read " ++ path ++ ": " ++ e.message ++ "\n"
    | .ok _ => ""

theorem runFile_of_some {path : String} {contents : Except FileError (List UInt8)}
    {source : List Char} (h : fileSource? path contents = some source) (s : Session) :
    (s.runFile path contents).2.2 = (s.run source).2.2 ∧
      outputOf (s.runFile path contents).2.1 = outputOf (s.run source).2.1 ∧
      errorsTextOf (s.runFile path contents).2.1 = errorsTextOf (s.run source).2.1 ∧
      fileMessage path contents = "" := by
  simp only [fileSource?] at h
  split at h
  · cases h
  · next hnull =>
    split at h
    · cases h
    · next bytes =>
      split at h
      · cases h
      · next text hdecode =>
        obtain rfl := Option.some.inj h
        simp [runFile, fileMessage, hnull, hdecode]

theorem runFile_of_none {path : String} {contents : Except FileError (List UInt8)}
    (h : fileSource? path contents = none) (s : Session) :
    (s.runFile path contents).2.2 = s ∧
      errorsTextOf (s.runFile path contents).2.1 = fileMessage path contents := by
  simp only [fileSource?] at h
  split at h
  · next hnull => simp [runFile, fileMessage, hnull]
  · next hnull =>
    split at h
    · simp [runFile, fileMessage, hnull]
    · next bytes =>
      split at h
      · next fault hdecode => simp [runFile, fileMessage, hnull, hdecode]
      · cases h

/-! ## What a session remembers -/

/-- What a call does that matters for what the session remembers: it reports an error, or it
completes a line of a prompt. -/
inductive Mark where
  | reported (d : Diagnostic)
  | lineDone

/-- The marks of running a source. -/
def runMarks (source : List Char) : List Mark :=
  (diagnosticsOf source).map .reported

def marks (s : Session) : Call → List Mark
  | .run source => runMarks source
  | .runFile path contents => ((fileSource? path contents).map runMarks).getD []
  | .runPrompt => (inputLines s.input).flatMap fun line => runMarks line ++ [.lineDone]
  | .report d => [.reported d]

def marksOfAll (s : Session) : List Call → List Mark
  | [] => []
  | call :: calls => s.marks call ++ (s.perform call).2.marksOfAll calls

/-- Whether an error is open behind marks, given whether one was open before. -/
def openBehind (before : Bool) (marks : List Mark) : Bool :=
  marks.foldl (fun _ mark => match mark with | .reported _ => true | .lineDone => false) before

theorem openBehind_append (before : Bool) (ms ms' : List Mark) :
    openBehind before (ms ++ ms') = openBehind (openBehind before ms) ms' :=
  List.foldl_append

theorem openBehind_runMarks (before : Bool) (source : List Char) :
    openBehind before (runMarks source) = (before || !(diagnosticsOf source).isEmpty) := by
  rw [runMarks]
  generalize diagnosticsOf source = ds
  induction ds generalizing before with
  | nil => simp [openBehind]
  | cons d ds ih =>
    have h := ih true
    simp only [openBehind, List.map_cons, List.foldl_cons] at h ⊢
    simp [h]

theorem openBehind_lines (before : Bool) (lines : List (List Char)) :
    openBehind before (lines.flatMap fun line => runMarks line ++ [.lineDone]) =
      if lines = [] then before else false := by
  induction lines generalizing before with
  | nil => rfl
  | cons line lines ih =>
    rw [List.flatMap_cons, openBehind_append, ih, openBehind_append]
    simp [openBehind]

theorem hadError_run (s : Session) (source : List Char) :
    (s.run source).2.2.hadError = openBehind s.hadError (runMarks source) := by
  rw [openBehind_runMarks, ← succeeded_runSource s.settings]
  rfl

/-- One call. -/
theorem hadError_perform (s : Session) (call : Call) :
    (s.perform call).2.hadError = openBehind s.hadError (s.marks call) := by
  cases call with
  | run source => exact s.hadError_run source
  | runFile path contents =>
    cases h : fileSource? path contents with
    | none =>
      simp only [perform, marks, h, (runFile_of_none h s).1]
      rfl
    | some source =>
      simp only [perform, marks, h, (runFile_of_some h s).1]
      exact s.hadError_run source
  | runPrompt =>
    simp only [marks, openBehind_lines, ← s.hadError_runLines]
    rfl
  | report d => rfl

theorem settings_perform (s : Session) (call : Call) :
    (s.perform call).2.settings = s.settings := by
  cases call with
  | run source => rfl
  | runFile path contents =>
    cases h : fileSource? path contents with
    | none => simp only [perform, (runFile_of_none h s).1]
    | some source =>
      simp only [perform, (runFile_of_some h s).1]
      rfl
  | runPrompt => exact s.settings_runLines (inputLines s.input)
  | report d => rfl

theorem runLines_congr {s s' : Session} (h : s.settings = s'.settings)
    (lines : List (List Char)) : (s.runLines lines).1 = (s'.runLines lines).1 := by
  induction lines generalizing s s' with
  | nil => rfl
  | cons line lines ih =>
    have hbehind : (s.runLine line).2.settings = (s'.runLine line).2.settings := h
    have hlater := ih hbehind
    simp only [runLines, runLine_fst, h, hlater]

/-- What a call writes depends only on the settings, and for a prompt on the input. -/
theorem perform_congr {s s' : Session} (h : s.settings = s'.settings) (hinput : s.input = s'.input)
    (call : Call) : (s.perform call).1 = (s'.perform call).1 := by
  cases call with
  | run source => simp [perform, run, h]
  | runFile path contents =>
    simp only [perform, runFile]
    split
    · rfl
    · split
      · rfl
      · split
        · rfl
        · simp [run, h]
  | runPrompt => simp [perform, runPrompt, h, hinput, runLines_congr h]
  | report d => simp [perform, report, h]

/-- Any calls. -/
theorem performAll_spec (s : Session) (calls : List Call) :
    (s.performAll calls).settings = s.settings ∧
      (s.performAll calls).hadError = openBehind s.hadError (s.marksOfAll calls) := by
  induction calls generalizing s with
  | nil => exact ⟨rfl, rfl⟩
  | cons call calls ih =>
    obtain ⟨hsettings, herror⟩ := ih (s.perform call).2
    constructor
    · exact hsettings.trans (s.settings_perform call)
    · rw [marksOfAll, openBehind_append, ← hadError_perform]
      exact herror

/-- An error is open exactly when one was reported behind the last completed line. -/
theorem openBehind_iff (ms : List Mark) :
    openBehind false ms = true ↔
      ∃ earlier d later, ms = earlier ++ .reported d :: later ∧ .lineDone ∉ later := by
  -- Only the last mark counts.
  rcases List.eq_nil_or_concat' ms with rfl | ⟨ms, mark, rfl⟩
  · simp [openBehind]
  · cases mark with
    | reported d =>
      have hopen : openBehind false (ms ++ [.reported d]) = true := by simp [openBehind]
      exact iff_of_true hopen ⟨ms, d, [], rfl, by simp⟩
    | lineDone =>
      have hopen : openBehind false (ms ++ [.lineDone]) = false := by simp [openBehind]
      rw [hopen]
      refine iff_of_false (by simp) ?_
      rintro ⟨earlier, d, later, heq, hlater⟩
      rcases List.eq_nil_or_concat' later with rfl | ⟨later, last, rfl⟩
      · have hlast := congrArg List.getLast? heq
        simp at hlast
      · have hlast := congrArg List.getLast? heq
        simp only [List.getLast?_concat, ← List.cons_append, ← List.append_assoc] at hlast
        simp [← Option.some.inj hlast] at hlater

/-! ## What is written about errors -/

/-- The errors that marks report. -/
def reportedIn (ms : List Mark) : List Diagnostic :=
  ms.filterMap fun
    | .reported d => some d
    | .lineDone => none

@[simp] theorem reportedIn_lineDone (ms : List Mark) :
    reportedIn (.lineDone :: ms) = reportedIn ms := rfl

@[simp] theorem reportedIn_append (ms ms' : List Mark) :
    reportedIn (ms ++ ms') = reportedIn ms ++ reportedIn ms' :=
  List.filterMap_append

@[simp] theorem reportedIn_runMarks (source : List Char) :
    reportedIn (runMarks source) = diagnosticsOf source := by
  simp [reportedIn, runMarks, List.filterMap_map]

/-- The errors of the lines of a prompt are reported line by line. -/
theorem errorsTextOf_lines (settings : Settings) (lines : List (List Char)) :
    errorsTextOf ((reportedIn (lines.flatMap fun line => runMarks line ++ [.lineDone])).flatMap
        (reportEvents settings)) =
      String.join (lines.map fun line =>
        errorsTextOf ((diagnosticsOf line).flatMap (reportEvents settings))) := by
  induction lines with
  | nil => rfl
  | cons line lines ih => simp [ih]

/-- The text about a file that a call could not open. -/
def Call.message : Call → String
  | .runFile path contents => fileMessage path contents
  | _ => ""

/-- Besides the message about a file, the reported errors are what a call writes. -/
theorem errorsTextOf_perform (s : Session) (call : Call) :
    errorsTextOf (s.perform call).1 = call.message ++
      errorsTextOf ((reportedIn (s.marks call)).flatMap (reportEvents s.settings)) := by
  have hrun (source : List Char) : errorsTextOf (s.run source).2.1 =
      errorsTextOf ((diagnosticsOf source).flatMap (reportEvents s.settings)) :=
    errorsTextOf_runSource s.settings source
  cases call with
  | run source => simp [perform, marks, Call.message, hrun]
  | runFile path contents =>
    cases h : fileSource? path contents with
    | none => simp [perform, marks, Call.message, h, (runFile_of_none h s).2, reportedIn]
    | some source =>
      obtain ⟨-, -, herr, hmessage⟩ := runFile_of_some h s
      simp [perform, marks, Call.message, h, herr, hmessage, hrun]
  | runPrompt =>
    have hlines := (s.texts_runLines (inputLines s.input)).2
    have hfresh (line : List Char) : errorsTextOf ((fresh s.settings).run line).2.1 =
        errorsTextOf ((diagnosticsOf line).flatMap (reportEvents s.settings)) := hrun line
    simp only [perform, marks, Call.message, errorsTextOf_lines]
    simp [runPrompt, hlines, hfresh]
  | report d => simp [perform, marks, Call.message, report, reportedIn]

/-- A prompt runs each line as a fresh session with the same settings would. Whatever was called
before, a run gives what a fresh session gives, and every call writes what it would write in one.
The session remembers whether an error was reported since the last completed line, where the
reported errors are those that are written. -/
theorem prompts_and_calls_independent :
    (∀ s : Session, ∃ lines, IsLines s.input lines ∧
      (∀ lines', IsLines s.input lines' → lines' = lines) ∧
      s.runPrompt.1 = 0 ∧
      outputOf s.runPrompt.2.1 = String.join (lines.map fun line =>
        s.settings.prompt ++ outputOf ((fresh s.settings).run line).2.1) ++ s.settings.prompt ∧
      errorsTextOf s.runPrompt.2.1 =
        String.join (lines.map fun line => errorsTextOf ((fresh s.settings).run line).2.1) ∧
      s.runPrompt.2.2.hadError = if lines = [] then s.hadError else false) ∧
    ∀ settings input calls, let s := (fresh settings input).performAll calls
      (∀ source, (s.run source).1 = ((fresh settings).run source).1 ∧
        (s.run source).2.1 = ((fresh settings).run source).2.1) ∧
      (∀ call, (s.perform call).1 = ((fresh settings s.input).perform call).1 ∧
        errorsTextOf (s.perform call).1 = call.message ++
          errorsTextOf ((reportedIn (s.marks call)).flatMap (reportEvents settings))) ∧
      (s.hadError = true ↔ ∃ earlier d later,
        (fresh settings input).marksOfAll calls = earlier ++ .reported d :: later ∧
          .lineDone ∉ later) := by
  constructor
  · intro s
    obtain ⟨hout, herr⟩ := s.texts_runLines (inputLines s.input)
    refine ⟨_, isLines_inputLines s.input, fun lines' h => h.inputLines_eq.symm, rfl, ?_, ?_, ?_⟩
    · simp [runPrompt, hout]
    · simp [runPrompt, herr]
    · exact s.hadError_runLines (inputLines s.input)
  · intro settings input calls s
    obtain ⟨hsettings, herror⟩ := (fresh settings input).performAll_spec calls
    have hsettings : s.settings = settings := hsettings
    have hsame : s.settings = (fresh settings s.input).settings := hsettings
    have hinput : s.input = (fresh settings s.input).input := rfl
    refine ⟨fun source => ?_, fun call => ⟨perform_congr hsame hinput call, ?_⟩, ?_⟩
    · simp [run, hsettings, fresh]
    · rw [← hsettings]
      exact s.errorsTextOf_perform call
    · rw [← openBehind_iff]
      exact Bool.eq_iff_iff.mp herror

end Session

end LoxReader
