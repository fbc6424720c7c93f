import LoxReader.Session

/-! # What a run writes

A run reports the lexical errors of its source, or without any the errors of its expressions, and
writes the trees that it reads. -/

namespace LoxReader

/-- The errors that running a source reports. -/
def diagnosticsOf (source : List Char) : List Diagnostic :=
  let s := scan source
  if s.errors.isEmpty then (readAll {} s.allTokens).errors.map (·.diagnostic)
  else s.errors.map (·.diagnostic)

/-- The trees that running a source writes. -/
def treesOf (source : List Char) : List Expr :=
  let s := scan source
  if s.errors.isEmpty then (readAll {} s.allTokens).trees else []

/-- The line of tokens that running a source writes when it is asked for. -/
def tokenLineOf (source : List Char) : String :=
  let s := scan source
  if s.errors.isEmpty then " ".intercalate (s.allTokens.map (·.display)) ++ "\n" else ""

/-! ## Parts of a transcript -/

theorem outputOf_eq_empty {es : List Event} (h : ∀ e ∈ es, ∀ text, e ≠ .out text) :
    outputOf es = "" := by
  induction es with
  | nil => rfl
  | cons e es ih =>
    obtain ⟨he, hes⟩ := List.forall_mem_cons.mp h
    cases e with
    | out text => exact absurd rfl (he text)
    | err | debug => simp [ih hes]

theorem errorsTextOf_eq_empty {es : List Event} (h : ∀ e ∈ es, ∀ text, e ≠ .err text) :
    errorsTextOf es = "" := by
  induction es with
  | nil => rfl
  | cons e es ih =>
    obtain ⟨he, hes⟩ := List.forall_mem_cons.mp h
    cases e with
    | err text => exact absurd rfl (he text)
    | out | debug => simp [ih hes]

theorem texts_of_records {es : List Event}
    (h : ∀ e ∈ es, ∃ logger message, e = .debug logger message) :
    outputOf es = "" ∧ errorsTextOf es = "" := by
  constructor
  · refine outputOf_eq_empty fun e he => ?_
    obtain ⟨logger, message, rfl⟩ := h e he
    simp
  · refine errorsTextOf_eq_empty fun e he => ?_
    obtain ⟨logger, message, rfl⟩ := h e he
    simp

@[simp] theorem texts_scanRecords (s : Scan) :
    outputOf (scanRecords s) = "" ∧ errorsTextOf (scanRecords s) = "" := by
  refine texts_of_records fun e he => ?_
  simp only [scanRecords, List.mem_append, List.mem_map, List.mem_singleton] at he
  rcases he with ⟨error, -, rfl⟩ | rfl <;> exact ⟨_, _, rfl⟩

@[simp] theorem texts_readingRecords (all : BatchReading) :
    outputOf (readingRecords all) = "" ∧ errorsTextOf (readingRecords all) = "" := by
  refine texts_of_records fun e he => ?_
  simp only [readingRecords, List.mem_append, List.mem_map, List.mem_singleton] at he
  rcases he with ⟨error, -, rfl⟩ | rfl <;> exact ⟨_, _, rfl⟩

theorem mem_reportEvents {settings : Settings} {d : Diagnostic} {e : Event}
    (h : e ∈ reportEvents settings d) : ∃ text, e = .err text := by
  simp only [reportEvents, List.mem_cons] at h
  rcases h with rfl | h
  · exact ⟨_, rfl⟩
  · split at h
    · exact ⟨_, List.mem_singleton.mp h⟩
    · cases h

theorem outputOf_reports (settings : Settings) (ds : List Diagnostic) :
    outputOf (ds.flatMap (reportEvents settings)) = "" := by
  refine outputOf_eq_empty fun e he => ?_
  obtain ⟨d, -, he⟩ := List.mem_flatMap.mp he
  obtain ⟨text, rfl⟩ := mem_reportEvents he
  simp

theorem outputOf_trees (trees : List Expr) :
    outputOf (trees.map fun tree => .out (tree.render ++ "\n")) =
      String.join (trees.map fun tree => tree.render ++ "\n") := by
  induction trees with
  | nil => rfl
  | cons tree trees ih => simp [ih]

theorem errorsTextOf_trees (trees : List Expr) :
    errorsTextOf (trees.map fun tree => .out (tree.render ++ "\n")) = "" :=
  errorsTextOf_eq_empty (by simp)

/-! ## Runs -/

theorem succeeded_runSource (settings : Settings) (source : List Char) :
    (runSource settings source).succeeded = (diagnosticsOf source).isEmpty := by
  by_cases h : (scan source).errors.isEmpty = true
  · simp [runSource, diagnosticsOf, h]
  · simp [runSource, diagnosticsOf, h]

theorem errorsTextOf_runSource (settings : Settings) (source : List Char) :
    errorsTextOf (runSource settings source).events =
      errorsTextOf ((diagnosticsOf source).flatMap (reportEvents settings)) := by
  by_cases h : (scan source).errors.isEmpty = true
  · have htokens (line : String) :
        errorsTextOf (if settings.showTokens then [.out line] else []) = "" := by
      split <;> simp
    simp [runSource, diagnosticsOf, h, errorsTextOf_trees, List.flatMap_map, htokens]
  · simp [runSource, diagnosticsOf, h, List.flatMap_map]

theorem outputOf_runSource (settings : Settings) (source : List Char) :
    outputOf (runSource settings source).events =
      (if settings.showTokens then tokenLineOf source else "") ++
        String.join ((treesOf source).map fun tree => tree.render ++ "\n") := by
  have hreports {α : Type} (es : List α) (f : α → Diagnostic) :
      outputOf (es.flatMap fun e => reportEvents settings (f e)) = "" := by
    rw [← outputOf_reports settings (es.map f), List.flatMap_map]
  by_cases h : (scan source).errors.isEmpty = true
  · have htokens (line : String) : outputOf (if settings.showTokens then [.out line] else []) =
        if settings.showTokens then line else "" := by
      split <;> simp
    simp [runSource, treesOf, tokenLineOf, h, outputOf_trees, hreports, htokens]
  · simp [runSource, treesOf, tokenLineOf, h, hreports]

end LoxReader
