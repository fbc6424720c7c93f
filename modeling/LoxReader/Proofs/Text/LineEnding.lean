import LoxReader.Text.LineEnding

/-! # Line endings

Unifying line endings is done in two steps one after the other: first the pairs, then what is left
of the carriage returns. So a text that has only newlines is found again however its lines are
ended. -/

namespace LoxReader.Text

/-- Each pair of a carriage return and a newline becomes a newline. -/
def joinPairs : List Char → List Char
  | [] => []
  | '\r' :: '\n' :: rest => '\n' :: joinPairs rest
  | c :: rest => c :: joinPairs rest

/-- A carriage return becomes a newline. -/
def returnToNewline (c : Char) : Char :=
  if c = '\r' then '\n' else c

/-- A text whose lines are ended in another way. -/
def withLineEnding (ending text : List Char) : List Char :=
  text.flatMap fun c => if c = '\n' then ending else [c]

theorem unifyLineEndings_eq (text : List Char) :
    unifyLineEndings text = (joinPairs text).map returnToNewline := by
  fun_induction joinPairs text with
  | case1 => rfl
  | case2 rest ih =>
    rw [unifyLineEndings, ih]
    rfl
  | case3 c rest hpair ih =>
    rw [unifyLineEndings, ih]
    · rfl
    · exact hpair

theorem unifyLineEndings_cons_of_ne {c : Char} (h : c ≠ '\r') (rest : List Char) :
    unifyLineEndings (c :: rest) = c :: unifyLineEndings rest := by
  rw [unifyLineEndings, if_neg h]
  rintro rest' rfl
  exact absurd rfl h

theorem unifyLineEndings_of_not_mem {text : List Char} (h : '\r' ∉ text) :
    unifyLineEndings text = text := by
  induction text with
  | nil => rfl
  | cons c text ih =>
    rw [List.mem_cons, not_or] at h
    rw [unifyLineEndings_cons_of_ne (Ne.symm h.1), ih h.2]

theorem unifyLineEndings_return {rest : List Char} (h : '\n' ∉ rest) :
    unifyLineEndings ('\r' :: rest) = '\n' :: unifyLineEndings rest := by
  rw [unifyLineEndings, if_pos rfl]
  rintro rest' - rfl
  exact h (List.mem_cons_self ..)

theorem newline_not_mem_withLineEnding {ending : List Char} (h : '\n' ∉ ending)
    (text : List Char) : '\n' ∉ withLineEnding ending text := by
  intro hmem
  obtain ⟨c, -, hc⟩ := List.mem_flatMap.mp hmem
  split at hc
  · exact h hc
  · next hne => exact hne (List.mem_singleton.mp hc).symm

/-- A text with only newlines is found again whatever its lines are ended with. -/
theorem unifyLineEndings_withLineEnding {text ending : List Char} (h : '\r' ∉ text)
    (hending : ending = ['\r', '\n'] ∨ ending = ['\r']) :
    unifyLineEndings (withLineEnding ending text) = text := by
  induction text with
  | nil => rfl
  | cons c text ih =>
    rw [List.mem_cons, not_or] at h
    have ih := ih h.2
    rw [withLineEnding, List.flatMap_cons, ← withLineEnding]
    by_cases hc : c = '\n'
    · subst hc
      rw [if_pos rfl]
      rcases hending with rfl | rfl
      · exact congrArg ('\n' :: ·) ih
      · have hnone : '\n' ∉ withLineEnding ['\r'] text :=
          newline_not_mem_withLineEnding (by decide) text
        rw [List.singleton_append, unifyLineEndings_return hnone, ih]
    · rw [if_neg hc, List.singleton_append, unifyLineEndings_cons_of_ne (Ne.symm h.1), ih]

end LoxReader.Text
