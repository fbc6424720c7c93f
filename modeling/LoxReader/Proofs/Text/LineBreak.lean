import LoxReader.Text.Blank
import Mathlib.Data.List.Basic

/-! # Line breaks

A terminal or an editor may break a line at more characters than the newline. All of them are
blanks, so a text without blanks stays on one line wherever it is shown. -/

namespace LoxReader.Text

/-- The characters at which a shown text may break. A carriage return and the newline behind it are
one break. -/
def lineBreaks : List Char :=
  ['\n', '\x0b', '\x0c', '\r', '\x1c', '\x1d', '\x1e', '\x85', '\u2028', '\u2029']

def isLineBreak (c : Char) : Bool :=
  lineBreaks.contains c

theorem isBlank_of_isLineBreak {c : Char} (h : isLineBreak c = true) : isBlank c = true := by
  have hall : lineBreaks.all isBlank = true := by decide
  rw [isLineBreak, List.contains_iff_mem] at h
  exact List.all_eq_true.mp hall c h

/-- A text in which no line breaks. -/
def OneLine (s : List Char) : Prop :=
  ∀ c ∈ s, isLineBreak c = false

instance (s : List Char) : Decidable (OneLine s) :=
  -- Not by trying every character there is.
  List.decidableBAll (fun c => isLineBreak c = false) s

@[simp] theorem oneLine_cons {c : Char} {s : List Char} :
    OneLine (c :: s) ↔ isLineBreak c = false ∧ OneLine s :=
  List.forall_mem_cons

@[simp] theorem oneLine_append {s t : List Char} : OneLine (s ++ t) ↔ OneLine s ∧ OneLine t :=
  List.forall_mem_append

theorem oneLine_of_not_isBlank {s : List Char} (h : ∀ c ∈ s, isBlank c = false) : OneLine s := by
  intro c hc
  rw [Bool.eq_false_iff]
  intro hbreak
  have hblank := h c hc
  rw [isBlank_of_isLineBreak hbreak] at hblank
  cases hblank

theorem isLineBreak_of_isDigit {c : Char} (h : c.isDigit = true) : isLineBreak c = false := by
  have hall : lineBreaks.all (!·.isDigit) = true := by decide
  rw [isLineBreak, Bool.eq_false_iff, Ne, List.contains_iff_mem]
  intro hmem
  have hdigit := List.all_eq_true.mp hall c hmem
  rw [h] at hdigit
  cases hdigit

theorem oneLine_toString_nat (n : Nat) : OneLine (toString n).toList := by
  have hdigits : (toString n).toList = Nat.toDigits 10 n := Nat.toList_repr
  rw [hdigits]
  exact fun c hc => isLineBreak_of_isDigit (Nat.isDigit_of_mem_toDigits (by decide) (by decide) hc)

theorem oneLine_toString (n : Int) : OneLine (toString n).toList := by
  cases n with
  | ofNat n => exact oneLine_toString_nat n
  | negSucc n =>
    have htext : toString (Int.negSucc n) = "-" ++ toString (n + 1) := rfl
    rw [htext, String.toList_append, oneLine_append]
    exact ⟨by decide, oneLine_toString_nat (n + 1)⟩

/-! ## The lines that a text shows -/

/-- The lines that a text shows, without their breaks. Behind the last break there is a line only if
characters follow it. -/
def shownLines : List Char → List (List Char)
  | [] => []
  | '\r' :: '\n' :: rest => [] :: shownLines rest
  | c :: rest =>
    if isLineBreak c then [] :: shownLines rest
    else
      match shownLines rest with
      | [] => [[c]]
      | line :: lines => (c :: line) :: lines

theorem shownLines_newline_cons (rest : List Char) :
    shownLines ('\n' :: rest) = [] :: shownLines rest := by
  rw [shownLines, if_pos (by decide)]
  simp

theorem shownLines_cons {c : Char} (h : isLineBreak c = false) (rest : List Char) :
    shownLines (c :: rest) =
      match shownLines rest with
      | [] => [[c]]
      | line :: lines => (c :: line) :: lines := by
  have hreturn : c ≠ '\r' := by
    rintro rfl
    revert h
    decide
  rw [shownLines, if_neg (by rw [h]; decide)]
  exact fun _ heq => absurd heq hreturn

/-- A text without a break in front of a newline is the first line that is shown. -/
theorem shownLines_append_newline {line : List Char} (h : OneLine line) (rest : List Char) :
    shownLines (line ++ '\n' :: rest) = line :: shownLines rest := by
  induction line with
  | nil => exact shownLines_newline_cons rest
  | cons c line ih =>
    obtain ⟨hc, hline⟩ := oneLine_cons.mp h
    rw [List.cons_append, shownLines_cons hc, ih hline]

example : shownLines "a\r\nb\x0c\nc\n".toList = ["a".toList, "b".toList, [], "c".toList] := by
  decide

end LoxReader.Text
