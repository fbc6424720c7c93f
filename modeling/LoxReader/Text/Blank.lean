import LoxReader.Text.Ranges

/-! # Blanks -/

namespace LoxReader.Text

/-- The blank characters: tab to carriage return, the four information separators, and the
space, line and paragraph separators of every script. -/
def blankRanges : List (Nat × Nat) :=
  [(0x0009, 0x000D), (0x001C, 0x0020), (0x0085, 0x0085), (0x00A0, 0x00A0), (0x1680, 0x1680),
    (0x2000, 0x200A), (0x2028, 0x2029), (0x202F, 0x202F), (0x205F, 0x205F), (0x3000, 0x3000)]

/-- Blanks separate lexemes and mean nothing else. -/
def isBlank (c : Char) : Bool :=
  inRanges blankRanges c.toNat

/-- The number of newline characters. No other character ends a line of source text. -/
def newlines (s : List Char) : Nat :=
  s.count '\n'

theorem newlines_append (s t : List Char) : newlines (s ++ t) = newlines s + newlines t :=
  List.count_append

theorem newlines_newline_cons (s : List Char) : newlines ('\n' :: s) = newlines s + 1 :=
  List.count_cons_self

end LoxReader.Text
