/-! # Line endings -/

namespace LoxReader.Text

/-- Text with one kind of line ending: a carriage return, alone or before a newline,
becomes a newline. -/
def unifyLineEndings : List Char → List Char
  | [] => []
  | '\r' :: '\n' :: rest => '\n' :: unifyLineEndings rest
  | c :: rest => (if c = '\r' then '\n' else c) :: unifyLineEndings rest

/-- The first line of a text, its newline included, and what follows it. -/
def splitLine : List Char → List Char × List Char
  | [] => ([], [])
  | c :: rest =>
    if c = '\n' then ([c], rest)
    else
      let (line, rest) := splitLine rest
      (c :: line, rest)

/-- Taking the first line off a text that is not empty shortens it. -/
theorem length_splitLine_snd (c : Char) (rest : List Char) :
    (splitLine (c :: rest)).2.length < (c :: rest).length := by
  induction rest generalizing c with
  | nil =>
    simp only [splitLine]
    split <;> exact Nat.zero_lt_one
  | cons d rest ih =>
    rw [splitLine]
    split
    · exact Nat.lt_succ_self _
    · exact Nat.lt_succ_of_lt (ih d)

end LoxReader.Text
