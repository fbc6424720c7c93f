import LoxReader.Proofs.Number.Nearest
import LoxReader.Proofs.Scan.Streams

/-! # Numbers in a source

A number starts at a digit and takes in every digit, point and letter that follows. When all of that
is a numeral it becomes a token with the correctly rounded value, and otherwise one error. The scan
goes on behind it in either case. -/

namespace LoxReader

open Number

/-! ## What a numeral denotes -/

namespace Number.Numeral

/-- The number that a run of digits is. -/
def digitsValue (digits : List Char) : Nat :=
  Nat.ofDigitChars 10 digits 0

/-- The number behind the mark, zero when there is none. -/
def exponentValue (n : Numeral) : Nat :=
  match n.exponent with
  | some (_, digits) => digitsValue digits
  | none => 0

/-- The rational that a numeral denotes: its whole part and its fraction, times a power of ten. -/
def denotes (n : Numeral) : ℚ :=
  let fraction := n.fraction.getD []
  (digitsValue n.whole + digitsValue fraction / 10 ^ fraction.length) * 10 ^ n.exponentValue

theorem digitsValue_append (s t : List Char) :
    digitsValue (s ++ t) = 10 ^ t.length * digitsValue s + digitsValue t := by
  rw [digitsValue, Nat.ofDigitChars_append, Nat.ofDigitChars_eq_ofDigitChars_zero]
  rfl

theorem value_toDecimal (n : Numeral) : n.toDecimal.value = n.denotes := by
  have hexponent : n.toDecimal.exponent =
      (n.exponentValue : ℤ) - ((n.fraction.getD []).length : ℤ) := by
    obtain ⟨whole, fraction, exponent⟩ := n
    cases exponent <;> rfl
  have hcoefficient : n.toDecimal.coefficient = digitsValue (n.whole ++ n.fraction.getD []) := rfl
  rw [Decimal.value, hexponent, hcoefficient, digitsValue_append, denotes, zpow_sub₀ (by norm_num),
    zpow_natCast, zpow_natCast]
  push_cast
  field_simp

theorem correctlyRounds_iff (n : Numeral) {x : Binary64} :
    CorrectlyRounds n.denotes x ↔ x = n.toDecimal.toBinary64 := by
  have hrounds := n.toDecimal.correctlyRounds_toBinary64
  rw [value_toDecimal] at hrounds
  constructor
  · exact fun hx => hx.unique hrounds
  · rintro rfl
    exact hrounds

/-- A numeral has no sign, and it is always a number. -/
theorem toBinary64_unsigned (n : Numeral) :
    n.toDecimal.toBinary64 = .infinite false ∨
      ∃ rank, n.toDecimal.toBinary64 = .finite false rank := by
  rw [Decimal.toBinary64_eq]
  by_cases hrank : n.toDecimal.rank < 2047 * Nat.pow 2 52
  · exact .inr ⟨_, Binary64.ofRank_of_lt hrank⟩
  · exact .inl (Binary64.ofRank_of_le (Nat.le_of_not_lt hrank))

end Number.Numeral

/-! ## One step of a scan -/

namespace Cursor

variable {c : Cursor} {first : Char} {tail : List Char}

/-- A step at a digit passes the longest run of digits, points and letters. -/
theorem step_of_isDigit (hrest : c.skipGap.rest = first :: tail) (hfirst : first.isDigit = true) :
    c.step =
      (some ((Lexeme.number (first :: tail.takeWhile continuesNumber)).outcome c.skipGap.line),
        c.skipGap.pass (first :: tail.takeWhile continuesNumber)
          (tail.dropWhile continuesNumber)) := by
  have hlongest : (Lexeme.number (first :: tail.takeWhile continuesNumber)).IsLongest
      (tail.dropWhile continuesNumber) :=
    .number hfirst (fun _ => List.mem_takeWhile_imp) (head?_dropWhile_eq_false _ tail)
  obtain ⟨first', tail', htext, hsplit⟩ := hlongest.split
  have hrun : first :: tail.takeWhile continuesNumber ++ tail.dropWhile continuesNumber =
      first :: tail :=
    congrArg (first :: ·) List.takeWhile_append_dropWhile
  obtain ⟨rfl, rfl⟩ := List.cons.inj (hrun.symm.trans htext)
  simp only [step, hrest, hsplit]
  rfl

end Cursor

namespace SharedScan

variable {s : SharedScan} {next : Cursor}

/-- The scan behind a token. -/
theorem advance_of_step_ok {t : Token} (h : s.cursor.step = (some (.ok t), next)) :
    s.advance = (some t, { s with cursor := next }) := by
  simp [advance, Cursor.nextToken_of_step_ok h]

/-- An error is recorded, and the scan goes on behind it. -/
theorem advance_of_step_error {e : LexicalError} (h : s.cursor.step = (some (.error e), next)) :
    s.advance = { s with cursor := next, errors := s.errors ++ [e] }.advance := by
  simp [advance, Cursor.nextToken_of_step_error h]

theorem advanceToEnd_of_step_error {e : LexicalError}
    (h : s.cursor.step = (some (.error e), next)) :
    s.advanceToEnd = { s with cursor := next, errors := s.errors ++ [e] }.advanceToEnd := by
  simp [advanceToEnd, Cursor.run_of_step_some h]

/-- Where the scan comes to a digit, it takes in the longest run of digits, points and letters. When
the run is a numeral, the token has the correctly rounded value of what it denotes, which is never
negative. Otherwise the whole run is one error. In both cases the scan goes on behind the run. -/
theorem advance_of_isDigit {first : Char} {tail : List Char}
    (hrest : s.cursor.skipGap.rest = first :: tail) (hfirst : first.isDigit = true) :
    let line := s.cursor.skipGap.line
    let run := first :: tail.takeWhile continuesNumber
    let behind := s.cursor.skipGap.pass run (tail.dropWhile continuesNumber)
    (∀ n : Numeral, n.WellFormed → n.spelling = run →
      ∃ x, (∀ y, CorrectlyRounds n.denotes y ↔ y = x) ∧
        (x = .infinite false ∨ ∃ rank, x = .finite false rank) ∧
        s.advance = (some ⟨.number, line, some (.number x)⟩, { s with cursor := behind }) ∧
        s.advanceToEnd =
          (⟨.number, line, some (.number x)⟩ :: { s with cursor := behind }.advanceToEnd.1,
            { s with cursor := behind }.advanceToEnd.2)) ∧
    ((∀ n : Numeral, n.WellFormed → n.spelling ≠ run) →
      let refused : SharedScan :=
        { s with
          cursor := behind
          errors := s.errors ++ [.malformedNumber (String.ofList run) line] }
      s.advance = refused.advance ∧ s.advanceToEnd = refused.advanceToEnd) := by
  intro line run behind
  have hstep : s.cursor.step = (some ((Lexeme.number run).outcome line), behind) :=
    Cursor.step_of_isDigit hrest hfirst
  constructor
  · intro n hn hspelling
    rw [← hspelling, (Lexeme.Yields.numeral hn).outcome] at hstep
    have hadvance := advance_of_step_ok hstep
    exact ⟨_, fun y => n.correctlyRounds_iff, n.toBinary64_unsigned, hadvance,
      advanceToEnd_of_advance_some hadvance⟩
  · intro hmalformed
    rw [(Lexeme.Yields.malformed hmalformed).outcome] at hstep
    exact ⟨advance_of_step_error hstep, advanceToEnd_of_step_error hstep⟩

/-- A malformed number is recorded, and the token behind it is that of a rational halfway between two
numbers: the one with the even significand. -/
theorem advance_of_isDigit_tie :
    let source := "1x 9007199254740993e0+1".toList
    let even : Binary64 := .finite false ⟨1076 * Nat.pow 2 52, by decide⟩
    CorrectlyRounds 9007199254740993 even ∧
      (untouched source).advance =
        (some ⟨.number, 1, some (.number even)⟩,
          ⟨source, ⟨"+1".toList, 21, 1⟩, [.malformedNumber "1x" 1]⟩) := by
  intro source even
  let s := untouched source
  let refused : SharedScan :=
    { s with cursor := ⟨" 9007199254740993e0+1".toList, 2, 1⟩, errors := [.malformedNumber "1x" 1] }
  have hrefused : s.advance = refused.advance := by
    have hrest : s.cursor.skipGap.rest = '1' :: "x 9007199254740993e0+1".toList := by decide +kernel
    have hmalformed : ∀ n : Numeral, n.WellFormed → n.spelling ≠ ['1', 'x'] := by
      intro n hn hspelling
      have hread := Numeral.read?_eq_some_iff.mpr ⟨hn, hspelling⟩
      have hnone : Numeral.read? ['1', 'x'] = none := by decide
      rw [hnone] at hread
      cases hread
    exact ((advance_of_isDigit hrest (by decide)).2 hmalformed).1
  let n : Numeral := ⟨"9007199254740993".toList, none, some ('e', ['0'])⟩
  have hnumeral : Numeral.read? "9007199254740993e0".toList = some n := by decide +kernel
  obtain ⟨hn, hspelling⟩ := Numeral.read?_eq_some_iff.mp hnumeral
  have hdenotes : n.denotes = 9007199254740993 := by
    have hwhole : Numeral.digitsValue n.whole = 9007199254740993 := by decide +kernel
    have hfraction : Numeral.digitsValue (n.fraction.getD []) = 0 := rfl
    have hexponent : n.exponentValue = 0 := rfl
    rw [Numeral.denotes, hwhole, hfraction, hexponent]
    norm_num
  have hrest : refused.cursor.skipGap.rest = '9' :: "007199254740993e0+1".toList := by
    decide +kernel
  obtain ⟨x, hx, -, hadvance, -⟩ :=
    (advance_of_isDigit hrest (by decide)).1 n hn (hspelling.trans (by decide +kernel))
  have hread : refused.advance.1 = some ⟨.number, 1, some (.number even)⟩ := by decide +kernel
  obtain rfl : x = even := by
    rw [hadvance] at hread
    have htoken := Option.some.inj hread
    simp only [Token.mk.injEq, Option.some.injEq, Payload.number.injEq] at htoken
    exact htoken.2.2
  rw [hdenotes] at hx
  exact ⟨(hx even).mpr rfl, hrefused.trans hadvance⟩

end SharedScan

end LoxReader
