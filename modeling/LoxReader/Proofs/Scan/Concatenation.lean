import LoxReader.Proofs.Scan.Boundary

/-! # Sources with a newline between them

No lexeme and no comment reaches across a newline, except a string that is still open. So two
sources with a newline between them have the tokens and the errors of the first one and then those
of the second one, only on later lines. -/

namespace LoxReader

open Text

/-! ## Later lines -/

/-- The token on a line that is `n` lines further down. -/
def Token.shift (n : Int) (t : Token) : Token :=
  { t with line := t.line + n }

def LexicalError.shift (n : Int) : LexicalError → LexicalError
  | .unknownCharacter char line => .unknownCharacter char (line + n)
  | .unterminatedString line => .unterminatedString (line + n)
  | .malformedNumber run line => .malformedNumber run (line + n)
  | .custom message line help => .custom message (line + n) help

def shiftOutcome (n : Int) : Except LexicalError Token → Except LexicalError Token
  | .ok t => .ok (t.shift n)
  | .error e => .error (e.shift n)

theorem Lexeme.outcome_add (l : Lexeme) (line n : Int) :
    l.outcome (line + n) = shiftOutcome n (l.outcome line) := by
  cases l with
  | symbol | string | openString | stray => rfl
  | number run =>
    simp only [outcome]
    split <;> rfl
  | word letters =>
    simp only [outcome]
    split <;> rfl

theorem tokensOf_map_shift (n : Int) (os : List (Except LexicalError Token)) :
    tokensOf (os.map (shiftOutcome n)) = (tokensOf os).map (Token.shift n) := by
  induction os with
  | nil => rfl
  | cons o os ih => cases o <;> simp [shiftOutcome, ih]

theorem errorsOf_map_shift (n : Int) (os : List (Except LexicalError Token)) :
    errorsOf (os.map (shiftOutcome n)) = (errorsOf os).map (LexicalError.shift n) := by
  induction os with
  | nil => rfl
  | cons o os ih => cases o <;> simp [shiftOutcome, ih]

theorem placed_add (line n : Int) (pieces : List (List Char × Lexeme)) :
    placed (line + n) pieces = (placed line pieces).map fun p => (p.1 + n, p.2) := by
  induction pieces generalizing line with
  | nil => rfl
  | cons piece pieces ih =>
    obtain ⟨gap, l⟩ := piece
    have hgap : line + n + newlines gap = line + newlines gap + n := by omega
    have hrest : line + newlines gap + n + newlines l.text =
        line + newlines gap + newlines l.text + n := by omega
    simp only [placed, List.map_cons, hgap, hrest, ih]

/-- Lexemes that stand `n` lines further down have the same outcomes there. -/
theorem outcomes_add (line n : Int) (pieces : List (List Char × Lexeme)) :
    (placed (line + n) pieces).map (fun p => p.2.outcome p.1) =
      ((placed line pieces).map fun p => p.2.outcome p.1).map (shiftOutcome n) := by
  simp [placed_add, Lexeme.outcome_add, Function.comp_def]

/-! ## What stands in front of a newline -/

theorem fits_append_newline (rest t : List Char) : Fits rest (rest ++ '\n' :: t) := by
  cases rest with
  | nil => exact fits_of_isBlank isBlank_newline [] t
  | cons c rest => exact fits_of_head?_eq rfl

theorem IsGap.before_newline {gap : List Char} (h : IsGap [] gap) (t : List Char) :
    IsGap ('\n' :: t) gap := by
  induction h with
  | nil => exact .nil
  | blank hc _ ih => exact .blank hc ih
  | @comment body gap hbody hend _ ih =>
    refine .comment hbody ?_ ih
    cases gap with
    | nil => exact fun c hc => (Option.some.inj hc).symm
    | cons d gap => exact hend

/-! ## The seam -/

/-- A source without an open string is taken apart in the same way when a newline and another
source follow it, and the other one is taken apart as it is on its own. -/
theorem Dissects.before_newline {a b last last' : List Char}
    {pieces pieces' : List (List Char × Lexeme)} (ha : Dissects a pieces last)
    (hopen : ∀ p ∈ pieces, ∀ body, p.2 ≠ .openString body) (hb : Dissects b pieces' last') :
    ∃ joined last'', Dissects (a ++ '\n' :: b) joined last'' ∧
      ∀ line, placed line joined =
        placed line pieces ++ placed (line + (newlines a + 1)) pieces' := by
  induction ha with
  | @stop last hlast =>
    -- The newline ends the last comment, and the gap goes on with the first one of `b`.
    have hnewline : IsGap b ['\n'] := .blank isBlank_newline .nil
    obtain ⟨joined, last'', hjoined, hplaced⟩ :=
      hb.prepend ((hlast.isGap.before_newline b).append hnewline)
    rw [List.append_assoc, List.singleton_append] at hjoined
    refine ⟨joined, last'', hjoined, fun line => ?_⟩
    have hlines : (newlines (last ++ ['\n']) : Int) = newlines last + 1 := by
      simp only [newlines_append, newlines_newline_cons]
      rfl
    rw [hplaced, hlines]
    rfl
  | @piece gap l rest pieces last hgap hl _ ih =>
    obtain ⟨hl', hpieces⟩ := List.forall_mem_cons.mp hopen
    obtain ⟨joined, last'', hjoined, hplaced⟩ := ih hpieces
    have hfits := fits_append_newline rest b
    refine ⟨(gap, l) :: joined, last'', ?_, fun line => ?_⟩
    · rw [List.append_assoc, List.append_assoc]
      exact .piece (hl.exchange_gap hgap hfits)
        (hl.exchange (fun body hbody => absurd hbody (hl' body)) hfits) hjoined
    · have hline : line + newlines gap + newlines l.text + (newlines rest + 1) =
          line + (newlines (gap ++ (l.text ++ rest)) + 1) := by
        simp only [newlines_append]
        omega
      simp only [placed, hplaced, hline, List.cons_append]

theorem exists_mem_placed (line : Int) {pieces : List (List Char × Lexeme)}
    {p : List Char × Lexeme} (h : p ∈ pieces) : ∃ line', (line', p.2) ∈ placed line pieces := by
  induction pieces generalizing line with
  | nil => cases h
  | cons piece pieces ih =>
    rcases List.mem_cons.mp h with rfl | h
    · exact ⟨_, List.mem_cons_self⟩
    · obtain ⟨line', hline'⟩ := ih (line + newlines piece.1 + newlines piece.2.text) h
      exact ⟨line', List.mem_cons_of_mem _ hline'⟩

/-- An open string would have been recorded as an error. -/
theorem Dissects.ne_openString {s last : List Char} {pieces : List (List Char × Lexeme)}
    (h : Dissects s pieces last) (hopen : ∀ line, .unterminatedString line ∉ (scan s).errors) :
    ∀ p ∈ pieces, ∀ body, p.2 ≠ .openString body := by
  intro p hp body hbody
  obtain ⟨line, hline⟩ := exists_mem_placed 1 hp
  apply hopen line
  rw [scan_of_dissects h, mem_errorsOf, List.mem_map]
  refine ⟨(line, p.2), hline, ?_⟩
  rw [hbody]
  rfl

/-- Two sources with a newline between them, the first one without an open string. -/
theorem scan_append_newline {a : List Char} (b : List Char)
    (hopen : ∀ line, .unterminatedString line ∉ (scan a).errors) :
    (scan (a ++ '\n' :: b)).tokens =
        (scan a).tokens ++ (scan b).tokens.map (Token.shift (newlines a + 1)) ∧
      (scan (a ++ '\n' :: b)).errors =
        (scan a).errors ++ (scan b).errors.map (LexicalError.shift (newlines a + 1)) ∧
      (scan (a ++ '\n' :: b)).stop.line = (scan b).stop.line + (newlines a + 1) := by
  obtain ⟨pieces, last, ha⟩ := exists_dissects a
  obtain ⟨pieces', last', hb⟩ := exists_dissects b
  obtain ⟨joined, last'', hjoined, hplaced⟩ := ha.before_newline (ha.ne_openString hopen) hb
  rw [scan_of_dissects ha, scan_of_dissects hb, scan_of_dissects hjoined]
  simp only [hplaced, List.map_append, outcomes_add, tokensOf_append, errorsOf_append,
    tokensOf_map_shift, errorsOf_map_shift, true_and]
  simp only [newlines_append, newlines_newline_cons]
  omega

/-! ## Draining a stream -/

namespace SharedScan

/-- A fresh stream gives the whole scan of its source, whatever was done before. -/
theorem drain_fresh_eq (s : SharedScan) :
    s.drain .fresh =
      ((scan s.source).allTokens,
        { s with cursor := (scan s.source).stop, errors := (scan s.source).errors }) :=
  rfl

/-- Draining a stream over two sources with a newline between them gives what draining the first
one gives without its end, and then all that draining the second one gives. The errors are recorded
in the same order. Only the lines of the second source change, by all that stands in front of it. -/
theorem drain_append_newline {joined first second : SharedScan}
    (hsource : joined.source = first.source ++ '\n' :: second.source)
    (hopen : ∀ line, .unterminatedString line ∉ (first.drain .fresh).2.errors) :
    let n : Int := newlines first.source + 1
    ∃ ts line, (first.drain .fresh).1 = ts ++ [.endOn line] ∧
      (joined.drain .fresh).1 = ts ++ (second.drain .fresh).1.map (Token.shift n) ∧
      (joined.drain .fresh).2.errors =
        (first.drain .fresh).2.errors ++
          (second.drain .fresh).2.errors.map (LexicalError.shift n) := by
  simp only [drain_fresh_eq, hsource] at hopen ⊢
  obtain ⟨htokens, herrors, hline⟩ := scan_append_newline second.source hopen
  refine ⟨(scan first.source).tokens, (scan first.source).stop.line, rfl, ?_, herrors⟩
  rw [Scan.allTokens, htokens, hline, Scan.allTokens, List.map_append, List.append_assoc]
  rfl

/-- The first source ends in a slash and a comment and holds an error of its own. The second one
starts with a slash and ends inside of a string. -/
theorem drain_append_newline_slash :
    let first : SharedScan := { source := "\"x\ny\" @ / // c".toList }
    let second : SharedScan := { source := "/ =\n\"z".toList }
    let joined : SharedScan := { source := "\"x\ny\" @ / // c\n/ =\n\"z".toList }
    joined.source = first.source ++ '\n' :: second.source ∧
      (∀ line, .unterminatedString line ∉ (first.drain .fresh).2.errors) ∧
      (joined.drain .fresh).1 =
        [⟨.string, 1, some (.text "x\ny")⟩, ⟨.slash, 2, none⟩, ⟨.slash, 3, none⟩,
          ⟨.equal, 3, none⟩, ⟨.endOfInput, 4, none⟩] ∧
      (joined.drain .fresh).2.errors = [.unknownCharacter '@' 2, .unterminatedString 4] := by
  intro first second joined
  have hsource : joined.source = first.source ++ '\n' :: second.source := by decide +kernel
  have herrors : (first.drain .fresh).2.errors = [.unknownCharacter '@' 2] := by decide +kernel
  have hopen : ∀ line, .unterminatedString line ∉ (first.drain .fresh).2.errors := by
    simp [herrors]
  obtain ⟨ts, line, htokens, hjoined, hrecorded⟩ := drain_append_newline hsource hopen
  have hfirst : (first.drain .fresh).1 =
      [⟨.string, 1, some (.text "x\ny")⟩, ⟨.slash, 2, none⟩] ++ [.endOn 2] := by decide +kernel
  have hsecond : (second.drain .fresh).1 =
      [⟨.slash, 1, none⟩, ⟨.equal, 1, none⟩, .endOn 2] := by decide +kernel
  have hlast : (second.drain .fresh).2.errors = [.unterminatedString 2] := by decide +kernel
  have hlines : newlines first.source = 1 := by decide +kernel
  rw [hfirst] at htokens
  obtain rfl := (List.append_inj_left' htokens rfl).symm
  rw [hsecond, hlines] at hjoined
  rw [herrors, hlast, hlines] at hrecorded
  exact ⟨hsource, hopen, hjoined, hrecorded⟩

end SharedScan

end LoxReader
