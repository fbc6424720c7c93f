import LoxReader.Proofs.Scan.Concatenation
import LoxReader.Proofs.Scan.Lines
import LoxReader.Proofs.Scan.Respelling
import LoxReader.Proofs.Text.Report

/-! # What a scan reports

The tokens and the errors of a source stand in the order of their lines. An error shows only
characters that start or continue a lexeme outside of a string, and none of these breaks a line. -/

namespace LoxReader

open Text

/-! ## The order of the lines -/

/-- Lines in their order, from the first line of a source to line `n`. -/
structure AscendTo (n : Int) (lines : List Int) : Prop where
  pairwise : lines.Pairwise (· ≤ ·)
  within : ∀ line ∈ lines, 1 ≤ line ∧ line ≤ n

theorem AscendTo.sublist {n : Int} {lines lines' : List Int} (h : AscendTo n lines)
    (hsub : lines'.Sublist lines) : AscendTo n lines' :=
  ⟨h.pairwise.sublist hsub, fun line hline => h.within line (hsub.mem hline)⟩

theorem AscendTo.append_singleton {n : Int} {lines : List Int} (h : AscendTo n lines)
    (hn : 1 ≤ n) : AscendTo n (lines ++ [n]) := by
  constructor
  · rw [List.pairwise_append]
    refine ⟨h.pairwise, List.pairwise_singleton _ _, fun line hline last hlast => ?_⟩
    rw [List.mem_singleton.mp hlast]
    exact (h.within line hline).2
  · rw [List.forall_mem_append, List.forall_mem_singleton]
    exact ⟨h.within, hn, Int.le_refl n⟩

theorem le_of_mem_placed (pieces : List (List Char × Lexeme)) (line : Int) :
    ∀ p ∈ placed line pieces, line ≤ p.1 := by
  induction pieces generalizing line with
  | nil => simp [placed]
  | cons piece pieces ih =>
    obtain ⟨gap, l⟩ := piece
    rw [placed, List.forall_mem_cons]
    constructor
    · dsimp only
      omega
    · intro p hp
      have hle := ih _ p hp
      omega

theorem pairwise_placed (pieces : List (List Char × Lexeme)) (line : Int) :
    (placed line pieces).Pairwise (·.1 ≤ ·.1) := by
  induction pieces generalizing line with
  | nil => exact .nil
  | cons piece pieces ih =>
    obtain ⟨gap, l⟩ := piece
    rw [placed, List.pairwise_cons]
    refine ⟨fun p hp => ?_, ih _⟩
    have hle := le_of_mem_placed pieces _ p hp
    dsimp only
    omega

/-- No lexeme starts on a line behind the last one. -/
theorem Dissects.le_newlines {s last : List Char} {pieces : List (List Char × Lexeme)}
    (h : Dissects s pieces last) (line : Int) :
    ∀ p ∈ placed line pieces, p.1 ≤ line + newlines s := by
  induction h generalizing line with
  | stop => simp [placed]
  | piece _ _ _ ih =>
    rw [placed, List.forall_mem_cons]
    simp only [newlines_append]
    constructor
    · push_cast
      omega
    · intro p hp
      have hle := ih _ p hp
      push_cast
      omega

theorem Dissects.ascendTo {source last : List Char} {pieces : List (List Char × Lexeme)}
    (h : Dissects source pieces last) :
    AscendTo (1 + newlines source)
      (((placed 1 pieces).map fun p => p.2.outcome p.1).map outcomeLine) := by
  have hlines : ((placed 1 pieces).map fun p => p.2.outcome p.1).map outcomeLine =
      (placed 1 pieces).map Prod.fst := by
    rw [List.map_map]
    exact List.map_congr_left fun p _ => (Lexeme.yields_outcome p.1 p.2).outcomeLine_eq
  rw [hlines]
  constructor
  · rw [List.pairwise_map]
    exact pairwise_placed pieces 1
  · rw [List.forall_mem_map]
    exact fun p hp => ⟨le_of_mem_placed pieces 1 p hp, h.le_newlines 1 p hp⟩

/-- The lines of tokens and those of errors are among the lines of the outcomes. -/
theorem sublist_map_outcomeLine (os : List (Except LexicalError Token)) :
    ((tokensOf os).map (·.line)).Sublist (os.map outcomeLine) ∧
      ((errorsOf os).map (·.line)).Sublist (os.map outcomeLine) := by
  induction os with
  | nil => exact ⟨.slnil, .slnil⟩
  | cons o os ih =>
    cases o with
    | ok t => exact ⟨ih.1.cons_cons t.line, ih.2.cons t.line⟩
    | error e => exact ⟨ih.1.cons e.line, ih.2.cons_cons e.line⟩

/-- The tokens of a source, with the one for the end, and its errors stand in the order of their
lines, from the first line of the source to its last one. -/
theorem scan_ascendTo (source : List Char) :
    AscendTo (1 + newlines source) ((scan source).allTokens.map (·.line)) ∧
      AscendTo (1 + newlines source) ((scan source).errors.map (·.line)) := by
  obtain ⟨pieces, last, hpieces⟩ := exists_dissects source
  obtain ⟨htokens, herrors⟩ :=
    sublist_map_outcomeLine ((placed 1 pieces).map fun p => p.2.outcome p.1)
  rw [scan_of_dissects hpieces, Scan.allTokens, List.map_append]
  constructor
  · apply (hpieces.ascendTo.sublist htokens).append_singleton
    omega
  · exact hpieces.ascendTo.sublist herrors

/-! ## Characters that are shown -/

theorem exists_digitChar_of_mem_toDigits {n : Nat} {c : Char} (h : c ∈ Nat.toDigits 16 n) :
    ∃ k < 16, c = Nat.digitChar k := by
  induction n using Nat.strongRecOn with
  | ind n ih =>
    rw [Nat.toDigits_eq_if (by decide)] at h
    by_cases hn : n < 16
    · rw [if_pos hn, List.mem_singleton] at h
      exact ⟨n, hn, h⟩
    · rw [if_neg hn, List.mem_append, List.mem_singleton] at h
      rcases h with h | h
      · exact ih (n / 16) (by omega) h
      · exact ⟨n % 16, Nat.mod_lt n (by decide), h⟩

namespace LexicalError

theorem oneLine_codePointText (c : Char) : OneLine (codePointText c).toList := by
  have hdigits : ∀ k < 16, isLineBreak (Nat.digitChar k).toUpper = false := by decide
  rw [codePointText, String.toList_ofList, oneLine_append]
  constructor
  · intro d hd
    rw [List.eq_of_mem_replicate hd]
    decide
  · intro d hd
    obtain ⟨digit, hdigit, rfl⟩ := List.mem_map.mp hd
    obtain ⟨k, hk, rfl⟩ := exists_digitChar_of_mem_toDigits hdigit
    exact hdigits k hk

theorem fillsLines_unknownCharacter {c : Char} (hc : isBlank c = false) (line : Int) :
    (unknownCharacter c line).diagnostic.FillsLines := by
  have hchar : OneLine (String.singleton c).toList :=
    oneLine_of_not_isBlank (by simpa using hc)
  refine ⟨?_, rfl, ⟨"L001", rfl, by decide, by decide⟩, ?_⟩
  · unfold diagnostic message
    simp only [String.toList_append, oneLine_append]
    exact ⟨⟨⟨by decide +kernel, hchar⟩, by decide⟩, oneLine_toString line⟩
  · by_cases hprintable : isPrintable c = true
    · refine ⟨_, if_pos hprintable, by simp, ?_⟩
      simp only [String.toList_append, oneLine_append]
      exact ⟨⟨by decide +kernel, hchar⟩, by decide +kernel⟩
    · refine ⟨_, if_neg hprintable, by simp, ?_⟩
      simp only [String.toList_append, oneLine_append]
      exact ⟨⟨by decide +kernel, oneLine_codePointText c⟩, by decide +kernel⟩

theorem fillsLines_unterminatedString (line : Int) :
    (unterminatedString line).diagnostic.FillsLines := by
  refine ⟨?_, rfl, ⟨"L002", rfl, by decide, by decide⟩,
    ⟨_, rfl, by decide +kernel, by decide +kernel⟩⟩
  unfold diagnostic message
  simp only [String.toList_append, oneLine_append]
  exact ⟨by decide +kernel, oneLine_toString line⟩

theorem fillsLines_malformedNumber {run : List Char} (hrun : ∀ c ∈ run, isBlank c = false)
    (line : Int) : (malformedNumber (String.ofList run) line).diagnostic.FillsLines := by
  refine ⟨?_, rfl, ⟨"L003", rfl, by decide, by decide⟩,
    ⟨_, rfl, by decide +kernel, by decide +kernel⟩⟩
  unfold diagnostic message
  simp only [String.toList_append, oneLine_append, String.toList_ofList]
  exact ⟨⟨⟨by decide +kernel, oneLine_of_not_isBlank hrun⟩, by decide⟩, oneLine_toString line⟩

end LexicalError

/-- The error of a malformed lexeme shows none of the characters that may break a line: a string that
is not closed is not shown. -/
theorem Lexeme.Yields.fillsLines {l : Lexeme} {line : Int} {e : LexicalError} {gap rest : List Char}
    (h : l.Yields line (.error e)) (hgap : IsLongestGap gap (l.text ++ rest))
    (hl : l.IsLongest rest) : e.diagnostic.FillsLines := by
  cases h with
  | openString => exact LexicalError.fillsLines_unterminatedString line
  | stray => exact LexicalError.fillsLines_unknownCharacter hgap.isBlank_eq_false line
  | malformed =>
    apply LexicalError.fillsLines_malformedNumber
    cases hl with
    | number hfirst hrun =>
      rw [List.forall_mem_cons]
      exact ⟨isBlank_of_isDigit hfirst, fun c hc => isBlank_of_continuesNumber (hrun c hc)⟩

theorem fillsLines_of_mem_scan {source : List Char} {e : LexicalError}
    (h : e ∈ (scan source).errors) : e.diagnostic.FillsLines := by
  obtain ⟨pieces, last, hpieces⟩ := exists_dissects source
  rw [scan_of_dissects hpieces, mem_errorsOf] at h
  obtain ⟨p, hp, herror⟩ := List.mem_map.mp h
  obtain ⟨gap, rest, hgap, hl⟩ := hpieces.exists_isLongest 1 p hp
  exact (Lexeme.yields_iff.mpr herror).fillsLines hgap hl

/-! ## Tokens that are shown -/

theorem oneLine_kind_text (kind : TokenKind) : OneLine kind.text.toList := by
  cases kind <;> decide

/-- A token that stands for no literal is displayed on one line. -/
theorem Lexeme.Yields.oneLine_display {l : Lexeme} {line : Int} {t : Token} {rest : List Char}
    (h : l.Yields line (.ok t)) (hl : l.IsLongest rest) (hliteral : t.literal? = none) :
    OneLine t.display.toList := by
  cases h with
  | symbol | keyword =>
    rw [Token.display_of_payload_eq_none]
    exact oneLine_kind_text _
  | string | numeral => cases hliteral
  | @identifier letters =>
    have hdisplay : (Token.mk .identifier line (some (.text (String.ofList letters)))).display =
        String.ofList letters := rfl
    rw [hdisplay, String.toList_ofList]
    cases hl with
    | word hfirst hletters =>
      apply oneLine_of_not_isBlank
      rw [List.forall_mem_cons]
      exact ⟨isBlank_of_startsWord hfirst, fun c hc => isBlank_of_continuesWord (hletters c hc)⟩

theorem oneLine_display_of_mem_allTokens {source : List Char} {t : Token}
    (h : t ∈ (scan source).allTokens) (hliteral : t.literal? = none) :
    OneLine t.display.toList := by
  rw [Scan.allTokens, List.mem_append, List.mem_singleton] at h
  rcases h with h | rfl
  · obtain ⟨l, rest, line, hl, hyields⟩ := exists_yields_of_mem_scan h
    exact hyields.oneLine_display hl hliteral
  · rw [Token.endOn, Token.display_of_payload_eq_none]
    exact oneLine_kind_text _

end LoxReader
