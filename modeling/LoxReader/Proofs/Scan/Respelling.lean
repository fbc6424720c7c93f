import LoxReader.Proofs.Number.Readback
import LoxReader.Proofs.Scan.Separate

/-! # Respelling tokens

The tokens of a source are scanned again when they stand in their display forms with single blanks
between them: a lexeme of each class is displayed as a lexeme of the same class, and no blank joins
two of them or starts a comment. -/

namespace LoxReader

open Number Text

namespace Token

/-- What a token is besides its line. -/
def content (t : Token) : TokenKind × Option Payload :=
  (t.kind, t.payload)

theorem display_of_payload_eq_none (kind : TokenKind) (line : Int) :
    (Token.mk kind line none).display = kind.text := by
  cases kind <;> rfl

/-- The display form does not show the line. -/
theorem display_of_content_eq {t t' : Token} (h : t.content = t'.content) :
    t.display = t'.display := by
  obtain ⟨hkind, hpayload⟩ := Prod.mk.inj h
  simp only [display, hkind, hpayload]

/-- Tokens in display form with single blanks between them. -/
def displayAll (ts : List Token) : String :=
  " ".intercalate (ts.map display)

theorem displayAll_of_content_eq {ts ts' : List Token} (h : ts.map content = ts'.map content) :
    displayAll ts = displayAll ts' := by
  have hcontent (ts : List Token) :
      ts.map display = (ts.map content).map fun c => (mk c.1 1 c.2).display := by
    rw [List.map_map]
    exact List.map_congr_left fun t _ => display_of_content_eq rfl
  rw [displayAll, displayAll, hcontent, hcontent, h]

end Token

/-- The display form of a scanned token is scanned as one lexeme, which becomes the same token. A
number has to be one that is displayed without a sign and without a negative power of ten. -/
theorem Lexeme.Yields.exists_spells {l : Lexeme} {line : Int} {t : Token}
    (h : l.Yields line (.ok t)) {rest : List Char} (hl : l.IsLongest rest)
    (hnumber : ∀ x, t.payload = some (.number x) → x.Spellable) :
    ∃ l' : Lexeme, l'.Spells t.display fun t' => t'.content = t.content := by
  have hseparate := h.separate hl
  cases h with
  | @symbol kind =>
    refine ⟨_, hseparate, ?_, fun line' => ⟨_, rfl, rfl⟩⟩
    rw [Token.display_of_payload_eq_none, text]
  | string =>
    refine ⟨_, hseparate, ?_, fun line' => ⟨_, rfl, rfl⟩⟩
    simp [Token.display, text, doubleQuote]
  | @numeral n =>
    have hspellable := hnumber _ rfl
    rw [Decimal.toBinary64_eq] at hspellable
    obtain ⟨n', hn', hspelling, hread⟩ := hspellable.exists_numeral_of_ofRank
    rw [← Decimal.toBinary64_eq] at hspelling hread
    refine ⟨.number n'.spelling, separate_numeral hn', ?_, fun line' =>
      ⟨_, (Yields.numeral hn').outcome, ?_⟩⟩
    · rw [text, hspelling]
      exact String.toList_ofList.symm
    · rw [hread]
      rfl
  | keyword hmem =>
    refine ⟨_, hseparate, ?_, fun line' => ⟨_, (Yields.keyword hmem).outcome, rfl⟩⟩
    rw [Token.display_of_payload_eq_none, text]
  | identifier hletters =>
    exact ⟨_, hseparate, String.toList_ofList.symm, fun line' =>
      ⟨_, (Yields.identifier hletters).outcome, rfl⟩⟩

theorem exists_spells_of_mem_scan {source : List Char} {t : Token}
    (h : t ∈ (scan source).tokens)
    (hnumber : ∀ x, t.payload = some (.number x) → x.Spellable) :
    ∃ l : Lexeme, l.Spells t.display fun t' => t'.content = t.content := by
  obtain ⟨l, rest, line, hl, hyields⟩ := exists_yields_of_mem_scan h
  exact hyields.exists_spells hl hnumber

theorem tokenize_eq_ok {source : String} {tokens : List Token}
    (h : tokenize source = .ok tokens) : tokens = (scan source.toList).allTokens := by
  simp only [tokenize] at h
  split at h
  · exact (Except.ok.inj h).symm
  · cases h

/-- The tokens of a source without the one for the end, in display form and with single blanks
between them, are a source with the same kinds and payloads, and in display form the same text
again. -/
theorem tokenize_displayAll {source : String} {tokens : List Token}
    (h : tokenize source = .ok tokens)
    (hnumbers : ∀ t ∈ tokens, ∀ x, t.payload = some (.number x) → x.Spellable) :
    ∃ body line, tokens = body ++ [.endOn line] ∧ (∀ t ∈ body, t.kind ≠ .endOfInput) ∧
      ∃ body' line', tokenize (Token.displayAll body) = .ok (body' ++ [.endOn line']) ∧
        body'.map Token.content = body.map Token.content ∧
        Token.displayAll body' = Token.displayAll body := by
  obtain rfl := tokenize_eq_ok h
  have hspells : ∀ t ∈ (scan source.toList).tokens,
      ∃ l : Lexeme, l.Spells t.display fun t' => t'.content = t.content := by
    intro t ht
    exact exists_spells_of_mem_scan ht (hnumbers t (List.mem_append_left _ ht))
  obtain ⟨body', line', htokens, hcontents⟩ := exists_tokenize_intercalate hspells
  have hcontents : body'.map Token.content = (scan source.toList).tokens.map Token.content := by
    rw [← List.forall₂_eq_eq_eq, List.forall₂_map_left_iff, List.forall₂_map_right_iff]
    exact hcontents
  exact ⟨_, _, rfl, fun t => ne_endOfInput_of_mem_scan, body', line', htokens, hcontents,
    Token.displayAll_of_content_eq hcontents⟩

/-- A comment and a newline vanish, and what looks like a comment in a string stays. -/
theorem tokenize_displayAll_slashes :
    ∃ body line, tokenize "10 / 0.5 != \"a // b\" and x" = .ok (body ++ [.endOn line]) ∧
      body.map Token.content =
        [(.number, some (.number (.finite false ⟨4105 * Nat.pow 2 50, by decide⟩))), (.slash, none),
          (.number, some (.number (.finite false ⟨1022 * Nat.pow 2 52, by decide⟩))),
          (.bangEqual, none), (.string, some (.text "a // b")), (.kwAnd, none),
          (.identifier, some (.text "x"))] := by
  let ten : Binary64 := .finite false ⟨4105 * Nat.pow 2 50, by decide⟩
  let half : Binary64 := .finite false ⟨1022 * Nat.pow 2 52, by decide⟩
  let body : List Token :=
    [⟨.number, 1, some (.number ten)⟩, ⟨.slash, 1, none⟩, ⟨.number, 1, some (.number half)⟩,
      ⟨.bangEqual, 2, none⟩, ⟨.string, 2, some (.text "a // b")⟩, ⟨.kwAnd, 2, none⟩,
      ⟨.identifier, 2, some (.text "x")⟩]
  have htokens : tokenize "10/0.5// c\n!=\"a // b\"and x" = .ok (body ++ [.endOn 2]) := by
    decide +kernel
  have hten : ten.Spellable := Binary64.spellable_of_le (by decide +kernel)
  have hhalf : half.Spellable := Binary64.spellable_of_le (by decide +kernel)
  have hnumbers : ∀ t ∈ body ++ [.endOn 2], ∀ x, t.payload = some (.number x) → x.Spellable := by
    simp [body, Token.endOn, hten, hhalf]
  have hdisplay : Token.displayAll body = "10 / 0.5 != \"a // b\" and x" := by decide +kernel
  obtain ⟨body₁, line₁, hbody, -, body', line', hagain, hcontents, -⟩ :=
    tokenize_displayAll htokens hnumbers
  obtain ⟨rfl, -⟩ := List.append_inj' hbody rfl
  rw [hdisplay] at hagain
  exact ⟨body', line', hagain, hcontents⟩

end LoxReader
