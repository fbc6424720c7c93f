import LoxReader.Proofs.Expr.Precedence
import LoxReader.Proofs.Expr.Rendering
import LoxReader.Proofs.Number.Readback

/-! # Spelling trees

The pieces of a tree, each written as it is displayed and with single blanks between them, are
scanned as one lexeme each. So the spelling of a valid tree is read as that tree. -/

namespace LoxReader

open Number Text

/-! ## Spellings -/

def Piece.spelling : Piece → String
  | .opening => TokenKind.leftParen.text
  | .closing => TokenKind.rightParen.text
  | .literal value => value.display
  | .operator t => t.display

/-- The pieces of a tree with single blanks between them. -/
def Expr.spelling (e : Expr) : String :=
  " ".intercalate (e.pieces.map Piece.spelling)

/-- A literal that a source can spell: a string ends at its second quote, and a number has neither a
sign nor a negative power of ten. -/
def Literal.Spellable : Literal → Prop
  | .number x => x.Spellable
  | .string s => doubleQuote ∉ s.toList
  | .boolean _ | .nil => True

/-- A piece of a valid tree that a source can spell. -/
def Piece.Spellable : Piece → Prop
  | .opening | .closing => True
  | .literal value => value.Spellable
  | .operator t => (t.kind = .bang ∨ t.kind ∈ binaryOperators) ∧ t.payload = none

theorem Expr.PrecedenceValid.spellable_of_mem_pieces {e : Expr} (h : e.PrecedenceValid)
    (he : e.Holds Literal.Spellable fun t => t.payload = none) : ∀ p ∈ e.pieces, p.Spellable := by
  induction h with
  | literal =>
    intro p hp
    obtain rfl := List.mem_singleton.mp hp
    exact he
  | group _ ih =>
    intro p hp
    simp only [pieces, List.mem_cons, List.mem_append, List.not_mem_nil, or_false] at hp
    rcases hp with rfl | hp | rfl
    · trivial
    · exact ih he p hp
    · trivial
  | @unary t operand ht _ _ ih =>
    intro p hp
    rcases List.mem_cons.mp hp with rfl | hp
    · refine ⟨ht.imp_right fun ht => ?_, he.1⟩
      rw [ht]
      decide
    · exact ih he.2 p hp
  | @binary level l t r ht _ _ _ _ ihl ihr =>
    intro p hp
    rcases List.mem_append.mp hp with hp | hp
    · exact ihl he.1 p hp
    · rcases List.mem_cons.mp hp with rfl | hp
      · exact ⟨.inr (mem_binaryOperators ht), he.2.1⟩
      · exact ihr he.2.2 p hp

/-! ## Pieces as lexemes -/

/-- The lexeme that a piece is scanned as. -/
def Piece.lexeme : Piece → Lexeme
  | .opening => .symbol .leftParen
  | .closing => .symbol .rightParen
  | .literal (.number x) => .number x.display
  | .literal (.string s) => .string s.toList
  | .literal (.boolean b) => .word (if b then "true" else "false").toList
  | .literal .nil => .word "nil".toList
  | .operator t => .symbol t.kind

theorem separate_operator {kind : TokenKind} (h : kind = .bang ∨ kind ∈ binaryOperators) :
    (Lexeme.symbol kind).Separate := by
  apply Lexeme.separate_symbol
  revert h
  cases kind <;> decide

theorem spells_operator {t : Token} (h : t.kind = .bang ∨ t.kind ∈ binaryOperators)
    (hpayload : t.payload = none) :
    (Lexeme.symbol t.kind).Spells t.display fun t' => t'.Reads (.operator t) where
  separate := separate_operator h
  text_eq := congrArg String.toList (Token.showsKind_of_operator h).display.symm
  exists_token line := ⟨⟨t.kind, line, none⟩, rfl, .operator rfl hpayload⟩

theorem spells_number {x : Binary64} (h : x.Spellable) :
    (Lexeme.number x.display).Spells (String.ofList x.display) fun t =>
      t.Reads (.literal (.number x)) := by
  obtain ⟨n, hn, hspelling, hequals⟩ := h.exists_numeral
  rw [← hspelling]
  refine ⟨Lexeme.separate_numeral hn, String.toList_ofList.symm, fun line => ?_⟩
  exact ⟨_, (Lexeme.Yields.numeral hn).outcome, .literal .number hequals⟩

theorem spells_string {s : String} (h : doubleQuote ∉ s.toList) :
    (Lexeme.string s.toList).Spells (Literal.string s).display fun t =>
      t.Reads (.literal (.string s)) := by
  refine ⟨Lexeme.separate_string h, (Literal.toList_display_string s).symm, fun line => ?_⟩
  refine ⟨_, rfl, .literal .string ?_⟩
  rw [String.ofList_toList]
  exact beq_self_eq_true s

/-- The words of the truth values and of nil. -/
theorem separate_literalWord {word : String}
    (h : word = "true" ∨ word = "false" ∨ word = "nil") : (Lexeme.word word.toList).Separate := by
  rcases h with rfl | rfl | rfl
  · exact Lexeme.separate_word (by decide) (List.all_eq_true.mp (by decide))
  · exact Lexeme.separate_word (by decide) (List.all_eq_true.mp (by decide))
  · exact Lexeme.separate_word (by decide) (List.all_eq_true.mp (by decide))

/-- The lexeme of a piece spells it and is scanned as a token that stands for it. -/
theorem Piece.Spellable.spells {p : Piece} (h : p.Spellable) :
    p.lexeme.Spells p.spelling fun t => t.Reads p := by
  cases p with
  | opening =>
    have hopening : (Lexeme.symbol .leftParen).Separate := Lexeme.separate_symbol (.inl (by decide))
    exact ⟨hopening, rfl, fun _ => ⟨_, rfl, .opening rfl⟩⟩
  | closing =>
    have hclosing : (Lexeme.symbol .rightParen).Separate :=
      Lexeme.separate_symbol (.inl (by decide))
    exact ⟨hclosing, rfl, fun _ => ⟨_, rfl, .closing rfl⟩⟩
  | operator t => exact spells_operator h.1 h.2
  | literal value =>
    cases value with
    | number x => exact spells_number h
    | string s => exact spells_string h
    | boolean b =>
      cases b with
      | true => exact ⟨separate_literalWord (by simp), rfl, fun _ => ⟨_, rfl, .literal .true rfl⟩⟩
      | false => exact ⟨separate_literalWord (by simp), rfl, fun _ => ⟨_, rfl, .literal .false rfl⟩⟩
    | nil => exact ⟨separate_literalWord (by simp), rfl, fun _ => ⟨_, rfl, .literal .nil rfl⟩⟩

namespace Expr

/-- A tree that is read from a source is valid. -/
theorem precedenceValid_of_ofSource {source : String} {e : Expr} (h : ofSource source = .ok e) :
    e.PrecedenceValid := by
  simp only [ofSource] at h
  split at h
  · cases h
  · next tokens _ =>
    split at h
    · next tree htree =>
      obtain rfl := Except.ok.inj h
      have hread : readExpr {} tokens =
          ⟨.ok tree, (readExpr {} tokens).place, (readExpr {} tokens).rest⟩ := by
        rw [← htree]
      obtain ⟨used, -, hd, -, -⟩ := readExpr_eq_ok_iff.mp hread
      exact hd.precedenceValid.1
    · cases h

/-- The spelling of a valid tree is read as that tree. -/
theorem PrecedenceValid.ofSource_spelling {e : Expr} (h : e.PrecedenceValid)
    (he : e.Holds Literal.Spellable fun t => t.payload = none) :
    ∃ e', ofSource e.spelling = .ok e' ∧ e.SameUpToLines e' := by
  obtain ⟨ts, line, htokens, hreads⟩ :=
    exists_tokenize_intercalate fun p hp => ⟨_, (h.spellable_of_mem_pieces he p hp).spells⟩
  have htokens : tokenize e.spelling = .ok (ts ++ [.endOn line]) := htokens
  obtain ⟨e', hd, hsame⟩ := h.exists_derives hreads
  have hread :
      readExpr {} (ts ++ [.endOn line]) = ⟨.ok e', Place.after {} ts, [.endOn line]⟩ := by
    refine readExpr_eq_ok_iff.mpr ⟨ts, rfl, hd.loosen (Nat.zero_le _), rfl, ?_⟩
    intro t ht
    obtain rfl := Option.some.inj ht
    simp [Token.endOn, binaryOperators]
  refine ⟨e', ?_, hsame⟩
  simp only [ofSource, htokens, hread]

/-- Only valid trees are read from a source, and each of them that can be spelled is read again from
its spelling, up to the lines of operators. -/
theorem precedenceValid_and_ofSource_spelling :
    (∀ source e, ofSource source = .ok e → e.PrecedenceValid) ∧
    ∀ e : Expr, e.PrecedenceValid → (e.Holds Literal.Spellable fun t => t.payload = none) →
      ∃ e', ofSource e.spelling = .ok e' ∧ e.SameUpToLines e' :=
  ⟨fun _ _ => precedenceValid_of_ofSource, fun _ => PrecedenceValid.ofSource_spelling⟩

/-- A chain that leans to the left, a negative zero, a fraction, and a group with a string. -/
theorem precedenceValid_and_ofSource_spelling_chain :
    ∃ e', ofSource "0 - 0.5 - ( ! \"a b\" )" = .ok e' ∧ e'.PrecedenceValid ∧
      (binary
        (binary (literal (.number (.finite true ⟨0, by decide⟩))) ⟨.minus, 7, none⟩
          (literal (.number (.finite false ⟨1022 * Nat.pow 2 52, by decide⟩))))
        ⟨.minus, 8, none⟩
        (group (unary ⟨.bang, 9, none⟩ (literal (.string "a b"))))).SameUpToLines e' := by
  let tree :=
    binary
      (binary (literal (.number (.finite true ⟨0, by decide⟩))) ⟨.minus, 7, none⟩
        (literal (.number (.finite false ⟨1022 * Nat.pow 2 52, by decide⟩))))
      ⟨.minus, 8, none⟩
      (group (unary ⟨.bang, 9, none⟩ (literal (.string "a b"))))
  have hminus : TokenKind.minus ∈ Level.term.operators := by decide
  have hvalid : tree.PrecedenceValid := by
    refine .binary hminus ?_ (by simp [level?]) (.binary hminus (by simp [level?])
      (by simp [level?]) .literal .literal) (.group (.unary (.inl rfl) nofun .literal))
    simp [level?, TokenKind.level?]
  have hzero : Binary64.Spellable (.finite true ⟨0, by decide⟩) := Binary64.spellable_zero true
  have hhalf : Binary64.Spellable (.finite false ⟨1022 * Nat.pow 2 52, by decide⟩) :=
    Binary64.spellable_of_le (by decide +kernel)
  have hbody : doubleQuote ∉ "a b".toList := by decide
  have hspellable : tree.Holds Literal.Spellable fun t => t.payload = none :=
    ⟨⟨hzero, rfl, hhalf⟩, rfl, rfl, hbody⟩
  have hspelling : tree.spelling = "0 - 0.5 - ( ! \"a b\" )" := by decide +kernel
  obtain ⟨e', hread, hsame⟩ := precedenceValid_and_ofSource_spelling.2 tree hvalid hspellable
  rw [hspelling] at hread
  exact ⟨e', hread, precedenceValid_and_ofSource_spelling.1 _ e' hread, hsame⟩

end Expr

end LoxReader
