import LoxReader.Expr.Basic

/-! # The grammar of expressions

A chain on a binary level folds its operands to the left, a prefix operator stands before a
unary expression, and parentheses are kept as nodes. The rules do not mention the reader. -/

namespace LoxReader

/-! ## Operators and literals -/

/-- The operators of a binary level. -/
def Level.operators : Level → List TokenKind
  | .equality => [.bangEqual, .equalEqual]
  | .comparison => [.greater, .greaterEqual, .less, .lessEqual]
  | .term => [.minus, .plus]
  | .factor => [.slash, .star]

/-- The ten binary operators, from the loosest to the tightest. -/
def binaryOperators : List TokenKind :=
  [.bangEqual, .equalEqual, .greater, .greaterEqual, .less, .lessEqual, .minus, .plus, .slash,
    .star]

/-- The tokens that are literals, each with its value. -/
inductive Token.StandsFor : Token → Literal → Prop where
  | number {line x} : StandsFor ⟨.number, line, some (.number x)⟩ (.number x)
  | string {line s} : StandsFor ⟨.string, line, some (.text s)⟩ (.string s)
  | true {line payload} : StandsFor ⟨.kwTrue, line, payload⟩ (.boolean true)
  | false {line payload} : StandsFor ⟨.kwFalse, line, payload⟩ (.boolean false)
  | nil {line payload} : StandsFor ⟨.kwNil, line, payload⟩ .nil

theorem level?_eq_some_iff {kind : TokenKind} {level : Level} :
    kind.level? = some level ↔ kind ∈ level.operators := by
  cases kind <;> cases level <;> decide

theorem level?_eq_none_iff {kind : TokenKind} :
    kind.level? = none ↔ kind ∉ binaryOperators := by
  cases kind <;> decide

theorem mem_binaryOperators {kind : TokenKind} {level : Level} (h : kind ∈ level.operators) :
    kind ∈ binaryOperators := by
  have hsome : kind.level? ≠ none := by simp [level?_eq_some_iff.mpr h]
  exact Decidable.not_not.mp (mt level?_eq_none_iff.mpr hsome)

theorem not_endOfInput_mem_operators (level : Level) :
    TokenKind.endOfInput ∉ level.operators := by
  cases level <;> decide

theorem Token.StandsFor.not_mem_binaryOperators {t : Token} {value : Literal}
    (h : t.StandsFor value) : t.kind ∉ binaryOperators := by
  cases h <;> simp [binaryOperators]

theorem Token.StandsFor.ne_endOfInput {t : Token} {value : Literal} (h : t.StandsFor value) :
    t.kind ≠ .endOfInput := by
  cases h <;> nofun

theorem literal?_eq_some_iff {t : Token} {value : Literal} :
    t.literal? = some value ↔ t.StandsFor value := by
  constructor
  · intro h
    obtain ⟨kind, line, payload⟩ := t
    simp only [Token.literal?] at h
    split at h <;> simp_all <;> subst h <;> constructor
  · rintro (_ | _ | _ | _ | _) <;> rfl

/-! ## Nonterminals -/

/-- The nonterminals of the grammar. -/
inductive Nonterminal where
  | expression | chain (level : Level) | unary | primary
deriving DecidableEq

/-- What the operators of a level stand between. -/
def Level.operand : Level → Nonterminal
  | .equality => .chain .comparison
  | .comparison => .chain .term
  | .term => .chain .factor
  | .factor => .unary

namespace Nonterminal

/-- The position of a nonterminal: a tighter one has a larger rank. -/
def rank : Nonterminal → Nat
  | .expression => 0
  | .chain level => level.rank + 1
  | .unary => 5
  | .primary => 6

/-- The nonterminal that a given one consists of when nothing is added to it. -/
def tighter : Nonterminal → Nonterminal
  | .expression => .chain .equality
  | .chain level => level.operand
  | .unary | .primary => .primary

@[simp] theorem rank_operand (level : Level) : level.operand.rank = level.rank + 2 := by
  cases level <;> rfl

theorem rank_chain_lt (level : Level) : (chain level).rank < unary.rank := by
  cases level <;> decide

theorem rank_le_primary (n : Nonterminal) : n.rank ≤ primary.rank := by
  cases n with
  | chain level => exact Nat.le_succ_of_le (Nat.le_of_lt (rank_chain_lt level))
  | _ => decide

theorem rank_tighter {n : Nonterminal} (h : n.rank < primary.rank) :
    n.tighter.rank = n.rank + 1 := by
  cases n with
  | expression => rfl
  | chain level => exact rank_operand level
  | unary => rfl
  | primary => exact absurd h (Nat.lt_irrefl _)

theorem rank_injective {m n : Nonterminal} (h : m.rank = n.rank) : m = n := by
  rcases m with _ | (_ | _ | _ | _) | _ | _ <;> rcases n with _ | (_ | _ | _ | _) | _ | _ <;>
    first | rfl | exact absurd h (by decide)

end Nonterminal

/-! ## Derivations -/

/-- Tokens that form a nonterminal, with the tree that the grammar gives them. -/
inductive Derives : Nonterminal → List Token → Expr → Prop where
  | expression {ts e} : Derives (.chain .equality) ts e → Derives .expression ts e
  | operand {level ts e} : Derives level.operand ts e → Derives (.chain level) ts e
  | binary {level ls rs l r t} : Derives (.chain level) ls l → t.kind ∈ level.operators →
      Derives level.operand rs r → Derives (.chain level) (ls ++ t :: rs) (.binary l t r)
  | primary {ts e} : Derives .primary ts e → Derives .unary ts e
  | unary {t ts e} : t.kind = .bang ∨ t.kind = .minus → Derives .unary ts e →
      Derives .unary (t :: ts) (.unary t e)
  | group {o c ts e} : o.kind = .leftParen → Derives .expression ts e →
      c.kind = .rightParen → Derives .primary (o :: (ts ++ [c])) (.group e)
  | literal {t value} : t.StandsFor value → Derives .primary [t] (.literal value)

namespace Derives

variable {m n : Nonterminal} {ts : List Token} {e : Expr}

theorem of_tighter (h : Derives n.tighter ts e) : Derives n ts e := by
  cases n with
  | expression => exact .expression h
  | chain level => exact .operand h
  | unary => exact .primary h
  | primary => exact h

/-- What forms a tighter nonterminal forms a looser one too. -/
theorem loosen (h : Derives m ts e) (hle : n.rank ≤ m.rank) : Derives n ts e := by
  -- The number of levels between the two goes down by one with each rule.
  obtain ⟨k, hk⟩ := Nat.exists_eq_add_of_le hle
  induction k generalizing n with
  | zero =>
    obtain rfl := Nonterminal.rank_injective hk
    exact h
  | succ k ih =>
    have hlt : n.rank < Nonterminal.primary.rank := by
      have := m.rank_le_primary
      omega
    have htighter := Nonterminal.rank_tighter hlt
    exact of_tighter (ih (by omega) (by omega))

theorem ne_nil (h : Derives n ts e) : ts ≠ [] := by
  induction h with
  | expression _ ih | operand _ ih | primary _ ih => exact ih
  | binary => simp
  | unary => exact List.cons_ne_nil _ _
  | group => exact List.cons_ne_nil _ _
  | literal => exact List.cons_ne_nil _ _

/-- An expression does not start at the end, and of the binary operators only the minus sign
starts one. -/
theorem exists_head (h : Derives n ts e) :
    ∃ t rest, ts = t :: rest ∧ t.kind ≠ .endOfInput ∧
      (t.kind ∈ binaryOperators → t.kind = .minus) := by
  induction h with
  | expression _ ih | operand _ ih | primary _ ih => exact ih
  | binary _ _ _ ih =>
    obtain ⟨t, rest, rfl, ht⟩ := ih
    exact ⟨t, rest ++ _, rfl, ht⟩
  | @unary t ts _ ht =>
    refine ⟨t, ts, rfl, ?_⟩
    rcases ht with ht | ht <;> rw [ht] <;> decide
  | @group o _ _ _ ho =>
    refine ⟨o, _, rfl, ?_⟩
    rw [ho]
    decide
  | @literal t value hv =>
    exact ⟨t, [], rfl, hv.ne_endOfInput, fun h => absurd h hv.not_mem_binaryOperators⟩

/-- Without its leading minus sign an expression is still one. -/
theorem of_minus_cons {t : Token} (h : Derives n (t :: ts) e) (ht : t.kind = .minus) :
    ∃ e', Derives n ts e' := by
  generalize hts : t :: ts = us at h
  induction h generalizing ts with
  | expression _ ih => exact (ih hts).imp fun _ => .expression
  | operand _ ih => exact (ih hts).imp fun _ => .operand
  | primary _ ih => exact (ih hts).imp fun _ => .primary
  | @binary level ls rs l r op hl hop hr ih _ =>
    cases ls with
    | nil => exact absurd rfl hl.ne_nil
    | cons u ls =>
      obtain ⟨rfl, rfl⟩ := List.cons.inj hts
      obtain ⟨e', he'⟩ := ih rfl
      exact ⟨_, .binary he' hop hr⟩
  | unary _ h =>
    obtain ⟨rfl, rfl⟩ := List.cons.inj hts
    exact ⟨_, h⟩
  | group ho =>
    obtain ⟨rfl, -⟩ := List.cons.inj hts
    cases ho.symm.trans ht
  | literal hv =>
    obtain ⟨rfl, -⟩ := List.cons.inj hts
    cases hv <;> cases ht

theorem ne_endOfInput (h : Derives n ts e) : ∀ t ∈ ts, t.kind ≠ .endOfInput := by
  induction h with
  | expression _ ih | operand _ ih | primary _ ih => exact ih
  | @binary level _ _ _ _ _ _ ht _ ihl ihr =>
    intro u hu
    rcases List.mem_append.mp hu with hu | hu
    · exact ihl u hu
    · rcases List.mem_cons.mp hu with rfl | hu
      · intro hend
        rw [hend] at ht
        exact not_endOfInput_mem_operators level ht
      · exact ihr u hu
  | unary ht _ ih =>
    intro u hu
    rcases List.mem_cons.mp hu with rfl | hu
    · rcases ht with ht | ht <;> rw [ht] <;> decide
    · exact ih u hu
  | group ho _ hc ih =>
    intro u hu
    simp only [List.mem_cons, List.mem_append, List.not_mem_nil, or_false] at hu
    rcases hu with rfl | hu | rfl
    · rw [ho]
      decide
    · exact ih u hu
    · rw [hc]
      decide
  | literal hv =>
    intro u hu
    obtain rfl := List.mem_singleton.mp hu
    exact hv.ne_endOfInput

end Derives

/-! ## The tokens of a tree -/

/-- What a token is in a tree. -/
inductive Piece where
  | opening | closing | literal (value : Literal) | operator (token : Token)
deriving DecidableEq

/-- What a token contributes to a tree. -/
def Token.piece (t : Token) : Piece :=
  if t.kind = .leftParen then .opening
  else if t.kind = .rightParen then .closing
  else (t.literal?.map Piece.literal).getD (.operator t)

/-- What a tree is made of, from left to right. -/
def Expr.pieces : Expr → List Piece
  | .literal value => [.literal value]
  | .group inner => .opening :: (inner.pieces ++ [.closing])
  | .unary operator operand => .operator operator :: operand.pieces
  | .binary left operator right => left.pieces ++ .operator operator :: right.pieces

theorem Token.StandsFor.piece {t : Token} {value : Literal} (h : t.StandsFor value) :
    t.piece = .literal value := by
  cases h <;> rfl

theorem piece_of_mem_binaryOperators {t : Token} (h : t.kind ∈ binaryOperators) :
    t.piece = .operator t := by
  obtain ⟨kind, line, payload⟩ := t
  simp only [binaryOperators, List.mem_cons, List.not_mem_nil, or_false] at h
  rcases h with rfl | rfl | rfl | rfl | rfl | rfl | rfl | rfl | rfl | rfl <;> rfl

theorem piece_of_unary {t : Token} (h : t.kind = .bang ∨ t.kind = .minus) :
    t.piece = .operator t := by
  obtain ⟨kind, line, payload⟩ := t
  rcases h with rfl | rfl <;> rfl

/-- Every token stands in the tree once, in its order. -/
theorem Derives.map_piece {n : Nonterminal} {ts : List Token} {e : Expr} (h : Derives n ts e) :
    ts.map Token.piece = e.pieces := by
  induction h with
  | expression _ ih | operand _ ih | primary _ ih => exact ih
  | binary _ ht _ ihl ihr =>
    simp only [List.map_append, List.map_cons, Expr.pieces, ihl, ihr,
      piece_of_mem_binaryOperators (mem_binaryOperators ht)]
  | unary ht _ ih => simp only [List.map_cons, Expr.pieces, ih, piece_of_unary ht]
  | group ho _ hc ih =>
    simp only [List.map_cons, List.map_append, List.map_nil, Expr.pieces, ih]
    simp [Token.piece, ho, hc]
  | literal hv => simp only [List.map_cons, List.map_nil, Expr.pieces, hv.piece]

end LoxReader
