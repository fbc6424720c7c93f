import LoxReader.Proofs.Expr.Alike

/-! # Precedence in trees

A tree is valid when it needs no parentheses besides those that it holds: below a binary node stand
tighter nodes only, or to its left nodes of the same level. The grammar derives valid trees only,
and it derives each of them from its own tokens. -/

namespace LoxReader

namespace Expr

/-- The level of a binary node. -/
def level? : Expr → Option Level
  | .binary _ operator _ => operator.kind.level?
  | _ => none

/-- A tree whose binary nodes hold tighter nodes, or nodes of the same level to the left, and whose
prefix operators stand before anything but a binary node. -/
inductive PrecedenceValid : Expr → Prop where
  | literal {value} : PrecedenceValid (.literal value)
  | group {inner} : PrecedenceValid inner → PrecedenceValid (.group inner)
  | unary {t operand} : t.kind = .bang ∨ t.kind = .minus → (∀ l u r, operand ≠ .binary l u r) →
      PrecedenceValid operand → PrecedenceValid (.unary t operand)
  | binary {level : Level} {l t r} : t.kind ∈ level.operators →
      (∀ inner ∈ l.level?, level.rank ≤ inner.rank) →
      (∀ inner ∈ r.level?, level.rank < inner.rank) →
      PrecedenceValid l → PrecedenceValid r → PrecedenceValid (.binary l t r)

/-- The tightest nonterminal that a tree belongs to. -/
def tightest : Expr → Nonterminal
  | .literal _ | .group _ => .primary
  | .unary _ _ => .unary
  | .binary _ operator _ => (operator.kind.level?.map .chain).getD .expression

theorem tightest_binary {level : Level} {t : Token} (h : t.kind ∈ level.operators) (l r : Expr) :
    (binary l t r).tightest = .chain level := by
  simp only [tightest, level?_eq_some_iff.mpr h, Option.map_some, Option.getD_some]

theorem le_of_mem_level? {e : Expr} {n : Nat} (h : n ≤ e.tightest.rank) :
    ∀ inner ∈ e.level?, n ≤ inner.rank + 1 := by
  intro inner hinner
  cases e with
  | binary l t r =>
    rwa [tightest_binary (level?_eq_some_iff.mp hinner)] at h
  | _ => cases hinner

theorem PrecedenceValid.le_rank_tightest {e : Expr} (h : e.PrecedenceValid) {n : Nat}
    (hn : n ≤ Nonterminal.unary.rank) (hlevel : ∀ inner ∈ e.level?, n ≤ inner.rank + 1) :
    n ≤ e.tightest.rank := by
  cases h with
  | literal => exact Nat.le_succ_of_le hn
  | group => exact Nat.le_succ_of_le hn
  | unary => exact hn
  | @binary level l t r ht =>
    rw [tightest_binary ht]
    exact hlevel level (level?_eq_some_iff.mpr ht)

end Expr

/-- What the grammar derives is valid, and not looser than the nonterminal. -/
theorem Derives.precedenceValid {n : Nonterminal} {ts : List Token} {e : Expr}
    (h : Derives n ts e) : e.PrecedenceValid ∧ n.rank ≤ e.tightest.rank := by
  induction h with
  | expression _ ih => exact ⟨ih.1, Nat.zero_le _⟩
  | @operand level _ _ _ ih =>
    have hrank := ih.2
    rw [Nonterminal.rank_operand] at hrank
    exact ⟨ih.1, Nat.le_of_succ_le hrank⟩
  | @binary level ls rs l r t _ ht _ ihl ihr =>
    have hright := ihr.2
    rw [Nonterminal.rank_operand] at hright
    refine ⟨.binary ht ?_ ?_ ihl.1 ihr.1, ?_⟩
    · intro inner hinner
      exact Nat.le_of_succ_le_succ (Expr.le_of_mem_level? ihl.2 inner hinner)
    · intro inner hinner
      exact Nat.le_of_succ_le_succ (Expr.le_of_mem_level? hright inner hinner)
    · rw [Expr.tightest_binary ht]
  | primary _ ih => exact ⟨ih.1, Nat.le_of_succ_le ih.2⟩
  | @unary t ts e ht _ ih =>
    refine ⟨.unary ht ?_ ih.1, Nat.le_refl _⟩
    rintro l u r rfl
    cases ih.1 with
    | @binary level _ _ _ hu =>
      have hrank := ih.2
      rw [Expr.tightest_binary hu] at hrank
      exact absurd hrank (Nat.not_le.mpr (Nonterminal.rank_chain_lt level))
  | group _ _ _ ih => exact ⟨.group ih.1, Nat.le_refl _⟩
  | literal => exact ⟨.literal, Nat.le_refl _⟩

/-! ## Deriving a valid tree -/

/-- A token that stands for a piece, up to the line of an operator and the sign of zero. -/
inductive Token.Reads (t : Token) : Piece → Prop where
  | opening : t.kind = .leftParen → Reads t .opening
  | closing : t.kind = .rightParen → Reads t .closing
  | literal {value read} : t.StandsFor read → value.equals read = true → Reads t (.literal value)
  | operator {u} : u.kind = t.kind → u.payload = t.payload → Reads t (.operator u)

namespace Expr

/-- Trees that are equal up to the lines of their operators, with numbers compared as numbers. -/
def SameUpToLines : Expr → Expr → Prop :=
  Alike (fun a b => a.equals b = true) fun t u => t.kind = u.kind ∧ t.payload = u.payload

theorem exists_append_of_reads {ts : List Token} {ps qs : List Piece}
    (h : List.Forall₂ Token.Reads ts (ps ++ qs)) :
    ∃ us vs, ts = us ++ vs ∧ List.Forall₂ Token.Reads us ps ∧ List.Forall₂ Token.Reads vs qs :=
  ⟨_, _, (List.take_append_drop ps.length ts).symm, List.forall₂_take_append ts ps qs h,
    List.forall₂_drop_append ts ps qs h⟩

/-- Tokens that stand for the pieces of a valid tree derive that tree. -/
theorem PrecedenceValid.exists_derives {e : Expr} (he : e.PrecedenceValid) {ts : List Token}
    (h : List.Forall₂ Token.Reads ts e.pieces) :
    ∃ e', Derives e.tightest ts e' ∧ e.SameUpToLines e' := by
  -- An operand is derived as tightly as it can be, and loosened to what the rule asks for.
  induction he generalizing ts with
  | @literal value =>
    obtain ⟨t, us, hread, hnil, rfl⟩ := List.forall₂_cons_right_iff.mp h
    obtain rfl := List.forall₂_nil_right_iff.mp hnil
    cases hread with
    | literal hstands hequals => exact ⟨_, .literal hstands, .literal hequals⟩
  | @group inner _ ih =>
    obtain ⟨o, us, hopen, hrest, rfl⟩ := List.forall₂_cons_right_iff.mp h
    obtain ⟨us, vs, rfl, hinner, hlast⟩ := exists_append_of_reads hrest
    obtain ⟨c, ws, hclose, hnil, rfl⟩ := List.forall₂_cons_right_iff.mp hlast
    obtain rfl := List.forall₂_nil_right_iff.mp hnil
    obtain ⟨e', hd, hsame⟩ := ih hinner
    cases hopen with
    | opening hopen =>
      cases hclose with
      | closing hclose =>
        exact ⟨_, .group hopen (hd.loosen (Nat.zero_le _)) hclose, .group hsame⟩
  | @unary t operand ht hoperand hvalid ih =>
    obtain ⟨u, us, hread, hrest, rfl⟩ := List.forall₂_cons_right_iff.mp h
    obtain ⟨e', hd, hsame⟩ := ih hrest
    cases hread with
    | operator hkind hpayload =>
      have hrank : Nonterminal.unary.rank ≤ operand.tightest.rank := by
        refine hvalid.le_rank_tightest le_rfl ?_
        intro inner hinner
        cases operand with
        | binary l v r => exact absurd rfl (hoperand l v r)
        | _ => cases hinner
      exact ⟨_, .unary (hkind ▸ ht) (hd.loosen hrank), .unary ⟨hkind, hpayload⟩ hsame⟩
  | @binary level l t r ht hleft hright hl hr ihl ihr =>
    obtain ⟨us, vs, rfl, hls, hrest⟩ := exists_append_of_reads h
    obtain ⟨u, rs, hread, hrs, rfl⟩ := List.forall₂_cons_right_iff.mp hrest
    obtain ⟨l', hdl, hsamel⟩ := ihl hls
    obtain ⟨r', hdr, hsamer⟩ := ihr hrs
    cases hread with
    | operator hkind hpayload =>
      have hlevel := Nonterminal.rank_chain_lt level
      have hrankl : (Nonterminal.chain level).rank ≤ l.tightest.rank :=
        hl.le_rank_tightest hlevel.le fun inner hinner => Nat.succ_le_succ (hleft inner hinner)
      have hrankr : level.operand.rank ≤ r.tightest.rank := by
        rw [Nonterminal.rank_operand]
        exact hr.le_rank_tightest hlevel fun inner hinner => Nat.succ_le_succ (hright inner hinner)
      rw [tightest_binary ht]
      exact ⟨_, .binary (hdl.loosen hrankl) (hkind ▸ ht) (hdr.loosen hrankr),
        .binary hsamel ⟨hkind, hpayload⟩ hsamer⟩

end Expr

end LoxReader
