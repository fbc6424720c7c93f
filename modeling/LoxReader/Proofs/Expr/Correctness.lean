import LoxReader.Expr.Reader
import LoxReader.Proofs.Expr.Feeding

/-! # Reading follows the grammar

The frames of a run spell the tokens taken so far, each with a derivation for its left operand,
so a tree that comes out is derived. Conversely a derivation is read back as a whole, as long as
the token behind it cannot extend it. -/

namespace LoxReader

/-! ## What unfinished nodes stand for -/

/-- The nonterminal that is being read on top of unfinished nodes. -/
def awaited : List Frame → Nonterminal
  | [] | .group _ :: _ => .expression
  | .unary _ :: _ => .unary
  | .binary _ _ level :: _ => level.operand

/-- Tokens that leave a stack of unfinished nodes. A node on a level stands only where a chain
on that level may be read. -/
inductive Spells : List Frame → List Token → Prop where
  | nil : Spells [] []
  | group {frames ts t} : t.kind = .leftParen → Spells frames ts →
      Spells (.group t.line :: frames) (ts ++ [t])
  | unary {frames ts t} : t.kind = .bang ∨ t.kind = .minus → Spells frames ts →
      Spells (.unary t :: frames) (ts ++ [t])
  | binary {frames ts left ls t level} : t.kind ∈ level.operators →
      (awaited frames).rank ≤ (Nonterminal.chain level).rank →
      Derives (.chain level) ls left → Spells frames ts →
      Spells (.binary left t level :: frames) (ts ++ ls ++ [t])

/-- What the tokens taken in by a state have to be. -/
def ReadState.SpelledBy : ReadState → List Token → Prop
  | .before frames, ts => Spells frames ts
  | .behind operand frames, ts =>
    ∃ front last, ts = front ++ last ∧ Spells frames front ∧ Derives .primary last operand

theorem isUnaryOperator_iff {kind : TokenKind} :
    kind.isUnaryOperator = true ↔ kind = .bang ∨ kind = .minus := by
  cases kind <;> simp [TokenKind.isUnaryOperator]

theorem rank_awaited_le_unary (frames : List Frame) :
    (awaited frames).rank ≤ Nonterminal.unary.rank := by
  match frames with
  | [] | .group _ :: _ => exact Nat.zero_le _
  | .unary _ :: _ => exact Nat.le_refl _
  | .binary _ _ level :: _ =>
    rw [awaited, Nonterminal.rank_operand]
    exact Nonterminal.rank_chain_lt level

/-! ## A tree that is read is derived -/

/-- Completing nodes keeps the tokens and turns the operand into a whole expression. -/
theorem Spells.complete {frames : List Frame} {front : List Token} (hs : Spells frames front)
    {n : Nonterminal} {last : List Token} {operand : Expr} (hd : Derives n last operand)
    (hn : (awaited frames).rank ≤ n.rank) :
    ∃ front' last', front ++ last = front' ++ last' ∧
      Spells (complete operand frames).2 front' ∧
      Derives .expression last' (complete operand frames).1 := by
  induction hs generalizing n last operand with
  | nil => exact ⟨[], last, rfl, .nil, hd.loosen hn⟩
  | group ht hs => exact ⟨_, last, rfl, .group ht hs, hd.loosen hn⟩
  | @unary frames ts t ht hs ih =>
    obtain ⟨front', last', heq, hs', hd'⟩ :=
      ih (Derives.unary ht (hd.loosen hn)) (rank_awaited_le_unary frames)
    exact ⟨front', last', by rw [← heq]; simp, hs', hd'⟩
  | binary ht hle hl hs ih =>
    obtain ⟨front', last', heq, hs', hd'⟩ := ih (Derives.binary hl ht (hd.loosen hn)) hle
    exact ⟨front', last', by rw [← heq]; simp, hs', hd'⟩

/-- Completing the nodes that bind at least as tightly as a level leaves a left operand for
that level, where a chain on the level may be read. -/
theorem Spells.completeTo {frames : List Frame} {front : List Token} (hs : Spells frames front)
    (level : Level) {n : Nonterminal} {last : List Token} {operand : Expr}
    (hd : Derives n last operand) (hn : (awaited frames).rank ≤ n.rank)
    (hlevel : (Nonterminal.chain level).rank ≤ n.rank) :
    ∃ front' last', front ++ last = front' ++ last' ∧
      Spells (completeTo level operand frames).2 front' ∧
      Derives (.chain level) last' (completeTo level operand frames).1 ∧
      (awaited (completeTo level operand frames).2).rank ≤ (Nonterminal.chain level).rank := by
  induction hs generalizing n last operand with
  | nil => exact ⟨[], last, rfl, .nil, hd.loosen hlevel, Nat.zero_le _⟩
  | group ht hs => exact ⟨_, last, rfl, .group ht hs, hd.loosen hlevel, Nat.zero_le _⟩
  | @unary frames ts t ht hs ih =>
    obtain ⟨front', last', heq, hrest⟩ :=
      ih (Derives.unary ht (hd.loosen hn)) (rank_awaited_le_unary frames)
        (Nat.le_of_lt (Nonterminal.rank_chain_lt level))
    exact ⟨front', last', by rw [← heq]; simp, hrest⟩
  | @binary frames ts left ls t level' ht hle hl hs ih =>
    simp only [LoxReader.completeTo]
    split
    · next hrank =>
      obtain ⟨front', last', heq, hrest⟩ :=
        ih (Derives.binary hl ht (hd.loosen hn)) hle (Nat.succ_le_succ hrank)
      exact ⟨front', last', by rw [← heq]; simp, hrest⟩
    · next hrank =>
      refine ⟨_, last, rfl, .binary ht hle hl hs, hd.loosen hlevel, ?_⟩
      rw [awaited, Nonterminal.rank_operand]
      exact Nat.succ_le_succ (Nat.lt_of_not_le hrank)

namespace ReadState

/-- One step: the next state is spelled by one token more. -/
theorem SpelledBy.feed {s next : ReadState} {ts : List Token} {t : Token}
    (hs : s.SpelledBy ts) (h : s.feed t = some next) : next.SpelledBy (ts ++ [t]) := by
  cases s with
  | before frames =>
    simp only [ReadState.feed] at h
    split at h
    · next hopen =>
      obtain rfl := Option.some.inj h
      exact .group hopen hs
    · split at h
      · next hunary =>
        obtain rfl := Option.some.inj h
        exact .unary (isUnaryOperator_iff.mp hunary) hs
      · obtain ⟨value, hvalue, rfl⟩ := Option.map_eq_some_iff.mp h
        exact ⟨ts, [t], rfl, hs, .literal (literal?_eq_some_iff.mp hvalue)⟩
  | behind operand frames =>
    obtain ⟨front, last, rfl, hfront, hlast⟩ := hs
    have hprimary := Nonterminal.rank_le_primary
    simp only [ReadState.feed] at h
    split at h
    · next level hlevel =>
      obtain rfl := Option.some.inj h
      obtain ⟨front', last', heq, hs', hd', hle⟩ :=
        hfront.completeTo level hlast (hprimary _) (hprimary _)
      rw [heq]
      exact .binary (level?_eq_some_iff.mp hlevel) hle hd' hs'
    · split at h
      · next inner openLine outer hcomplete =>
        split at h
        · next hclose =>
          obtain rfl := Option.some.inj h
          obtain ⟨front', last', heq, hs', hd'⟩ := hfront.complete hlast (hprimary _)
          simp only [hcomplete] at hs' hd'
          rw [heq]
          cases hs' with
          | group hopen houter =>
            refine ⟨_, _, ?_, houter, .group hopen hd' hclose⟩
            simp
        · cases h
      · cases h

/-- A whole run: the tokens taken spell the state that it stops in. -/
theorem SpelledBy.feedAll {s stop : ReadState} {ts used : List Token} (hs : s.SpelledBy ts)
    (h : s.feedAll used = some stop) : stop.SpelledBy (ts ++ used) := by
  induction used generalizing s ts with
  | nil =>
    obtain rfl := Option.some.inj h
    rwa [List.append_nil]
  | cons t used ih =>
    rw [feedAll_cons] at h
    obtain ⟨next, hnext, hused⟩ := Option.bind_eq_some_iff.mp h
    rw [List.append_cons]
    exact ih (hs.feed hnext) hused

theorem spelledBy_start : (before []).SpelledBy [] :=
  .nil

/-- A state that ends with a tree has taken in the tokens of that tree. -/
theorem SpelledBy.derives {s : ReadState} {ts : List Token} (hs : s.SpelledBy ts) {p : Place}
    {rest : List Token} {tree : Expr} (h : s.outcome p rest = .ok tree) :
    Derives .expression ts tree := by
  cases s with
  | before frames =>
    simp only [outcome] at h
    split at h
    · cases h
    · split at h <;> cases h
  | behind operand frames =>
    obtain ⟨front, last, rfl, hfront, hlast⟩ := hs
    obtain ⟨front', last', heq, hs', hd'⟩ :=
      hfront.complete hlast (Nonterminal.rank_le_primary _)
    rcases complete_cases operand frames with ⟨tree', hcomplete⟩ | ⟨inner, line, outer, hcomplete⟩
    · simp only [outcome, hcomplete] at h
      simp only [hcomplete] at hs' hd'
      obtain rfl := Except.ok.inj h
      cases hs'
      rwa [heq]
    · simp only [outcome, hcomplete] at h
      cases h

end ReadState

/-! ## What is derived is read as a whole -/

/-- No operator that binds more tightly than `n` stands in front of the tokens, so they do not
extend what has been read as `n`. -/
def EndsAt (n : Nonterminal) (rest : List Token) : Prop :=
  ∀ t ∈ rest.head?, ∀ level : Level, t.kind ∈ level.operators →
    (Nonterminal.chain level).rank ≤ n.rank

theorem EndsAt.mono {m n : Nonterminal} {rest : List Token} (h : EndsAt n rest)
    (hle : n.rank ≤ m.rank) : EndsAt m rest :=
  fun t ht level hlevel => Nat.le_trans (h t ht level hlevel) hle

theorem endsAt_unary (rest : List Token) : EndsAt .unary rest :=
  fun _ _ level _ => Nat.le_of_lt (Nonterminal.rank_chain_lt level)

theorem endsAt_expression_iff {rest : List Token} :
    EndsAt .expression rest ↔ ∀ t ∈ rest.head?, t.kind ∉ binaryOperators := by
  constructor
  · intro h t ht hmem
    cases hlevel : t.kind.level? with
    | none => exact level?_eq_none_iff.mp hlevel hmem
    | some level => exact Nat.not_succ_le_zero _ (h t ht level (level?_eq_some_iff.mp hlevel))
  · intro h t ht level hlevel
    exact absurd (mem_binaryOperators hlevel) (h t ht)

theorem completeTo_of_rank_le {level : Level} {operand : Expr} {frames : List Frame}
    (h : (awaited frames).rank ≤ (Nonterminal.chain level).rank) :
    completeTo level operand frames = (operand, frames) := by
  match frames with
  | [] | .group _ :: _ => rfl
  | .unary _ :: _ => exact absurd h (Nat.not_le.mpr (Nonterminal.rank_chain_lt level))
  | .binary left t level' :: frames =>
    rw [awaited, Nonterminal.rank_operand] at h
    exact if_neg (Nat.not_le.mpr (Nat.le_of_succ_le_succ h))

theorem readOperator_unary (operand : Expr) (t : Token) (frames : List Frame) (p : Place)
    (rest : List Token) :
    readOperator operand (.unary t :: frames) p rest =
      readOperator (.unary t operand) frames p rest := by
  cases rest <;> simp only [readOperator, complete, completeTo]

/-- A binary node is complete when no tighter operator follows. -/
theorem readOperator_binary (operand left : Expr) (t : Token) (level : Level)
    (frames : List Frame) (p : Place) {rest : List Token} (h : EndsAt (.chain level) rest) :
    readOperator operand (.binary left t level :: frames) p rest =
      readOperator (.binary left t operand) frames p rest := by
  cases rest with
  | nil => simp only [readOperator, complete]
  | cons u rest =>
    simp only [readOperator, complete]
    cases hlevel : u.kind.level? with
    | none => rfl
    | some level' =>
      have hle := h u rfl level' (level?_eq_some_iff.mp hlevel)
      simp only [completeTo, if_pos (Nat.le_of_succ_le_succ hle)]

theorem readOperator_close (operand : Expr) (line : Int) (frames : List Frame) (p : Place)
    {t : Token} (h : t.kind = .rightParen) (rest : List Token) :
    readOperator operand (.group line :: frames) p (t :: rest) =
      readOperator (.group operand) frames (p.advance t) rest := by
  simp [readOperator, h, TokenKind.level?, complete]

theorem readOperator_level (operand : Expr) {frames : List Frame} (p : Place) {t : Token}
    {level : Level} (ht : t.kind ∈ level.operators)
    (h : (awaited frames).rank ≤ (Nonterminal.chain level).rank) (rest : List Token) :
    readOperator operand frames p (t :: rest) =
      readOperand (.binary operand t level :: frames) (p.advance t) rest := by
  simp only [readOperator, level?_eq_some_iff.mpr ht, completeTo_of_rank_le h]

/-- The tokens of a derivation are read as its tree, whatever is unfinished in front of them
and whatever follows that does not extend them. -/
theorem Derives.readOperand {n : Nonterminal} {ts : List Token} {e : Expr}
    (h : Derives n ts e) {frames : List Frame} (hn : (awaited frames).rank ≤ n.rank) (p : Place)
    {rest : List Token} (hrest : EndsAt n rest) :
    LoxReader.readOperand frames p (ts ++ rest) = readOperator e frames (p.after ts) rest := by
  induction h generalizing frames p rest with
  | expression _ ih => exact ih (Nat.le_trans hn (Nat.zero_le _)) p (hrest.mono (Nat.zero_le _))
  | @operand level ts e _ ih =>
    have hle : (Nonterminal.chain level).rank ≤ level.operand.rank := by
      rw [Nonterminal.rank_operand]
      exact Nat.le_succ _
    exact ih (Nat.le_trans hn hle) p (hrest.mono hle)
  | @binary level ls rs l r t _ ht _ ihl ihr =>
    have hle : (Nonterminal.chain level).rank ≤ level.operand.rank := by
      rw [Nonterminal.rank_operand]
      exact Nat.le_succ _
    -- The left operand is a chain on the operator's own level, so the operator ends it.
    have hop : EndsAt (.chain level) (t :: rs ++ rest) := by
      intro u hu level' hlevel'
      obtain rfl : t = u := Option.some.inj hu
      have := (level?_eq_some_iff.mpr ht).symm.trans (level?_eq_some_iff.mpr hlevel')
      obtain rfl := Option.some.inj this
      exact Nat.le_refl _
    rw [List.append_assoc, ihl hn p hop, List.cons_append, readOperator_level l _ ht hn,
      ihr (Nat.le_refl _) _ (hrest.mono hle), readOperator_binary _ _ _ _ _ _ hrest]
    simp
  | primary _ ih =>
    exact ih (Nat.le_trans hn (Nonterminal.rank_le_primary _)) p
      (hrest.mono (Nonterminal.rank_le_primary _))
  | @unary t ts e ht _ ih =>
    rw [List.cons_append]
    refine (ReadState.read_cons (ReadState.feed_unary frames ht) p _).trans ?_
    rw [ReadState.read, ih (Nat.le_refl _) _ (endsAt_unary rest), readOperator_unary,
      Place.after_cons]
  | @group o c ts e ho _ hc ih =>
    have hclose : EndsAt .expression ([c] ++ rest) := by
      rw [endsAt_expression_iff]
      intro u hu
      obtain rfl : c = u := Option.some.inj hu
      rw [hc]
      decide
    rw [List.cons_append, List.append_assoc]
    refine (ReadState.read_cons (ReadState.feed_open frames ho) p _).trans ?_
    rw [ReadState.read, ih (Nat.le_refl _) _ hclose, List.singleton_append,
      readOperator_close _ _ _ _ hc]
    simp
  | literal hv => exact ReadState.read_cons (ReadState.feed_literal frames hv) p rest

/-! ## Reading one expression -/

theorem ReadState.not_binary_of_stuck {s : ReadState} {rest : List Token}
    (hstuck : ∀ t ∈ rest.head?, s.feed t = none) {p : Place} {tree : Expr}
    (h : s.outcome p rest = .ok tree) : ∀ t ∈ rest.head?, t.kind ∉ binaryOperators := by
  intro t ht
  have hnone := hstuck t ht
  cases s with
  | before frames =>
    simp only [outcome] at h
    split at h
    · cases h
    · split at h <;> cases h
  | behind operand frames =>
    rw [← level?_eq_none_iff]
    cases hlevel : t.kind.level? with
    | none => rfl
    | some level => simp [feed, hlevel] at hnone

/-- An expression is read exactly when tokens in front form one and no binary operator follows
them. -/
theorem readExpr_eq_ok_iff {p place : Place} {tokens rest : List Token} {tree : Expr} :
    readExpr p tokens = ⟨.ok tree, place, rest⟩ ↔
      ∃ used, tokens = used ++ rest ∧ Derives .expression used tree ∧ place = p.after used ∧
        ∀ t ∈ rest.head?, t.kind ∉ binaryOperators := by
  constructor
  · intro h
    obtain ⟨used, stop, rest', hrun⟩ := ReadState.exists_run (.before []) tokens
    have hread : readExpr p tokens = _ := hrun.read p
    rw [h] at hread
    obtain ⟨hok, rfl, rfl⟩ := Reading.mk.inj hread
    have hspelled := ReadState.spelledBy_start.feedAll hrun.fed
    exact ⟨used, hrun.split, hspelled.derives hok.symm, rfl,
      ReadState.not_binary_of_stuck hrun.stuck hok.symm⟩
  · rintro ⟨used, rfl, hd, rfl, hrest⟩
    have hread : readOperand [] p (used ++ rest) = readOperator tree [] (p.after used) rest :=
      hd.readOperand (Nat.le_refl _) p (endsAt_expression_iff.mpr hrest)
    refine hread.trans ?_
    have hstuck : ∀ t ∈ rest.head?, (ReadState.behind tree []).feed t = none := by
      intro t ht
      simp [ReadState.feed, level?_eq_none_iff.mpr (hrest t ht), complete]
    exact ReadState.read_stuck hstuck _

/-- The tokens from `i` up to `k` form an expression with a given tree, and no binary operator
stands at `k`. -/
def FormsExpr (tokens : List Token) (i k : Nat) (tree : Expr) : Prop :=
  k ≤ tokens.length ∧ Derives .expression (tokens.extract i k) tree ∧
    ∀ t, tokens[k]? = some t → t.kind ∉ binaryOperators

theorem formsExpr_iff {tokens : List Token} {i k : Nat} {tree : Expr} :
    FormsExpr tokens i k tree ↔
      ∃ used rest, tokens.drop i = used ++ rest ∧ Derives .expression used tree ∧
        k = i + used.length ∧ ∀ t ∈ rest.head?, t.kind ∉ binaryOperators := by
  constructor
  · rintro ⟨hk, hd, hnext⟩
    have hlength := List.length_pos_iff.mpr hd.ne_nil
    rw [List.extract_eq_take_drop] at hd hlength
    simp only [List.length_take, List.length_drop] at hlength
    have hadd : i + (k - i) = k := by omega
    refine ⟨_, (tokens.drop i).drop (k - i), (List.take_append_drop _ _).symm, hd, ?_, ?_⟩
    · simp only [List.length_take, List.length_drop]
      omega
    · rw [List.drop_drop, hadd, List.head?_drop]
      exact hnext
  · rintro ⟨used, rest, hdrop, hd, rfl, hrest⟩
    have hpos := List.length_pos_iff.mpr hd.ne_nil
    have hlength := congrArg List.length hdrop
    simp only [List.length_drop, List.length_append] at hlength
    refine ⟨by omega, ?_, ?_⟩
    · rw [List.extract_eq_take_drop, hdrop, Nat.add_sub_cancel_left, List.take_left]
      exact hd
    · have hhead : tokens[i + used.length]? = rest.head? := by
        rw [← List.getElem?_drop, hdrop, List.getElem?_append_right (Nat.le_refl _),
          Nat.sub_self, List.head?_eq_getElem?]
      rw [hhead]
      exact hrest

namespace ExprReader

theorem readOne_eq_iff {r : ExprReader} {tree : Expr} {k : Nat} :
    r.readOne.1 = .ok tree ∧ r.readOne.2.place.position = k ↔
      FormsExpr r.tokens r.place.position k tree := by
  rw [formsExpr_iff]
  constructor
  · rintro ⟨hok, rfl⟩
    have hread : readExpr r.place r.remaining =
        ⟨.ok tree, r.readOne.2.place, (readExpr r.place r.remaining).rest⟩ := by
      rw [← hok]
      rfl
    obtain ⟨used, hused, hd, hplace, hrest⟩ := readExpr_eq_ok_iff.mp hread
    refine ⟨used, _, hused, hd, ?_, hrest⟩
    rw [hplace, Place.position_after]
  · rintro ⟨used, rest, hdrop, hd, rfl, hrest⟩
    have hread : readExpr r.place r.remaining = ⟨.ok tree, r.place.after used, rest⟩ :=
      readExpr_eq_ok_iff.mpr ⟨used, hdrop, hd, rfl, hrest⟩
    simp only [readOne, hread, Place.position_after, and_self]

/-- Reading accepts exactly the grammar and builds its tree: an expression is read up to `k`
exactly when the tokens up to `k` form it and no binary operator follows. So the tree and its
end are unique, and the tree holds every token once and in order. -/
theorem readOne_ok_iff_formsExpr (r : ExprReader) :
    (∀ tree k, (r.readOne.1 = .ok tree ∧ r.readOne.2.place.position = k) ↔
      FormsExpr r.tokens r.place.position k tree) ∧
    (∀ tree k tree' k', FormsExpr r.tokens r.place.position k tree →
      FormsExpr r.tokens r.place.position k' tree' → tree = tree' ∧ k = k') ∧
    ∀ tree k, FormsExpr r.tokens r.place.position k tree →
      (r.tokens.extract r.place.position k).map Token.piece = tree.pieces := by
  refine ⟨fun tree k => readOne_eq_iff, ?_, fun tree k h => h.2.1.map_piece⟩
  intro tree k tree' k' h h'
  obtain ⟨htree, hk⟩ := readOne_eq_iff.mpr h
  obtain ⟨htree', hk'⟩ := readOne_eq_iff.mpr h'
  exact ⟨Except.ok.inj (htree.symm.trans htree'), hk.symm.trans hk'⟩

end ExprReader

end LoxReader
