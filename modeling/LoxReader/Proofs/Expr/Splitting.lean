import LoxReader.Proofs.Expr.Recovery

/-! # Splitting tokens into expressions

A minus sign between two expressions may join them or start the second one, so tokens can split
in many ways. The reader always joins. It gets through whenever some split exists, because what
it takes of a sentence depends only on the groups that are open. -/

namespace LoxReader

theorem kind_of_mem_head?_of_atEnd {rest : List Token} (h : atEnd rest = true) :
    ∀ t ∈ rest.head?, t.kind = .endOfInput := by
  intro t ht
  cases rest with
  | nil => cases ht
  | cons u rest =>
    obtain rfl := Option.some.inj ht
    exact of_decide_eq_true h

theorem not_binary_of_atEnd {rest : List Token} (h : atEnd rest = true) :
    ∀ t ∈ rest.head?, t.kind ∉ binaryOperators := by
  intro t ht hmem
  rw [kind_of_mem_head?_of_atEnd h t ht] at hmem
  revert hmem
  decide

/-! ## Splits -/

/-- Consecutive sentences with their trees. -/
abbrev Split := List (List Token × Expr)

namespace Split

/-- All tokens of a split. -/
def tokens (split : Split) : List Token :=
  (split.map Prod.fst).flatten

/-- All trees of a split. -/
def trees (split : Split) : List Expr :=
  split.map Prod.snd

/-- Every part is a sentence of the grammar. -/
def Valid (split : Split) : Prop :=
  ∀ part ∈ split, Derives .expression part.1 part.2

/-- The parts are sentences and together they are the given tokens. -/
structure Covers (split : Split) (tokens : List Token) : Prop where
  valid : split.Valid
  tokens_eq : split.tokens = tokens

/-- No part but the first one begins with a minus sign. -/
def Joined (split : Split) : Prop :=
  ∀ part ∈ split.tail, ∀ t ∈ part.1.head?, t.kind ≠ .minus

variable {split : Split} {ts rest : List Token} {e : Expr}

@[simp] theorem tokens_nil : tokens [] = [] := rfl

@[simp] theorem tokens_cons (part : List Token × Expr) (split : Split) :
    tokens (part :: split) = part.1 ++ split.tokens := rfl

theorem Valid.ne_endOfInput (h : split.Valid) : ∀ t ∈ split.tokens, t.kind ≠ .endOfInput := by
  intro t ht
  obtain ⟨ts, hts, ht⟩ := List.mem_flatten.mp ht
  obtain ⟨part, hpart, rfl⟩ := List.mem_map.mp hts
  exact (h part hpart).ne_endOfInput t ht

theorem Valid.tail {part : List Token × Expr} (h : Valid (part :: split)) : split.Valid :=
  fun part hpart => h part (List.mem_cons_of_mem _ hpart)

theorem Valid.atEnd_cons {part : List Token × Expr} (h : Valid (part :: split)) :
    atEnd (tokens (part :: split) ++ rest) = false := by
  obtain ⟨t, more, heq, hend, -⟩ := (h part List.mem_cons_self).exists_head
  simp [heq, atEnd, hend]

/-- In a joined split no binary operator stands behind a part. -/
theorem Joined.not_binary {part : List Token × Expr} (hv : Valid (part :: split))
    (hj : Joined (part :: split)) (hrest : ∀ t ∈ rest.head?, t.kind ∉ binaryOperators) :
    ∀ t ∈ (split.tokens ++ rest).head?, t.kind ∉ binaryOperators := by
  intro t ht hmem
  cases split with
  | nil => exact hrest t ht hmem
  | cons next split =>
    obtain ⟨u, more, heq, -, hminus⟩ := (hv next (by simp)).exists_head
    have hhead : u = t := by simpa [heq] using ht
    subst hhead
    exact hj next (by simp) u (by simp [heq]) (hminus hmem)

theorem Joined.tail {part : List Token × Expr} (h : Joined (part :: split)) : split.Joined :=
  fun part hpart => h part (List.mem_of_mem_tail hpart)

/-! ## The reader gets through -/

/-- Behind an operand and with no group open, the tokens of a split are read up to the end of
one of its parts. A part that begins with a minus sign is joined to what is in front of it. -/
theorem Valid.exists_read_behind (hv : split.Valid) (hrest : atEnd rest = true)
    (operand : Expr) {frames : List Frame} (h : openGroups frames = []) (p : Place) :
    ∃ (tree : Expr) (place : Place) (split' : Split), split' <:+ split ∧
      (ReadState.behind operand frames).read p (split.tokens ++ rest) =
        ⟨.ok tree, place, split'.tokens ++ rest⟩ := by
  induction split generalizing operand frames p with
  | nil =>
    obtain ⟨tree, hread⟩ :=
      ReadState.read_behind_of_openGroups_nil operand h (not_binary_of_atEnd hrest) p
    exact ⟨tree, p, [], List.suffix_refl _, hread⟩
  | cons part split ih =>
    obtain ⟨ts, e⟩ := part
    have hpart : Derives .expression ts e := hv (ts, e) List.mem_cons_self
    obtain ⟨t, more, rfl, -, hminus⟩ := hpart.exists_head
    by_cases hbinary : t.kind ∈ binaryOperators
    · -- The sign joins, and what stands behind it is a sentence on its own.
      obtain ⟨e', he'⟩ := hpart.of_minus_cons (hminus hbinary)
      obtain ⟨frames₁, hfeed, hopen₁⟩ := ReadState.feed_level operand frames hbinary
      obtain ⟨operand₂, frames₂, hfed, hopen₂⟩ := he'.feedAll frames₁
      have hall : (ReadState.behind operand frames).feedAll (t :: more) =
          some (.behind operand₂ frames₂) := by
        rw [ReadState.feedAll_cons, hfeed, Option.bind_some, hfed]
      obtain ⟨tree, place, split', hsuffix, hread⟩ :=
        ih hv.tail operand₂
          (hopen₂.trans (hopen₁.trans h)) (p.after (t :: more))
      refine ⟨tree, place, split', hsuffix.trans (List.suffix_cons _ _), ?_⟩
      rw [tokens_cons, List.append_assoc, ReadState.read_append hall, hread]
    · have hhead : ∀ u ∈ (tokens ((t :: more, e) :: split) ++ rest).head?,
          u.kind ∉ binaryOperators := by
        intro u hu
        obtain rfl : t = u := Option.some.inj hu
        exact hbinary
      obtain ⟨tree, hread⟩ := ReadState.read_behind_of_openGroups_nil operand h hhead p
      exact ⟨tree, p, _, List.suffix_refl _, hread⟩

/-- Some split is enough for everything to be read without an error. -/
theorem Valid.exists_readsTrees (hv : split.Valid) (hrest : atEnd rest = true) {r : ExprReader}
    (hr : r.remaining = split.tokens ++ rest) :
    ∃ trees stop, r.ReadsTrees trees stop ∧ stop.isAtEnd = true := by
  induction hn : split.length using Nat.strongRecOn generalizing split r with
  | ind n ih =>
    cases split with
    | nil =>
      refine ⟨[], r, .nil, ?_⟩
      rwa [ExprReader.isAtEnd, hr]
    | cons part split =>
      have hpart := hv part List.mem_cons_self
      obtain ⟨operand, frames, hfed, hopen⟩ := hpart.feedAll []
      obtain ⟨tree, place, split', hsuffix, hread⟩ :=
        hv.tail.exists_read_behind hrest operand hopen (r.place.after part.1)
      have hone : readExpr r.place r.remaining = ⟨.ok tree, place, split'.tokens ++ rest⟩ := by
        rw [hr, tokens_cons, List.append_assoc]
        exact (ReadState.read_append hfed _ _).trans hread
      cases hnext : r.readOne with
      | mk result next =>
        obtain ⟨hread', -⟩ := ExprReader.readExpr_of_readOne hnext
        rw [hone] at hread'
        obtain ⟨rfl, -, hremaining⟩ := Reading.mk.inj hread'
        have hend : r.isAtEnd = false := by
          rw [ExprReader.isAtEnd, hr]
          exact hv.atEnd_cons
        have hlength : split'.length < n := by
          rw [← hn]
          exact Nat.lt_succ_of_le hsuffix.length_le
        have hv' : Valid split' := fun part hpart => hv.tail part (hsuffix.mem hpart)
        obtain ⟨trees, stop, hreads, hstop⟩ := ih _ hlength hv' hremaining.symm rfl
        exact ⟨tree :: trees, stop, .cons hend hnext hreads, hstop⟩

/-! ## What is read is the joined split -/

/-- The first part of a joined split is read as a whole. -/
theorem Joined.readExpr {part : List Token × Expr} (hj : Joined (part :: split))
    (hv : Valid (part :: split)) (hrest : ∀ t ∈ rest.head?, t.kind ∉ binaryOperators) (p : Place) :
    LoxReader.readExpr p (tokens (part :: split) ++ rest) =
      ⟨.ok part.2, p.after part.1, split.tokens ++ rest⟩ := by
  rw [tokens_cons, List.append_assoc]
  exact readExpr_eq_ok_iff.mpr
    ⟨part.1, rfl, hv part List.mem_cons_self, rfl, hj.not_binary hv hrest⟩

/-- Tokens split in one way only when every minus sign joins. -/
theorem Joined.unique {split' : Split} (hv : split.Valid) (hj : split.Joined)
    (hv' : split'.Valid) (hj' : split'.Joined) (h : split.tokens = split'.tokens) :
    split = split' := by
  induction split generalizing split' with
  | nil =>
    cases split' with
    | nil => rfl
    | cons part' more' =>
      have hne := (hv' part' List.mem_cons_self).ne_nil
      exact absurd (List.append_eq_nil_iff.mp h.symm).1 hne
  | cons part more ih =>
    cases split' with
    | nil =>
      have hne := (hv part List.mem_cons_self).ne_nil
      exact absurd (List.append_eq_nil_iff.mp h).1 hne
    | cons part' more' =>
      -- Both first parts are what is read first.
      have hnone : ∀ t ∈ ([] : List Token).head?, t.kind ∉ binaryOperators := by simp
      have hread := hj.readExpr hv hnone {}
      rw [h, hj'.readExpr hv' hnone {}] at hread
      obtain ⟨htree, -, hmore⟩ := Reading.mk.inj hread
      rw [List.append_nil, List.append_nil] at hmore
      have hts : part.1 = part'.1 := by
        rw [tokens_cons, tokens_cons, hmore] at h
        exact List.append_cancel_right h
      have hrest := ih hv.tail hj.tail hv'.tail hj'.tail hmore.symm
      rw [hrest, Prod.ext hts (Except.ok.inj htree).symm]

/-- A joined split is read part by part, and then what follows it. -/
theorem Joined.readAll (hj : split.Joined) (hv : split.Valid)
    (hrest : ∀ t ∈ rest.head?, t.kind ∉ binaryOperators) (p : Place) :
    LoxReader.readAll p (split.tokens ++ rest) =
      let all := LoxReader.readAll (p.after split.tokens) rest
      { all with trees := split.trees ++ all.trees } := by
  induction split generalizing p with
  | nil => rfl
  | cons part split ih =>
    rw [readAll_of_ok hv.atEnd_cons (hj.readExpr hv hrest p), ih hj.tail hv.tail, tokens_cons,
      Place.after_append]
    rfl

end Split

namespace ExprReader

theorem ReadsTrees.exists_split {r stop : ExprReader} {trees : List Expr}
    (h : r.ReadsTrees trees stop) :
    ∃ split : Split, split.Valid ∧ split.Joined ∧ split.trees = trees ∧
      r.remaining = split.tokens ++ stop.remaining ∧
      stop.place.position = r.place.position + split.tokens.length := by
  induction h with
  | @nil r => exact ⟨[], by simp [Split.Valid], by simp [Split.Joined], rfl, rfl, rfl⟩
  | @cons r next stop tree trees _ hone _ ih =>
    obtain ⟨split, hv, hj, htrees, hremaining, hposition⟩ := ih
    obtain ⟨used, hused, hd, hplace, hrest⟩ :=
      readExpr_eq_ok_iff.mp (readExpr_of_readOne hone).1
    refine ⟨(used, tree) :: split, ?_, ?_, ?_, ?_, ?_⟩
    · intro part hpart
      rcases List.mem_cons.mp hpart with rfl | hpart
      · exact hd
      · exact hv part hpart
    · intro part hpart t ht hminus
      cases split with
      | nil => cases hpart
      | cons first more =>
        rcases List.mem_cons.mp hpart with rfl | hpart
        · have hhead : t ∈ next.remaining.head? := by
            rw [hremaining, Split.tokens_cons, List.append_assoc, List.head?_append,
              Option.mem_def.mp ht]
            rfl
          have hbinary := hrest t hhead
          rw [hminus] at hbinary
          exact hbinary (by decide)
        · exact hj part hpart t ht hminus
    · exact congrArg (tree :: ·) htrees
    · rw [hused, hremaining, Split.tokens_cons, List.append_assoc]
    · rw [hposition, hplace, Place.position_after, Split.tokens_cons, List.length_append,
        Nat.add_assoc]

/-! ## Reading all tokens -/

theorem beforeEnd_append {ts rest : List Token} (h : ∀ t ∈ ts, t.kind ≠ .endOfInput)
    (hrest : atEnd rest = true) : beforeEnd (ts ++ rest) = ts := by
  rw [beforeEnd, List.takeWhile_append_of_pos (by simpa using h)]
  cases rest with
  | nil => simp
  | cons t rest => simp [of_decide_eq_true hrest]

theorem exists_beforeEnd_append (tokens : List Token) :
    ∃ rest, beforeEnd tokens ++ rest = tokens ∧ atEnd rest = true := by
  refine ⟨tokens.dropWhile (·.kind ≠ .endOfInput), List.takeWhile_append_dropWhile, ?_⟩
  induction tokens with
  | nil => rfl
  | cons t rest ih =>
    by_cases h : t.kind = .endOfInput
    · simp [h, atEnd]
    · simpa [h] using ih

/-- A reader in front of the first token, with nothing recorded. -/
def fresh (tokens : List Token) : ExprReader where
  tokens := tokens

/-- When no error is recorded, a joined split of the tokens before the end has been read. -/
theorem exists_split_of_errors_eq_nil {tokens : List Token}
    (h : (fresh tokens).readRest.2.errors = []) :
    ∃ split : Split, split.Covers (beforeEnd tokens) ∧ split.Joined ∧
      split.trees = (fresh tokens).readRest.1 ∧
      (fresh tokens).readRest.2.place.position = split.tokens.length := by
  obtain ⟨trees, stop, hreads, hend | ⟨hend, e, failed, hone⟩⟩ := exists_readsTrees (fresh tokens)
  · obtain ⟨split, hv, hj, htrees, hremaining, hposition⟩ := hreads.exists_split
    have htokens : tokens = split.tokens ++ stop.remaining := hremaining
    have hcovers : split.tokens = beforeEnd tokens := by
      rw [htokens, beforeEnd_append hv.ne_endOfInput hend]
    have hrest : (fresh tokens).readRest = (trees ++ [], stop) := by
      rw [hreads.readRest, readRest_of_isAtEnd hend]
    refine ⟨split, ⟨hv, hcovers⟩, hj, ?_, ?_⟩
    · rw [hrest, htrees, List.append_nil]
    · rw [hrest, hposition]
      exact Nat.zero_add _
  · rw [hreads.readRest, (readRest_after_error hend hone).2] at h
    simp at h

/-- When the tokens before the end split in some way, no error is recorded. -/
theorem errors_eq_nil_of_covers {tokens : List Token} {split : Split}
    (h : split.Covers (beforeEnd tokens)) : (fresh tokens).readRest.2.errors = [] := by
  obtain ⟨rest, htokens, hrest⟩ := exists_beforeEnd_append tokens
  have hremaining : (fresh tokens).remaining = split.tokens ++ rest := by
    rw [h.tokens_eq, htokens]
    rfl
  obtain ⟨trees, stop, hreads, hend⟩ := h.valid.exists_readsTrees hrest hremaining
  rw [hreads.readRest, readRest_of_isAtEnd hend, hreads.eq_place]
  rfl

/-- Everything is read without an error exactly when the tokens before the end split into
expressions in some way. What is read then is the only split in which no expression but the
first begins with a minus sign, and reading stops at the end. -/
theorem readRest_errors_eq_nil_iff (tokens : List Token) :
    ((fresh tokens).readRest.2.errors = [] ↔ ∃ split : Split, split.Covers (beforeEnd tokens)) ∧
    ((fresh tokens).readRest.2.errors = [] →
      (∃ split : Split, split.Covers (beforeEnd tokens) ∧ split.Joined ∧
        split.trees = (fresh tokens).readRest.1 ∧
        ∀ split' : Split, split'.Covers (beforeEnd tokens) → split'.Joined → split' = split) ∧
      (fresh tokens).readRest.2.place.position = (beforeEnd tokens).length) := by
  refine ⟨⟨fun herrors => ?_, ?_⟩, fun herrors => ?_⟩
  · obtain ⟨split, hcovers, -⟩ := exists_split_of_errors_eq_nil herrors
    exact ⟨split, hcovers⟩
  · rintro ⟨split, hcovers⟩
    exact errors_eq_nil_of_covers hcovers
  · obtain ⟨split, hcovers, hj, htrees, hposition⟩ := exists_split_of_errors_eq_nil herrors
    refine ⟨⟨split, hcovers, hj, htrees, ?_⟩, hcovers.tokens_eq ▸ hposition⟩
    intro split' hcovers' hj'
    have htokens := hcovers'.tokens_eq.trans hcovers.tokens_eq.symm
    exact hj'.unique hcovers'.valid hcovers.valid hj htokens

end ExprReader

end LoxReader
