import LoxReader.Proofs.Expr.Calls

/-! # Lines of errors

The tokens of a source stand in order and end with the one for the end. The errors that reading them
records are then in order too: each is on the line of a token, and all but the last possible one on
the line of the token in front of which it arose. -/

namespace LoxReader

theorem literal?_of_startsStatement {t : Token} (h : t.kind.startsStatement = true) :
    t.literal? = none := by
  obtain ⟨kind, line, payload⟩ := t
  cases kind <;> first | rfl | cases h

/-- How an error comes from tokens: it is on the line of one of them, and a token that it names is
one of them and stands for no literal. -/
inductive SyntaxError.FoundIn (tokens : List Token) : SyntaxError → Prop where
  | unclosedGroup {t openLine} : t ∈ tokens → FoundIn tokens (.unclosedGroup t.line openLine)
  | notAnOperand {t} : t ∈ tokens → t.literal? = none → FoundIn tokens (.notAnOperand t)
  | missingOperand {t} : t ∈ tokens → FoundIn tokens (.missingOperand t.line)
  | emptyGroup {t} : t ∈ tokens → FoundIn tokens (.emptyGroup t.line)

theorem SyntaxError.FoundIn.exists_line {tokens : List Token} {e : SyntaxError}
    (h : e.FoundIn tokens) : ∃ t ∈ tokens, e.line = t.line := by
  cases h with
  | unclosedGroup ht | notAnOperand ht | missingOperand ht | emptyGroup ht => exact ⟨_, ht, rfl⟩

namespace ReadState

variable {tokens rest : List Token} {t : Token} {p : Place} {e : SyntaxError}

/-- In front of a token, reading ends with an error on the line of that token. Only at the end it
may be the line of the last token used instead. -/
theorem foundIn_outcome {stop : ReadState} (ht : t ∈ tokens) (hstuck : stop.feed t = none)
    (hlast : ∀ line ∈ p.lastLine, ∃ u ∈ tokens, u.line = line)
    (h : stop.outcome p (t :: rest) = .error e) :
    e.FoundIn tokens ∧ (t.kind = .endOfInput ∨ e.line = t.line) := by
  cases stop with
  | before frames =>
    by_cases hend : t.kind = .endOfInput
    · refine ⟨?_, .inl hend⟩
      simp only [outcome, if_pos hend] at h
      obtain rfl := Except.error.inj h
      cases hline : p.lastLine with
      | none =>
        simp only [Place.endLine, hline]
        exact .missingOperand ht
      | some line =>
        obtain ⟨u, hu, rfl⟩ := hlast line hline
        simp only [Place.endLine, hline]
        exact .missingOperand hu
    · simp only [outcome, if_neg hend] at h
      obtain rfl := Except.error.inj h
      have hliteral : t.literal? = none := by
        simp only [feed] at hstuck
        split at hstuck
        · cases hstuck
        · split at hstuck
          · cases hstuck
          · exact Option.map_eq_none_iff.mp hstuck
      rcases refusal_eq frames t with ⟨-, -, heq⟩ | ⟨-, heq⟩
      · rw [heq]
        exact ⟨.emptyGroup ht, .inr rfl⟩
      · rw [heq]
        exact ⟨.notAnOperand ht hliteral, .inr rfl⟩
  | behind operand frames =>
    rcases complete_cases operand frames with ⟨tree, hcomplete⟩ | ⟨inner, line, outer, hcomplete⟩
    · simp only [outcome, hcomplete] at h
      cases h
    · simp only [outcome, hcomplete] at h
      obtain rfl := Except.error.inj h
      exact ⟨.unclosedGroup ht, .inr rfl⟩

end ReadState

namespace ExprReader

variable {tokens : List Token} {positions : List Nat} {r stop failed : ExprReader}

/-- The remembered line is that of a token. -/
theorem HasTaken.exists_lastLine (h : HasTaken tokens positions r) :
    ∀ line ∈ r.place.lastLine, ∃ t ∈ tokens, t.line = line := by
  intro line hline
  rw [h.lastLine_eq] at hline
  obtain ⟨i, -, hi⟩ := Option.bind_eq_some_iff.mp hline
  obtain ⟨t, ht, rfl⟩ := Option.map_eq_some_iff.mp hi
  exact ⟨t, List.mem_of_getElem? ht, rfl⟩

/-- When there is a token for the end, some token is always left. -/
theorem HasTaken.exists_remaining (h : HasTaken tokens positions r)
    (hend : ∃ t ∈ tokens, t.kind = .endOfInput) : ∃ t rest, r.remaining = t :: rest := by
  apply List.exists_cons_of_ne_nil
  intro hnil
  rw [remaining, h.tokens_eq, List.drop_eq_nil_iff] at hnil
  obtain ⟨t, ht, hkind⟩ := hend
  have hbefore := h.ne_endOfInput t
  rw [List.take_of_length_le hnil] at hbefore
  exact hbefore ht hkind

theorem HasTaken.readsTrees {trees : List Expr} (hreads : r.ReadsTrees trees stop)
    (h : HasTaken tokens positions r) : ∃ positions', HasTaken tokens positions' stop := by
  induction hreads generalizing positions with
  | nil => exact ⟨positions, h⟩
  | cons _ hone _ ih =>
    have hnext := h.readOne
    rw [hone] at hnext
    exact ih hnext

theorem HasTaken.foundIn_readOne {e : SyntaxError} (h : HasTaken tokens positions r)
    (hend : ∃ t ∈ tokens, t.kind = .endOfInput) (hone : r.readOne = (.error e, failed)) :
    ∃ t rest, failed.remaining = t :: rest ∧ e.FoundIn tokens ∧
      (t.kind = .endOfInput ∨ e.line = t.line) := by
  have hfailed := h.readOne
  rw [hone] at hfailed
  obtain ⟨t, rest, hremaining⟩ := hfailed.exists_remaining hend
  have ht : t ∈ tokens := by
    rw [remaining, hfailed.tokens_eq] at hremaining
    apply List.mem_of_mem_drop
    rw [hremaining]
    exact List.mem_cons_self
  obtain ⟨used, stop, rest', hrun⟩ := ReadState.exists_run (.before []) r.remaining
  have hread : readExpr r.place r.remaining = _ := hrun.read r.place
  rw [(readExpr_of_readOne hone).1, hremaining] at hread
  obtain ⟨houtcome, hplace, rfl⟩ := Reading.mk.inj hread
  have hlast := hfailed.exists_lastLine
  rw [hplace] at hlast
  exact ⟨t, rest, hremaining,
    ReadState.foundIn_outcome ht (hrun.stuck t rfl) hlast houtcome.symm⟩

/-! ## The errors of a whole list -/

theorem laterStarts_of_drop {n : Nat} {t : Token} {rest : List Token}
    (h : tokens.drop n = t :: rest) :
    laterStarts tokens n = if t.kind = .endOfInput then [] else startsIn rest := by
  rw [laterStarts, h]
  by_cases hend : t.kind = .endOfInput
  · simp [beforeEnd, hend]
  · simp [beforeEnd, startsIn, hend]

theorem startsIn_sublist (tokens : List Token) : (startsIn tokens).Sublist tokens :=
  List.filter_sublist.trans (List.takeWhile_prefix _).sublist

/-- A token that starts a statement may be refused wherever it stands in the tokens. -/
theorem foundIn_of_mem_startsIn {rest : List Token} (hrest : ∀ u ∈ rest, u ∈ tokens) :
    ∀ u ∈ startsIn rest, SyntaxError.FoundIn tokens (.notAnOperand u) := by
  intro u hu
  have hstart := (List.mem_filter.mp hu).2
  exact .notAnOperand (hrest u ((startsIn_sublist rest).mem hu)) (literal?_of_startsStatement hstart)

/-- Unless nothing is wrong, the first error arises in front of a token, and those behind it that
start a statement are refused. -/
theorem exists_errors_readRest (hend : ∃ t ∈ tokens, t.kind = .endOfInput) :
    (fresh tokens).readRest.2.errors = [] ∨
      ∃ e t rest, t :: rest <:+ tokens ∧ e.FoundIn tokens ∧
        (t.kind = .endOfInput ∨ e.line = t.line) ∧
        (fresh tokens).readRest.2.errors =
          e :: (if t.kind = .endOfInput then [] else startsIn rest).map .notAnOperand := by
  obtain ⟨trees, stop, hreads, hstop | ⟨hstop, e, failed, hone⟩⟩ := exists_readsTrees (fresh tokens)
  · left
    rw [hreads.readRest, readRest_of_isAtEnd hstop, hreads.eq_place]
    rfl
  · right
    obtain ⟨positions, htaken⟩ := (hasTaken_fresh tokens).readsTrees hreads
    obtain ⟨t, rest, hremaining, hfound, hline⟩ := htaken.foundIn_readOne hend hone
    have hdrop : tokens.drop failed.place.position = t :: rest := by
      rw [← hremaining, remaining, (readExpr_of_readOne hone).2, htaken.tokens_eq]
    refine ⟨e, t, rest, ?_, hfound, hline, ?_⟩
    · rw [← hdrop]
      exact List.drop_suffix _ _
    · rw [hreads.readRest, (readRest_after_error hstop hone).2, hreads.eq_place,
        ← laterStarts_of_drop hdrop]
      rfl

/-- Reading tokens in the order of their lines records errors in the order of their lines, each of
them found in the tokens. -/
theorem foundIn_and_pairwise_errors_readRest (hend : ∃ t ∈ tokens, t.kind = .endOfInput)
    (hsorted : tokens.Pairwise (·.line ≤ ·.line)) :
    (∀ e ∈ (fresh tokens).readRest.2.errors, e.FoundIn tokens) ∧
      (fresh tokens).readRest.2.errors.Pairwise (·.line ≤ ·.line) := by
  obtain hnil | ⟨e, t, rest, hsuffix, hfound, hline, herrors⟩ := exists_errors_readRest hend
  · rw [hnil]
    exact ⟨by simp, .nil⟩
  · obtain ⟨hfirst, hrest⟩ := List.pairwise_cons.mp (hsorted.sublist hsuffix.sublist)
    have hmem : ∀ u ∈ rest, u ∈ tokens := fun u hu => hsuffix.mem (List.mem_cons_of_mem t hu)
    rw [herrors]
    by_cases hkind : t.kind = .endOfInput
    · rw [if_pos hkind]
      exact ⟨List.forall_mem_singleton.mpr hfound, List.pairwise_singleton _ _⟩
    · rw [if_neg hkind, List.forall_mem_cons, List.forall_mem_map, List.pairwise_cons,
        List.forall_mem_map, List.pairwise_map]
      refine ⟨⟨hfound, foundIn_of_mem_startsIn hmem⟩, ?_, hrest.sublist (startsIn_sublist rest)⟩
      intro u hu
      rw [hline.resolve_left hkind]
      exact hfirst u ((startsIn_sublist rest).mem hu)

end ExprReader

end LoxReader
