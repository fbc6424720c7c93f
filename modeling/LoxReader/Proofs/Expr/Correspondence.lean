import LoxReader.Proofs.Expr.Alike
import LoxReader.Proofs.Expr.Recovery

/-! # Reading corresponding tokens

Which tokens reading takes, skips and refuses depends only on their kinds. So two token lists that
have the same kinds one by one are read alike, and what the tokens carry besides turns up in the
same places of the trees and of the errors. -/

namespace LoxReader

/-- What counts as the same in two token lists. The same tokens are of one kind, and their lines
and the literals that they stand for are the same. -/
structure Correspondence where
  sameToken : Token → Token → Prop
  sameLine : Int → Int → Prop
  sameLiteral : Literal → Literal → Prop
  kind_eq : ∀ {t u}, sameToken t u → t.kind = u.kind
  sameLine_of_token : ∀ {t u}, sameToken t u → sameLine t.line u.line
  sameLiteral_of_token : ∀ {t u}, sameToken t u → Option.Rel sameLiteral t.literal? u.literal?

namespace Correspondence

variable {c : Correspondence}

/-- Trees of one shape with the same literals and the same operators. -/
def SameTree (c : Correspondence) : Expr → Expr → Prop :=
  Expr.Alike c.sameLiteral c.sameToken

inductive SameFrame (c : Correspondence) : Frame → Frame → Prop where
  | group {line line'} : c.sameLine line line' → SameFrame c (.group line) (.group line')
  | unary {t u} : c.sameToken t u → SameFrame c (.unary t) (.unary u)
  | binary {a b t u level} : c.SameTree a b → c.sameToken t u →
      SameFrame c (.binary a t level) (.binary b u level)

inductive SameState (c : Correspondence) : ReadState → ReadState → Prop where
  | before {frames frames'} : List.Forall₂ c.SameFrame frames frames' →
      SameState c (.before frames) (.before frames')
  | behind {a b frames frames'} : c.SameTree a b → List.Forall₂ c.SameFrame frames frames' →
      SameState c (.behind a frames) (.behind b frames')

inductive SameError (c : Correspondence) : SyntaxError → SyntaxError → Prop where
  | unclosedGroup {line line' openLine openLine'} : c.sameLine line line' →
      c.sameLine openLine openLine' →
      SameError c (.unclosedGroup line openLine) (.unclosedGroup line' openLine')
  | notAnOperand {t u} : c.sameToken t u → SameError c (.notAnOperand t) (.notAnOperand u)
  | missingOperand {line line'} : c.sameLine line line' →
      SameError c (.missingOperand line) (.missingOperand line')
  | emptyGroup {line line'} : c.sameLine line line' →
      SameError c (.emptyGroup line) (.emptyGroup line')

/-- The same trees or the same errors. -/
inductive SameResult (c : Correspondence) :
    Except SyntaxError Expr → Except SyntaxError Expr → Prop where
  | ok {a b} : c.SameTree a b → SameResult c (.ok a) (.ok b)
  | error {e e'} : c.SameError e e' → SameResult c (.error e) (.error e')

/-- Both places are behind a token, and these tokens are on the same line. -/
def SamePlace (c : Correspondence) (p p' : Place) : Prop :=
  ∃ line line', p.lastLine = some line ∧ p'.lastLine = some line' ∧ c.sameLine line line'

/-- Trees with literals and operators that are displayed alike are rendered alike. -/
theorem SameTree.render_eq (hliteral : ∀ {x y}, c.sameLiteral x y → x.display = y.display)
    (htoken : ∀ {t u}, c.sameToken t u → t.display = u.display) {a b : Expr}
    (h : c.SameTree a b) : a.render = b.render := by
  induction h with
  | literal hvalue => rw [Expr.render, Expr.render, hliteral hvalue]
  | group _ ih => rw [Expr.render, Expr.render, ih]
  | unary ht _ ih => rw [Expr.render, Expr.render, ih, htoken ht]
  | binary _ ht _ ihl ihr => rw [Expr.render, Expr.render, ihl, ihr, htoken ht]

theorem map_render_eq (hliteral : ∀ {x y}, c.sameLiteral x y → x.display = y.display)
    (htoken : ∀ {t u}, c.sameToken t u → t.display = u.display) {trees trees' : List Expr}
    (h : List.Forall₂ c.SameTree trees trees') :
    trees.map Expr.render = trees'.map Expr.render := by
  rw [← List.forall₂_eq_eq_eq, List.forall₂_map_left_iff, List.forall₂_map_right_iff]
  exact h.imp fun a b => SameTree.render_eq hliteral htoken

/-! ## One step -/

theorem sameTree_complete {a b : Expr} {frames frames' : List Frame} (h : c.SameTree a b)
    (hframes : List.Forall₂ c.SameFrame frames frames') :
    c.SameTree (complete a frames).1 (complete b frames').1 ∧
      List.Forall₂ c.SameFrame (complete a frames).2 (complete b frames').2 := by
  induction hframes generalizing a b with
  | nil => exact ⟨h, .nil⟩
  | cons hframe hframes ih =>
    cases hframe with
    | group hline => exact ⟨h, .cons (.group hline) hframes⟩
    | unary ht => exact ih (.unary ht h)
    | binary hleft ht => exact ih (.binary hleft ht h)

theorem sameTree_completeTo (level : Level) {a b : Expr} {frames frames' : List Frame}
    (h : c.SameTree a b) (hframes : List.Forall₂ c.SameFrame frames frames') :
    c.SameTree (completeTo level a frames).1 (completeTo level b frames').1 ∧
      List.Forall₂ c.SameFrame (completeTo level a frames).2 (completeTo level b frames').2 := by
  induction hframes generalizing a b with
  | nil => exact ⟨h, .nil⟩
  | cons hframe hframes ih =>
    cases hframe with
    | group hline => exact ⟨h, .cons (.group hline) hframes⟩
    | unary ht => exact ih (.unary ht h)
    | @binary left left' t u level' hleft ht =>
      simp only [completeTo]
      split
      · exact ih (.binary hleft ht h)
      · exact ⟨h, .cons (.binary hleft ht) hframes⟩

/-- Either both states take their token, or none of them does. -/
theorem sameState_feed {s s' : ReadState} {t u : Token} (hs : c.SameState s s')
    (ht : c.sameToken t u) : Option.Rel c.SameState (s.feed t) (s'.feed u) := by
  have hkind := c.kind_eq ht
  cases hs with
  | before hframes =>
    simp only [ReadState.feed, hkind]
    split
    · exact .some (.before (.cons (.group (c.sameLine_of_token ht)) hframes))
    · split
      · exact .some (.before (.cons (.unary ht) hframes))
      · have hliteral := c.sameLiteral_of_token ht
        generalize t.literal? = value at hliteral
        generalize u.literal? = value' at hliteral
        cases hliteral with
        | none => exact .none
        | some hvalue => exact .some (.behind (.literal hvalue) hframes)
  | @behind a b frames frames' hoperand hframes =>
    simp only [ReadState.feed, hkind]
    cases hlevel : u.kind.level? with
    | some level =>
      obtain ⟨hleft, hbelow⟩ := sameTree_completeTo level hoperand hframes
      exact .some (.before (.cons (.binary hleft ht) hbelow))
    | none =>
      obtain ⟨hinner, hbelow⟩ := sameTree_complete hoperand hframes
      generalize complete a frames = completed at hinner hbelow
      generalize complete b frames' = completed' at hinner hbelow
      obtain ⟨inner, below⟩ := completed
      obtain ⟨inner', below'⟩ := completed'
      cases hbelow with
      | nil => exact .none
      | cons hframe houter =>
        cases hframe with
        | unary | binary => exact .none
        | group hline =>
          by_cases hclose : u.kind = .rightParen
          · simp only [if_pos hclose]
            exact .some (.behind (.group hinner) houter)
          · simp only [if_neg hclose]
            exact .none

/-! ## One run -/

/-- Runs over the same tokens take equally many of them and stop in the same state. -/
theorem exists_run {s s' stop : ReadState} {tokens tokens' used rest : List Token}
    (hs : c.SameState s s') (htokens : List.Forall₂ c.sameToken tokens tokens')
    (h : s.Run tokens used stop rest) :
    ∃ used' stop' rest', s'.Run tokens' used' stop' rest' ∧
      List.Forall₂ c.sameToken used used' ∧ c.SameState stop stop' ∧
      List.Forall₂ c.sameToken rest rest' := by
  obtain ⟨rfl, hfed, hstuck⟩ := h
  induction used generalizing s s' tokens' with
  | nil =>
    obtain rfl := Option.some.inj hfed
    refine ⟨[], s', tokens', ⟨rfl, rfl, ?_⟩, .nil, hs, htokens⟩
    intro u hu
    cases htokens with
    | nil => cases hu
    | cons ht hrest =>
      obtain rfl := Option.some.inj hu
      have hfeed := sameState_feed hs ht
      rw [hstuck _ rfl] at hfeed
      generalize s'.feed _ = next at hfeed
      cases hfeed with
      | none => rfl
  | cons t used ih =>
    cases htokens with
    | @cons _ u _ tokens' ht hrest =>
      rw [ReadState.feedAll_cons] at hfed
      obtain ⟨next, hnext, hused⟩ := Option.bind_eq_some_iff.mp hfed
      have hfeed := sameState_feed hs ht
      rw [hnext] at hfeed
      cases hnext' : s'.feed u with
      | none =>
        rw [hnext'] at hfeed
        cases hfeed
      | some next' =>
        rw [hnext'] at hfeed
        cases hfeed with
        | some hstate =>
          obtain ⟨used', stop', rest', hrun, hsame, hstop, hrest'⟩ := ih hstate hused hrest
          refine ⟨u :: used', stop', rest', ⟨?_, ?_, hrun.stuck⟩, .cons ht hsame, hstop, hrest'⟩
          · rw [hrun.split, List.cons_append]
          · rw [ReadState.feedAll_cons, hnext']
            exact hrun.fed

theorem samePlace_after {p p' : Place} (hp : c.SamePlace p p') {used used' : List Token}
    (h : List.Forall₂ c.sameToken used used') : c.SamePlace (p.after used) (p'.after used') := by
  induction h generalizing p p' with
  | nil => exact hp
  | cons ht _ ih => exact ih ⟨_, _, rfl, rfl, c.sameLine_of_token ht⟩

/-- Behind at least one token it does not matter where a run started. -/
theorem samePlace_after_of_ne_nil (p p' : Place) {used used' : List Token}
    (h : List.Forall₂ c.sameToken used used') (hne : used ≠ []) :
    c.SamePlace (p.after used) (p'.after used') := by
  cases h with
  | nil => exact absurd rfl hne
  | @cons t u _ _ ht hrest =>
    have hfirst : c.SamePlace (p.advance t) (p'.advance u) :=
      ⟨_, _, rfl, rfl, c.sameLine_of_token ht⟩
    exact samePlace_after hfirst hrest

theorem sameLine_endLine {p p' : Place} (hp : c.SamePlace p p') (ending ending' : Option Token) :
    c.sameLine (p.endLine ending) (p'.endLine ending') := by
  obtain ⟨line, line', hlast, hlast', hline⟩ := hp
  rwa [Place.endLine, Place.endLine, hlast, hlast']

theorem sameError_refusal {frames frames' : List Frame} {t u : Token}
    (hframes : List.Forall₂ c.SameFrame frames frames') (ht : c.sameToken t u) :
    c.SameError (refusal frames t) (refusal frames' u) := by
  have hgroup (line : Int) (frames : List Frame) (t : Token) :
      refusal (.group line :: frames) t =
        if t.kind = .rightParen then .emptyGroup t.line else .notAnOperand t := by
    obtain ⟨kind, line, payload⟩ := t
    cases kind <;> rfl
  cases hframes with
  | nil => exact .notAnOperand ht
  | cons hframe _ =>
    cases hframe with
    | unary | binary => exact .notAnOperand ht
    | group =>
      rw [hgroup, hgroup, c.kind_eq ht]
      split
      · exact .emptyGroup (c.sameLine_of_token ht)
      · exact .notAnOperand ht

/-- Where a run ends matters only behind an operand or in front of the end of the tokens. -/
theorem sameResult_outcome {s s' : ReadState} (hs : c.SameState s s') {rest rest' : List Token}
    (hrest : List.Forall₂ c.sameToken rest rest') {p p' : Place}
    (hp : c.SamePlace p p' ∨ (∃ frames, s = .before frames) ∧ atEnd rest = false) :
    c.SameResult (s.outcome p rest) (s'.outcome p' rest') := by
  cases hs with
  | before hframes =>
    have hmissing (hend : atEnd rest = true) (ending ending' : Option Token) :
        c.SameError (.missingOperand (p.endLine ending))
          (.missingOperand (p'.endLine ending')) := by
      rcases hp with hp | ⟨-, hp⟩
      · exact .missingOperand (sameLine_endLine hp ending ending')
      · rw [hend] at hp
        cases hp
    cases hrest with
    | nil => exact .error (hmissing rfl none none)
    | @cons t u _ _ ht hrest =>
      simp only [ReadState.outcome, c.kind_eq ht]
      by_cases hend : u.kind = .endOfInput
      · simp only [if_pos hend]
        exact .error (hmissing (by simp [atEnd, c.kind_eq ht, hend]) (some t) (some u))
      · simp only [if_neg hend]
        exact .error (sameError_refusal hframes ht)
  | @behind a b frames frames' hoperand hframes =>
    have hplace : c.SamePlace p p' := hp.resolve_right (by simp)
    have hline : c.sameLine ((rest.head?.map (·.line)).getD (p.endLine none))
        ((rest'.head?.map (·.line)).getD (p'.endLine none)) := by
      cases hrest with
      | nil => exact sameLine_endLine hplace none none
      | cons ht => exact c.sameLine_of_token ht
    obtain ⟨htree, hbelow⟩ := sameTree_complete hoperand hframes
    simp only [ReadState.outcome]
    generalize complete a frames = completed at htree hbelow
    generalize complete b frames' = completed' at htree hbelow
    obtain ⟨tree, below⟩ := completed
    obtain ⟨tree', below'⟩ := completed'
    cases hbelow with
    | nil => exact .ok htree
    | cons hframe _ =>
      cases hframe with
      | unary | binary => exact .ok htree
      | group hopen => exact .error (.unclosedGroup hline hopen)

/-- Reading one expression, from wherever it starts in front of a token. -/
theorem sameResult_readExpr {tokens tokens' : List Token}
    (h : List.Forall₂ c.sameToken tokens tokens') (hend : atEnd tokens = false) (p p' : Place) :
    c.SameResult (readExpr p tokens).result (readExpr p' tokens').result ∧
      List.Forall₂ c.sameToken (readExpr p tokens).rest (readExpr p' tokens').rest := by
  obtain ⟨used, stop, rest, hrun⟩ := ReadState.exists_run (.before []) tokens
  obtain ⟨used', stop', rest', hrun', hused, hstop, hrest⟩ := exists_run (.before .nil) h hrun
  have hread : readExpr p tokens = _ := hrun.read p
  have hread' : readExpr p' tokens' = _ := hrun'.read p'
  rw [hread, hread']
  refine ⟨sameResult_outcome hstop hrest ?_, hrest⟩
  by_cases hnil : used = []
  · obtain ⟨rfl, hfed, -⟩ := hrun
    subst hnil
    exact .inr ⟨⟨[], (Option.some.inj hfed).symm⟩, hend⟩
  · exact .inl (samePlace_after_of_ne_nil p p' hused hnil)

/-! ## Reading everything -/

theorem atEnd_eq {tokens tokens' : List Token} (h : List.Forall₂ c.sameToken tokens tokens') :
    atEnd tokens = atEnd tokens' := by
  cases h with
  | nil => rfl
  | cons ht => simp only [atEnd, c.kind_eq ht]

theorem length_takeWhile_eq (passes : TokenKind → Bool) {tokens tokens' : List Token}
    (h : List.Forall₂ c.sameToken tokens tokens') :
    (tokens.takeWhile fun t => passes t.kind).length =
      (tokens'.takeWhile fun t => passes t.kind).length := by
  induction h with
  | nil => rfl
  | cons ht _ ih =>
    simp only [List.takeWhile_cons, c.kind_eq ht]
    split
    · simp [ih]
    · rfl

theorem recoverySkip_eq {tokens tokens' : List Token}
    (h : List.Forall₂ c.sameToken tokens tokens') :
    recoverySkip tokens = recoverySkip tokens' := by
  cases h with
  | nil => rfl
  | cons ht hrest =>
    simp only [recoverySkip, c.kind_eq ht, length_takeWhile_eq (fun kind => !kind.isStop) hrest]

/-- Reading all tokens gives the same trees and the same errors, wherever it starts. -/
theorem same_readAll {tokens tokens' : List Token}
    (h : List.Forall₂ c.sameToken tokens tokens') (p p' : Place) :
    List.Forall₂ c.SameTree (readAll p tokens).trees (readAll p' tokens').trees ∧
      List.Forall₂ c.SameError (readAll p tokens).errors (readAll p' tokens').errors := by
  induction hn : tokens.length using Nat.strongRecOn generalizing tokens tokens' p p' with
  | ind n ih =>
    have hend' := atEnd_eq h
    cases hend : atEnd tokens with
    | true =>
      rw [hend] at hend'
      rw [readAll_of_atEnd hend, readAll_of_atEnd hend'.symm]
      exact ⟨.nil, .nil⟩
    | false =>
      rw [hend] at hend'
      obtain ⟨hresult, hrest⟩ := sameResult_readExpr h hend p p'
      have hskipped : ((readExpr p tokens).rest.drop
          (recoverySkip (readExpr p tokens).rest)).length < tokens.length := by
        cases tokens with
        | nil => cases hend
        | cons t rest => exact length_drop_recoverySkip p (of_decide_eq_false hend)
      have hshorter {tree : Expr} : (readExpr p tokens).result = .ok tree →
          (readExpr p tokens).rest.length < tokens.length := length_rest_of_readOperand_ok
      cases hread : readExpr p tokens with
      | mk result place rest =>
      cases hread' : readExpr p' tokens' with
      | mk result' place' rest' =>
      rw [hread] at hresult hrest hshorter hskipped
      rw [hread'] at hresult hrest
      cases hresult with
      | ok htree =>
        obtain ⟨htrees, herrors⟩ := ih _ (hn ▸ hshorter rfl) hrest place place' rfl
        rw [readAll_of_ok hend hread, readAll_of_ok hend'.symm hread']
        exact ⟨.cons htree htrees, herrors⟩
      | error herror =>
        have hskip := recoverySkip_eq hrest
        obtain ⟨htrees, herrors⟩ := ih _ (hn ▸ hskipped)
          (List.forall₂_drop (recoverySkip rest) hrest)
          ⟨place.position + recoverySkip rest, place.lastLine⟩
          ⟨place'.position + recoverySkip rest, place'.lastLine⟩ rfl
        rw [readAll_of_error hend hread, readAll_of_error hend'.symm hread', ← hskip]
        exact ⟨htrees, .cons herror herrors⟩

end Correspondence

end LoxReader
