import LoxReader.Proofs.Expr.Calls

/-! # The end of the tokens

Reading does not look behind the token for the end, and it ends there as it does where the tokens
run out. The only difference is the line on which a group is reported that is still open at the
end. -/

namespace LoxReader

/-! ## Where errors arise -/

namespace ExprReader

/-- The errors that arise when everything is read, each with the position of the cursor at that
time. -/
def raisedByRest (r : ExprReader) : List (Nat × SyntaxError) :=
  if _ : r.isAtEnd = true then []
  else
    match _ : r.readOne with
    | (.ok _, next) => next.raisedByRest
    | (.error e, failed) => (failed.place.position, e) :: (failed.record e).skipAhead.raisedByRest
termination_by r.remaining.length
decreasing_by
  · exact length_remaining_of_ok (by assumption)
  · exact length_remaining_of_error (Bool.eq_false_iff.mpr (by assumption)) (by assumption)

variable {r next failed : ExprReader}

theorem raisedByRest_of_isAtEnd (h : r.isAtEnd = true) : r.raisedByRest = [] := by
  rw [raisedByRest, dif_pos h]

theorem raisedByRest_of_ok {tree : Expr} (hend : r.isAtEnd = false)
    (h : r.readOne = (.ok tree, next)) : r.raisedByRest = next.raisedByRest := by
  rw [raisedByRest, dif_neg (Bool.eq_false_iff.mp hend)]
  split <;> simp_all

theorem raisedByRest_of_error {e : SyntaxError} (hend : r.isAtEnd = false)
    (h : r.readOne = (.error e, failed)) :
    r.raisedByRest =
      (failed.place.position, e) :: (failed.record e).skipAhead.raisedByRest := by
  rw [raisedByRest, dif_neg (Bool.eq_false_iff.mp hend)]
  split <;> simp_all

/-- These are the errors that are recorded. -/
theorem errors_readRest (r : ExprReader) :
    r.readRest.2.errors = r.errors ++ r.raisedByRest.map Prod.snd := by
  induction r using raisedByRest.induct with
  | case1 r hend =>
    rw [readRest_of_isAtEnd hend, raisedByRest_of_isAtEnd hend]
    exact (List.append_nil _).symm
  | case2 r hend tree next hone ih =>
    have hend := Bool.eq_false_iff.mpr hend
    rw [readRest_of_ok hend hone, raisedByRest_of_ok hend hone, ih, (readExpr_of_readOne hone).2]
  | case3 r hend e failed hone ih =>
    have hend := Bool.eq_false_iff.mpr hend
    rw [readRest_of_error hend hone, raisedByRest_of_error hend hone, ih,
      (readExpr_of_readOne hone).2]
    simp [record, skipAhead]

end ExprReader

/-! ## The line at the end -/

/-- The error with a group left open reported on another line. -/
def SyntaxError.endingOn (line : Int) : SyntaxError → SyntaxError
  | .unclosedGroup _ openLine => .unclosedGroup line openLine
  | e => e

/-- What is recorded in place of an error that arose at a position, when a group left open at the
end of the tokens is reported on another line. -/
def onLineAtEnd (tokens : List Token) (line : Int) (position : Nat) (e : SyntaxError) :
    SyntaxError :=
  if position = tokens.length then e.endingOn line else e

theorem onLineAtEnd_length (tokens : List Token) (line : Int) :
    onLineAtEnd tokens line tokens.length = SyntaxError.endingOn line :=
  funext fun _ => if_pos rfl

theorem onLineAtEnd_onLineAtEnd (tokens : List Token) (line line' : Int) (position : Nat)
    (e : SyntaxError) :
    onLineAtEnd tokens line position (onLineAtEnd tokens line' position e) =
      onLineAtEnd tokens line position e := by
  simp only [onLineAtEnd]
  split
  · cases e <;> rfl
  · rfl

theorem mapError_onLineAtEnd_of_ne {α : Type} {tokens : List Token} {position : Nat}
    (h : position ≠ tokens.length) (line : Int) (result : Except SyntaxError α) :
    result.mapError (onLineAtEnd tokens line position) = result := by
  cases result with
  | ok => rfl
  | error e => exact congrArg Except.error (if_neg h)

/-- What is taken and what is left make up the tokens. -/
theorem Place.position_after_add_length {tokens used rest : List Token} {p : Place}
    (h : tokens.drop p.position = used ++ rest) (hle : p.position ≤ tokens.length) :
    (p.after used).position + rest.length = tokens.length := by
  have hlength := congrArg List.length h
  rw [List.length_drop, List.length_append] at hlength
  rw [position_after]
  omega

/-- When everything that is left goes into an expression, its last token is that of all tokens. -/
theorem Place.lastLine_after_drop {tokens used : List Token} {n : Nat} (hused : used ≠ [])
    (h : tokens.drop n = used) (p : Place) :
    ∃ t ∈ tokens.getLast?, (p.after used).lastLine = some t.line := by
  have hlast : tokens.getLast? = some (used.getLast hused) := by
    rw [← List.getLast?_eq_some_getLast hused, ← h, List.getLast?_drop, if_neg]
    intro hle
    exact hused (by rw [← h, List.drop_eq_nil_of_le hle])
  refine ⟨used.getLast hused, hlast, ?_⟩
  rw [lastLine_after, List.getLast?_eq_some_getLast hused]
  rfl

/-- The line to report for a group left open: that of the next token, or else that of the last
token used, or else the first line. -/
def lineOfNext (used : List Token) (next : Option Token) : Int :=
  ((next.or used.getLast?).map (·.line)).getD 1

/-! ## Tokens behind the end -/

theorem atEnd_append {tail : List Token} (h : atEnd tail = true) (tokens : List Token) :
    atEnd (tokens ++ tail) = atEnd tokens := by
  cases tokens with
  | nil => exact h
  | cons t rest => rfl

/-- Recovery stops at the end as it does where the tokens run out. -/
theorem recoverySkip_append {tail : List Token} (h : atEnd tail = true) (tokens : List Token) :
    recoverySkip (tokens ++ tail) = recoverySkip tokens := by
  cases tokens with
  | nil =>
    cases tail with
    | nil => rfl
    | cons t tail => exact if_pos (of_decide_eq_true h)
  | cons t rest =>
    have hstop : tail.takeWhile (fun u => !u.kind.isStop) = [] := by
      cases tail with
      | nil => rfl
      | cons u tail =>
        have hkind : u.kind = .endOfInput := of_decide_eq_true h
        simp [hkind, TokenKind.isStop]
    have htakeWhile : (rest ++ tail).takeWhile (fun u => !u.kind.isStop) =
        rest.takeWhile fun u => !u.kind.isStop := by
      rw [List.takeWhile_append, hstop, List.append_nil]
      split
      · next hall => exact ((List.takeWhile_prefix _).eq_of_length hall).symm
      · rfl
    simp only [recoverySkip, List.cons_append, htakeWhile]

namespace ReadState

/-- No state goes on with the end. -/
theorem Run.append {s stop : ReadState} {tokens used rest tail : List Token}
    (h : Run s tokens used stop rest) (htail : atEnd tail = true) :
    Run s (tokens ++ tail) used stop (rest ++ tail) where
  split := by rw [h.split, List.append_assoc]
  fed := h.fed
  stuck := by
    cases rest with
    | cons t rest => exact h.stuck
    | nil =>
      intro t ht
      rw [Option.eq_none_iff_forall_ne_some]
      intro next hnext
      exact ne_endOfInput_of_feed hnext (kind_of_mem_head?_of_atEnd htail t ht)

/-- What a run comes to is decided by the token that it does not take. -/
theorem outcome_cons_append (stop : ReadState) (p : Place) (t : Token) (rest tail : List Token) :
    stop.outcome p (t :: rest ++ tail) = stop.outcome p (t :: rest) := by
  cases stop <;> rfl

/-- Behind a token that was taken, the end makes a difference only to a group left open. -/
theorem outcome_of_atEnd {tail : List Token} (htail : atEnd tail = true) {p : Place} {line : Int}
    (hlast : p.lastLine = some line) (stop : ReadState) :
    stop.outcome p tail =
      (stop.outcome p []).mapError (·.endingOn ((tail.head?.map (·.line)).getD line)) := by
  cases stop with
  | before frames =>
    cases tail with
    | nil => rfl
    | cons t tail =>
      have hkind : t.kind = .endOfInput := of_decide_eq_true htail
      simp only [outcome, if_pos hkind, Place.endLine, hlast]
      rfl
  | behind operand frames =>
    rcases complete_cases operand frames with ⟨tree, hcomplete⟩ | ⟨inner, line', outer, hcomplete⟩
    · simp only [outcome, hcomplete]
      rfl
    · simp only [outcome, hcomplete, Place.endLine, hlast]
      rfl

/-- In front of a tail behind the end, a run comes to the same. Only when it has taken all tokens, a
group left open is reported on another line. -/
theorem Run.outcome_append {stop : ReadState} {tokens used rest tail : List Token} {p : Place}
    (h : Run (.before []) (tokens.drop p.position) used stop rest) (htail : atEnd tail = true)
    (hle : p.position ≤ tokens.length) (hend : atEnd (tokens.drop p.position) = false) :
    stop.outcome (p.after used) (rest ++ tail) =
      (stop.outcome (p.after used) rest).mapError
        (onLineAtEnd tokens (lineOfNext tokens tail.head?) (p.after used).position) := by
  have hlength := Place.position_after_add_length h.split hle
  have hsplit := h.split
  cases rest with
  | cons t rest =>
    have hne : (p.after used).position ≠ tokens.length := by
      rw [List.length_cons] at hlength
      omega
    rw [outcome_cons_append, mapError_onLineAtEnd_of_ne hne]
  | nil =>
    rw [List.append_nil] at hsplit
    have hused : used ≠ [] := by
      rintro rfl
      rw [hsplit] at hend
      cases hend
    obtain ⟨t, ht, hlast⟩ := Place.lastLine_after_drop hused hsplit p
    have hposition : (p.after used).position = tokens.length := hlength
    rw [List.nil_append, outcome_of_atEnd htail hlast, hposition, onLineAtEnd_length, lineOfNext,
      Option.mem_def.mp ht]
    cases tail.head? <;> rfl

end ReadState

/-! ## Two readers -/

namespace ExprReader

variable {r r' : ExprReader}

/-- Two readers at the same place, the second one with more tokens behind those of the first. -/
structure Extends (tokens tail : List Token) (r r' : ExprReader) : Prop where
  tokens_eq : r.tokens = tokens
  tokens_eq' : r'.tokens = tokens ++ tail
  place_eq : r'.place = r.place
  position_le : r.place.position ≤ tokens.length

namespace Extends

variable {tokens tail : List Token}

theorem remaining_eq (h : Extends tokens tail r r') : r'.remaining = r.remaining ++ tail := by
  rw [remaining, remaining, h.tokens_eq, h.tokens_eq', h.place_eq,
    List.drop_append_of_le_length h.position_le]

theorem isAtEnd_eq (h : Extends tokens tail r r') (htail : atEnd tail = true) :
    r'.isAtEnd = r.isAtEnd := by
  rw [isAtEnd, h.remaining_eq, atEnd_append htail, isAtEnd]

theorem record (h : Extends tokens tail r r') (e e' : SyntaxError) :
    Extends tokens tail (r.record e) (r'.record e') :=
  ⟨h.tokens_eq, h.tokens_eq', h.place_eq, h.position_le⟩

theorem skipAhead (h : Extends tokens tail r r') (htail : atEnd tail = true) :
    Extends tokens tail r.skipAhead r'.skipAhead := by
  have hskip : recoverySkip r'.remaining = recoverySkip r.remaining := by
    rw [h.remaining_eq, recoverySkip_append htail]
  have hresume : resumeAt r'.tokens r'.place.position = resumeAt r.tokens r.place.position := by
    rw [resumeAt, resumeAt, ← remaining, ← remaining, hskip, h.place_eq]
  refine ⟨h.tokens_eq, h.tokens_eq', ?_, ?_⟩
  · rw [ExprReader.skipAhead, ExprReader.skipAhead, hresume, h.place_eq]
  · have hposition := h.position_le
    rw [← h.tokens_eq] at hposition ⊢
    exact position_skipAhead_le_length hposition

/-- A round ends alike for both readers. Only when it fails at the end of the tokens, a group left
open is reported on another line. -/
theorem readOne (h : Extends tokens tail r r') (htail : atEnd tail = true)
    (hend : r.isAtEnd = false) :
    Extends tokens tail r.readOne.2 r'.readOne.2 ∧
      r'.readOne.1 = r.readOne.1.mapError
        (onLineAtEnd tokens (lineOfNext tokens tail.head?) r.readOne.2.place.position) := by
  obtain ⟨used, stop, rest, hrun⟩ := ReadState.exists_run (.before []) r.remaining
  have hrun' := hrun.append htail
  rw [← h.remaining_eq] at hrun'
  rw [readOne_of_run hrun, readOne_of_run hrun', h.place_eq]
  rw [isAtEnd] at hend
  rw [remaining, h.tokens_eq] at hrun hend
  refine ⟨⟨h.tokens_eq, h.tokens_eq', rfl, ?_⟩, hrun.outcome_append htail h.position_le hend⟩
  exact Nat.le.intro (Place.position_after_add_length hrun.split h.position_le)

/-- Both readers read the same and come to the same place. -/
theorem readRest (h : Extends tokens tail r r') (htail : atEnd tail = true) :
    r'.readRest.1 = r.readRest.1 ∧ r'.readRest.2.place = r.readRest.2.place ∧
      r'.raisedByRest = r.raisedByRest.map fun raised =>
        (raised.1, onLineAtEnd tokens (lineOfNext tokens tail.head?) raised.1 raised.2) := by
  induction r using raisedByRest.induct generalizing r' with
  | case1 r hend =>
    have hend' := (h.isAtEnd_eq htail).trans hend
    rw [readRest_of_isAtEnd hend, readRest_of_isAtEnd hend', raisedByRest_of_isAtEnd hend,
      raisedByRest_of_isAtEnd hend']
    exact ⟨rfl, h.place_eq, rfl⟩
  | case2 r hend tree next hone ih =>
    have hend := Bool.eq_false_iff.mpr hend
    have hend' := (h.isAtEnd_eq htail).trans hend
    obtain ⟨hnext, hresult⟩ := h.readOne htail hend
    rcases hone' : r'.readOne with ⟨result, next'⟩
    rw [hone, hone'] at hnext hresult
    obtain rfl : result = .ok tree := hresult
    obtain ⟨htrees, hplace, hraised⟩ := ih hnext
    rw [readRest_of_ok hend hone, readRest_of_ok hend' hone', raisedByRest_of_ok hend hone,
      raisedByRest_of_ok hend' hone']
    exact ⟨congrArg (tree :: ·) htrees, hplace, hraised⟩
  | case3 r hend e failed hone ih =>
    have hend := Bool.eq_false_iff.mpr hend
    have hend' := (h.isAtEnd_eq htail).trans hend
    obtain ⟨hfailed, hresult⟩ := h.readOne htail hend
    rcases hone' : r'.readOne with ⟨result, failed'⟩
    rw [hone, hone'] at hfailed hresult
    obtain rfl : result = .error _ := hresult
    obtain ⟨htrees, hplace, hraised⟩ := ih ((hfailed.record e _).skipAhead htail)
    rw [readRest_of_error hend hone, readRest_of_error hend' hone', raisedByRest_of_error hend hone,
      raisedByRest_of_error hend' hone', hraised, hfailed.place_eq]
    exact ⟨htrees, hplace, rfl⟩

end Extends

theorem extends_fresh (tokens tail : List Token) :
    Extends tokens tail (fresh tokens) (fresh (tokens ++ tail)) :=
  ⟨rfl, rfl, rfl, Nat.zero_le _⟩

/-- Without a token for the end, a group left open at the end is reported on the line of the last
token. -/
theorem raisedByRest_fresh_eq_map {e : Token} (he : e.kind = .endOfInput) (ts : List Token) :
    (fresh ts).raisedByRest = (fresh (ts ++ [e])).raisedByRest.map fun raised =>
      (raised.1, onLineAtEnd ts (lineOfLast ts none) raised.1 raised.2) := by
  have hended := ((extends_fresh ts [e]).readRest (decide_eq_true he)).2.2
  have hbare := ((extends_fresh ts []).readRest rfl).2.2
  have hline : lineOfNext ts none = lineOfLast ts none := by
    simp [lineOfNext, lineOfLast]
  rw [hended, List.map_map]
  simp only [Function.comp_def, onLineAtEnd_onLineAtEnd]
  rwa [List.append_nil, List.head?_nil, hline] at hbare

/-- Reading does not look behind the token for the end. Without that token it gives the same trees,
comes to the same place and records the same errors, only that a group left open at the end of the
tokens is reported on the line of the last token instead of that of the token for the end. -/
theorem readRest_end {e : Token} (he : e.kind = .endOfInput) (ts us : List Token) :
    let bare := fresh ts
    let ended := fresh (ts ++ [e])
    (fresh (ts ++ e :: us)).readRest =
        (ended.readRest.1, { ended.readRest.2 with tokens := ts ++ e :: us }) ∧
      bare.readRest.1 = ended.readRest.1 ∧ bare.readRest.2.place = ended.readRest.2.place ∧
      bare.readRest.2.errors = bare.raisedByRest.map Prod.snd ∧
      ended.readRest.2.errors = ended.raisedByRest.map Prod.snd ∧
      bare.raisedByRest = ended.raisedByRest.map (fun raised =>
        (raised.1, onLineAtEnd ts (lineOfLast ts none) raised.1 raised.2)) ∧
      ∀ line openLine, (ts.length, .unclosedGroup line openLine) ∈ ended.raisedByRest →
        line = e.line := by
  intro bare ended
  have hend (us : List Token) : atEnd (e :: us) = true := decide_eq_true he
  obtain ⟨htrees, hplace, hraised⟩ := (extends_fresh ts [e]).readRest (hend [])
  obtain ⟨htrees', hplace', hraised'⟩ := (extends_fresh ts (e :: us)).readRest (hend us)
  refine ⟨?_, htrees.symm, hplace.symm, bare.errors_readRest, ended.errors_readRest,
    raisedByRest_fresh_eq_map he ts, ?_⟩
  · have herrors : (fresh (ts ++ e :: us)).readRest.2.errors = ended.readRest.2.errors := by
      rw [errors_readRest, errors_readRest, hraised', hraised]
      rfl
    have hstop : (fresh (ts ++ e :: us)).readRest.2 =
        { ended.readRest.2 with tokens := ts ++ e :: us } := by
      rw [ExprReader.mk.injEq, herrors, hplace', hplace]
      exact ⟨rfl, rfl, rfl⟩
    exact Prod.ext (htrees'.trans htrees.symm) hstop
  · intro line openLine hmem
    rw [hraised] at hmem
    obtain ⟨⟨position, error⟩, -, hsame⟩ := List.mem_map.mp hmem
    obtain ⟨rfl, herror⟩ := Prod.mk.inj hsame
    rw [onLineAtEnd_length] at herror
    cases error <;> cases herror
    rfl

/-- A group opened on line 2 is left open behind the last token, on line 3, and in front of the end,
on line 5. -/
theorem readRest_end_open_group :
    let ts : List Token := [⟨.kwNil, 1, none⟩, ⟨.leftParen, 2, none⟩, ⟨.kwTrue, 3, none⟩]
    let e : Token := ⟨.endOfInput, 5, none⟩
    let us : List Token := [⟨.rightParen, 6, none⟩, ⟨.kwPrint, 7, none⟩]
    e.kind = .endOfInput ∧
      (fresh (ts ++ e :: us)).readRest.1 = [.literal .nil] ∧
      (fresh (ts ++ e :: us)).readRest.2.errors = [.unclosedGroup 5 2] ∧
      (fresh ts).raisedByRest = [(3, .unclosedGroup 3 2)] := by
  intro ts e us
  have hended : (fresh (ts ++ [e])).raisedByRest = [(3, .unclosedGroup 5 2)] := by
    cbv
  have htrees : (fresh (ts ++ [e])).readRest.1 = [.literal .nil] := by
    cbv
  obtain ⟨hbarrier, -, -, -, herrors, hbare, -⟩ := readRest_end (e := e) rfl ts us
  rw [hended] at herrors hbare
  rw [hbarrier, htrees]
  exact ⟨rfl, rfl, herrors, hbare⟩

end ExprReader

end LoxReader
