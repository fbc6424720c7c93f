import LoxReader.Proofs.Expr.Diagnosis
import LoxReader.Proofs.Expr.Splitting
import Mathlib.Data.List.TakeWhile

/-! # Any sequence of calls

A reader may be asked for one expression, for all of them, or to skip ahead, in any order and after
any error. Its cursor only moves forward and stays in front of the end, the line that it remembers
is that of the last token it has put into an expression, and once it has read everything it stays
where it is. -/

namespace LoxReader

namespace ReadState

/-- No state takes the token for the end. -/
theorem ne_endOfInput_of_feed {s next : ReadState} {t : Token} (h : s.feed t = some next) :
    t.kind ≠ .endOfInput := by
  intro hend
  cases s with
  | before frames => simp [feed, hend, TokenKind.isUnaryOperator, Token.literal?] at h
  | behind operand frames =>
    simp only [feed, hend, TokenKind.level?] at h
    split at h
    · rw [if_neg (by decide)] at h
      cases h
    · cases h

theorem ne_endOfInput_of_feedAll {s stop : ReadState} {used : List Token}
    (h : s.feedAll used = some stop) : ∀ t ∈ used, t.kind ≠ .endOfInput := by
  induction used generalizing s with
  | nil => simp
  | cons t used ih =>
    rw [feedAll_cons] at h
    obtain ⟨next, hnext, hused⟩ := Option.bind_eq_some_iff.mp h
    rw [List.forall_mem_cons]
    exact ⟨ne_endOfInput_of_feed hnext, ih hused⟩

end ReadState

/-- Recovery does not skip the token for the end. -/
theorem ne_endOfInput_of_mem_take_recoverySkip (tokens : List Token) :
    ∀ t ∈ tokens.take (recoverySkip tokens), t.kind ≠ .endOfInput := by
  cases tokens with
  | nil => simp
  | cons t rest =>
    by_cases hend : t.kind = .endOfInput
    · simp [recoverySkip, hend]
    · have hprefix := List.takeWhile_prefix (l := rest) fun u => !u.kind.isStop
      rw [recoverySkip, if_neg hend, Nat.add_comm, List.take_succ_cons,
        ← List.prefix_iff_eq_take.mp hprefix, List.forall_mem_cons]
      refine ⟨hend, fun u hu => ?_⟩
      have hstop := List.mem_takeWhile_imp hu
      intro hkind
      simp [hkind, TokenKind.isStop] at hstop

theorem recoverySkip_le_length (tokens : List Token) : recoverySkip tokens ≤ tokens.length := by
  cases tokens with
  | nil => exact Nat.le_refl _
  | cons t rest =>
    have hle := (List.takeWhile_prefix (l := rest) fun u => !u.kind.isStop).length_le
    by_cases hend : t.kind = .endOfInput
    · simp [recoverySkip, hend]
    · rw [recoverySkip, if_neg hend, List.length_cons]
      omega

namespace ExprReader

/-! ## Calls -/

inductive Call where
  | readOne | readRest | skipAhead
deriving DecidableEq

/-- What a call leaves behind. -/
def perform (r : ExprReader) : Call → ExprReader
  | .readOne => r.readOne.2
  | .readRest => r.readRest.2
  | .skipAhead => r.skipAhead

def performAll (r : ExprReader) (calls : List Call) : ExprReader :=
  calls.foldl perform r

/-- The positions from the cursor of one reader up to that of another one. -/
def positionsTo (r next : ExprReader) : List Nat :=
  List.range' r.place.position (next.place.position - r.place.position)

/-- The positions of the tokens that go into expressions when everything is read. In each round
these are the tokens taken until a tree is complete or an error arises, and not those that recovery
skips. -/
def takenByRest (r : ExprReader) : List Nat :=
  if _ : r.isAtEnd = true then []
  else
    match _ : r.readOne with
    | (.ok _, next) => r.positionsTo next ++ next.takenByRest
    | (.error e, failed) => r.positionsTo failed ++ (failed.record e).skipAhead.takenByRest
termination_by r.remaining.length
decreasing_by
  · exact length_remaining_of_ok (by assumption)
  · exact length_remaining_of_error (Bool.eq_false_iff.mpr (by assumption)) (by assumption)

/-- The positions of the tokens that go into expressions during a call. -/
def taken (r : ExprReader) : Call → List Nat
  | .readOne => r.positionsTo r.readOne.2
  | .readRest => r.takenByRest
  | .skipAhead => []

def takenByAll (r : ExprReader) : List Call → List Nat
  | [] => []
  | call :: calls => r.taken call ++ (r.perform call).takenByAll calls

/-! ## What calls keep -/

/-- The line of the token at the highest of some positions. -/
def lineOfHighest (tokens : List Token) (positions : List Nat) : Option Int :=
  positions.max?.bind fun i => tokens[i]?.map (·.line)

/-- A reader of given tokens, after the tokens at the given positions have gone into expressions. -/
structure HasTaken (tokens : List Token) (positions : List Nat) (r : ExprReader) : Prop where
  tokens_eq : r.tokens = tokens
  position_le : r.place.position ≤ tokens.length
  ne_endOfInput : ∀ t ∈ tokens.take r.place.position, t.kind ≠ .endOfInput
  lt_position : ∀ i ∈ positions, i < r.place.position
  lastLine_eq : r.place.lastLine = lineOfHighest tokens positions

theorem hasTaken_fresh (tokens : List Token) : HasTaken tokens [] (fresh tokens) where
  tokens_eq := rfl
  position_le := Nat.zero_le _
  ne_endOfInput := by simp [fresh]
  lt_position := by simp
  lastLine_eq := rfl

variable {tokens : List Token} {positions : List Nat} {r : ExprReader}

theorem max?_append_range' {n k : Nat} (h : ∀ i ∈ positions, i < n) :
    (positions ++ List.range' n (k + 1)).max? = some (n + k) := by
  rw [List.max?_eq_some_iff]
  constructor
  · rw [List.mem_append, List.mem_range'_1]
    omega
  · intro i hi
    rw [List.mem_append, List.mem_range'_1] at hi
    rcases hi with hi | hi
    · exact Nat.le_trans (Nat.le_of_lt (h i hi)) (Nat.le_add_right n k)
    · omega

/-- Tokens that go into expressions one behind the other end with the one at the highest position. -/
theorem lineOfHighest_append {n : Nat} {used rest : List Token} (h : ∀ i ∈ positions, i < n)
    (hused : tokens.drop n = used ++ rest) :
    lineOfHighest tokens (positions ++ List.range' n used.length) =
      (used.getLast?.map (·.line)).or (lineOfHighest tokens positions) := by
  cases hlength : used.length with
  | zero =>
    obtain rfl := List.length_eq_zero_iff.mp hlength
    simp
  | succ k =>
    have hk : k < used.length := by omega
    have hlast : used.getLast? = some used[k] := by
      rw [List.getLast?_eq_getElem?, hlength, Nat.add_sub_cancel, List.getElem?_eq_getElem hk]
    have hhighest : tokens[n + k]? = some used[k] := by
      rw [← List.getElem?_drop, hused, List.getElem?_append_left hk, List.getElem?_eq_getElem hk]
    rw [lineOfHighest, max?_append_range' h, Option.bind_some, hhighest, hlast]
    rfl

/-- Recovery stays in front of the end of the tokens. -/
theorem position_skipAhead_le_length (h : r.place.position ≤ r.tokens.length) :
    r.skipAhead.place.position ≤ r.tokens.length := by
  have hle := recoverySkip_le_length (r.tokens.drop r.place.position)
  rw [List.length_drop] at hle
  change r.place.position + recoverySkip (r.tokens.drop r.place.position) ≤ r.tokens.length
  omega

theorem take_position_add {n : Nat} {used rest : List Token}
    (h : tokens.drop n = used ++ rest) : tokens.take (n + used.length) = tokens.take n ++ used := by
  rw [List.take_add, h, List.take_left]

namespace HasTaken

theorem readOne (h : HasTaken tokens positions r) :
    HasTaken tokens (positions ++ r.positionsTo r.readOne.2) r.readOne.2 := by
  obtain ⟨used, stop, rest, hrun, hone, -, -⟩ := r.exists_run_readOne
  have hdrop : tokens.drop r.place.position = used ++ rest := by
    rw [← h.tokens_eq]
    exact hrun.split
  rw [hone]
  have hpositions : r.positionsTo { r with place := r.place.after used } =
      List.range' r.place.position used.length := by
    rw [positionsTo, Place.position_after, Nat.add_sub_cancel_left]
  rw [hpositions]
  constructor
  · exact h.tokens_eq
  · have hlength := congrArg List.length hdrop
    have hle := h.position_le
    rw [List.length_drop, List.length_append] at hlength
    rw [Place.position_after]
    omega
  · rw [Place.position_after, take_position_add hdrop]
    intro t ht
    rcases List.mem_append.mp ht with ht | ht
    · exact h.ne_endOfInput t ht
    · exact ReadState.ne_endOfInput_of_feedAll hrun.fed t ht
  · intro i hi
    rw [Place.position_after]
    rw [List.mem_append, List.mem_range'_1] at hi
    rcases hi with hi | hi
    · exact Nat.lt_of_lt_of_le (h.lt_position i hi) (Nat.le_add_right _ _)
    · exact hi.2
  · rw [Place.lastLine_after, h.lastLine_eq, lineOfHighest_append h.lt_position hdrop]

theorem record (h : HasTaken tokens positions r) (e : SyntaxError) :
    HasTaken tokens positions (r.record e) :=
  ⟨h.tokens_eq, h.position_le, h.ne_endOfInput, h.lt_position, h.lastLine_eq⟩

theorem skipAhead (h : HasTaken tokens positions r) : HasTaken tokens positions r.skipAhead := by
  have hskipped : r.skipAhead.place.position =
      r.place.position + recoverySkip (tokens.drop r.place.position) := by
    rw [← h.tokens_eq]
    rfl
  constructor
  · exact h.tokens_eq
  · have hposition := h.position_le
    rw [← h.tokens_eq] at hposition ⊢
    exact position_skipAhead_le_length hposition
  · rw [hskipped, List.take_add]
    intro t ht
    rcases List.mem_append.mp ht with ht | ht
    · exact h.ne_endOfInput t ht
    · exact ne_endOfInput_of_mem_take_recoverySkip _ t ht
  · intro i hi
    rw [hskipped]
    exact Nat.lt_of_lt_of_le (h.lt_position i hi) (Nat.le_add_right _ _)
  · exact h.lastLine_eq

/-- Reading everything is a sequence of rounds, each of which keeps what the calls keep. -/
theorem readRest (h : HasTaken tokens positions r) :
    HasTaken tokens (positions ++ r.takenByRest) r.readRest.2 := by
  fun_induction takenByRest r generalizing positions with
  | case1 r hend =>
    rw [List.append_nil, readRest_of_isAtEnd hend]
    exact h
  | case2 r hend tree next hone ih =>
    have hnext := h.readOne
    rw [hone] at hnext
    rw [readRest_of_ok (Bool.eq_false_iff.mpr hend) hone, ← List.append_assoc]
    exact ih hnext
  | case3 r hend e failed hone ih =>
    have hfailed := h.readOne
    rw [hone] at hfailed
    rw [readRest_of_error (Bool.eq_false_iff.mpr hend) hone, ← List.append_assoc]
    exact ih (hfailed.record e).skipAhead

theorem perform (h : HasTaken tokens positions r) (call : Call) :
    HasTaken tokens (positions ++ r.taken call) (r.perform call) := by
  cases call with
  | readOne => exact h.readOne
  | readRest => exact h.readRest
  | skipAhead =>
    rw [taken, List.append_nil]
    exact h.skipAhead

theorem performAll (h : HasTaken tokens positions r) (calls : List Call) :
    HasTaken tokens (positions ++ r.takenByAll calls) (r.performAll calls) := by
  induction calls generalizing positions r with
  | nil =>
    rw [takenByAll, List.append_nil]
    exact h
  | cons call calls ih =>
    rw [takenByAll, ← List.append_assoc]
    exact ih (h.perform call)

end HasTaken

/-! ## Going forward -/

theorem position_le_readOne (r : ExprReader) :
    r.place.position ≤ r.readOne.2.place.position := by
  obtain ⟨used, stop, rest, -, hone, -, -⟩ := r.exists_run_readOne
  rw [hone, Place.position_after]
  exact Nat.le_add_right _ _

theorem position_le_skipAhead (r : ExprReader) :
    r.place.position ≤ r.skipAhead.place.position :=
  Nat.le_add_right _ _

theorem position_le_readRest (r : ExprReader) :
    r.place.position ≤ r.readRest.2.place.position := by
  induction r using takenByRest.induct with
  | case1 r hend => rw [readRest_of_isAtEnd hend]
  | case2 r hend tree next hone ih =>
    have hnext := r.position_le_readOne
    rw [hone] at hnext
    rw [readRest_of_ok (Bool.eq_false_iff.mpr hend) hone]
    exact Nat.le_trans hnext ih
  | case3 r hend e failed hone ih =>
    have hfailed := r.position_le_readOne
    rw [hone] at hfailed
    rw [readRest_of_error (Bool.eq_false_iff.mpr hend) hone]
    exact Nat.le_trans hfailed (Nat.le_trans (failed.record e).position_le_skipAhead ih)

theorem position_le_perform (r : ExprReader) (call : Call) :
    r.place.position ≤ (r.perform call).place.position := by
  cases call with
  | readOne => exact r.position_le_readOne
  | readRest => exact r.position_le_readRest
  | skipAhead => exact r.position_le_skipAhead

/-- Errors are recorded behind those that there are, and only when everything is read. -/
theorem exists_errors_perform (r : ExprReader) (call : Call) :
    ∃ more, (r.perform call).errors = r.errors ++ more ∧ (call = .readRest ∨ more = []) := by
  cases call with
  | readRest => exact ⟨_, rfl, .inl rfl⟩
  | readOne | skipAhead => exact ⟨[], (List.append_nil _).symm, .inr rfl⟩

/-! ## Staying at the end -/

theorem isAtEnd_readRest (r : ExprReader) : r.readRest.2.isAtEnd = true := by
  induction r using takenByRest.induct with
  | case1 r hend =>
    rw [readRest_of_isAtEnd hend]
    exact hend
  | case2 r hend tree next hone ih =>
    rw [readRest_of_ok (Bool.eq_false_iff.mpr hend) hone]
    exact ih
  | case3 r hend e failed hone ih =>
    rw [readRest_of_error (Bool.eq_false_iff.mpr hend) hone]
    exact ih

theorem readOne_of_isAtEnd (h : r.isAtEnd = true) :
    ∃ line, r.readOne = (.error (.missingOperand line), r) := by
  cases hr : r.remaining with
  | nil => exact ⟨r.place.endLine none, by simp only [readOne, readExpr, hr, readOperand]⟩
  | cons t rest =>
    have hend : t.kind = .endOfInput := by simpa [isAtEnd, hr, atEnd] using h
    exact ⟨r.place.endLine (some t),
      by simp only [readOne, readExpr, hr, readOperand, if_pos hend]⟩

theorem skipAhead_of_isAtEnd (h : r.isAtEnd = true) : r.skipAhead = r := by
  have hskip : recoverySkip (r.tokens.drop r.place.position) = 0 := by
    cases hr : r.tokens.drop r.place.position with
    | nil => rfl
    | cons t rest =>
      have hend : t.kind = .endOfInput := by simpa [isAtEnd, remaining, hr, atEnd] using h
      rw [recoverySkip, if_pos hend]
  rw [skipAhead, resumeAt, hskip, Nat.add_zero]

theorem perform_of_isAtEnd (h : r.isAtEnd = true) (call : Call) : r.perform call = r := by
  cases call with
  | readOne =>
    obtain ⟨line, hone⟩ := readOne_of_isAtEnd h
    rw [perform, hone]
  | readRest => rw [perform, readRest_of_isAtEnd h]
  | skipAhead => exact skipAhead_of_isAtEnd h

theorem performAll_of_isAtEnd (h : r.isAtEnd = true) (calls : List Call) :
    r.performAll calls = r := by
  induction calls with
  | nil => rfl
  | cons call calls ih =>
    rw [performAll, List.foldl_cons, perform_of_isAtEnd h]
    exact ih

theorem isAtEnd_performAll {calls : List Call} (h : .readRest ∈ calls) (r : ExprReader) :
    (r.performAll calls).isAtEnd = true := by
  induction calls generalizing r with
  | nil => cases h
  | cons call calls ih =>
    rcases List.mem_cons.mp h with rfl | h
    · have hend := r.isAtEnd_readRest
      have hstay : (r.perform .readRest).performAll calls = r.perform .readRest :=
        performAll_of_isAtEnd hend calls
      rw [performAll, List.foldl_cons, ← performAll, hstay]
      exact hend
    · exact ih h _

/-! ## Any sequence of calls -/

/-- After any calls, the cursor of a reader is not behind the first token for the end, and the line
that it remembers is that of the token at the highest position that went into an expression. One
more call does not move the cursor back, and only reading everything records errors, behind those
that there are. When everything has been read once, no call changes anything any more. -/
theorem performAll_invariant (tokens : List Token) (calls : List Call) :
    let r := (fresh tokens).performAll calls
    HasTaken tokens ((fresh tokens).takenByAll calls) r ∧
      (∀ call, r.place.position ≤ (r.perform call).place.position ∧
        ∃ more, (r.perform call).errors = r.errors ++ more ∧ (call = .readRest ∨ more = [])) ∧
      (.readRest ∈ calls → r.isAtEnd = true ∧ r.readRest = ([], r) ∧
        ∃ line, r.readOne = (.error (.missingOperand line), r)) := by
  intro r
  refine ⟨(hasTaken_fresh tokens).performAll calls, ?_, ?_⟩
  · intro call
    exact ⟨r.position_le_perform call, r.exists_errors_perform call⟩
  · intro hmem
    have hend : r.isAtEnd = true := isAtEnd_performAll hmem (fresh tokens)
    exact ⟨hend, readRest_of_isAtEnd hend, readOne_of_isAtEnd hend⟩

end ExprReader

end LoxReader
