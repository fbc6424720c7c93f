import LoxReader.Proofs.Expr.Calls
import Mathlib.Logic.Function.Iterate

/-! # Rounds of reading everything

Reading everything goes on in rounds. In each one an expression is read, or an error is recorded and
the cursor skips ahead. Every round gets past at least one token in front of the end and past no
token for the end, so there are at most as many rounds as tokens. -/

namespace LoxReader

/-- One round: the position where it starts, the one where reading ends with a tree or an error, and
the one where the next round starts. -/
structure Round (ε α : Type) where
  start : Nat
  stop : Nat
  next : Nat
  result : Except ε α

namespace Round

variable {ε α : Type}

def tree? (round : Round ε α) : Option α :=
  match round.result with
  | .ok tree => some tree
  | .error _ => none

def error? (round : Round ε α) : Option ε :=
  match round.result with
  | .ok _ => none
  | .error e => some e

/-- A round gives a tree or an error. -/
theorem length_trees_add_length_errors (rounds : List (Round ε α)) :
    (rounds.filterMap tree?).length + (rounds.filterMap error?).length = rounds.length := by
  induction rounds with
  | nil => rfl
  | cons round rounds ih =>
    obtain ⟨start, stop, next, result⟩ := round
    cases result with
    | ok tree =>
      simp only [List.filterMap_cons, tree?, error?, List.length_cons]
      omega
    | error e =>
      simp only [List.filterMap_cons, tree?, error?, List.length_cons]
      omega

end Round

namespace ExprReader

variable {r next failed : ExprReader}

/-- The reader behind one round. -/
def afterRound (r : ExprReader) : ExprReader :=
  match r.readOne with
  | (.ok _, next) => next
  | (.error e, failed) => (failed.record e).skipAhead

def round (r : ExprReader) : Round SyntaxError Expr where
  start := r.place.position
  stop := r.readOne.2.place.position
  next := r.afterRound.place.position
  result := r.readOne.1

theorem afterRound_of_ok {tree : Expr} (h : r.readOne = (.ok tree, next)) :
    r.afterRound = next := by
  rw [afterRound, h]

theorem afterRound_of_error {e : SyntaxError} (h : r.readOne = (.error e, failed)) :
    r.afterRound = (failed.record e).skipAhead := by
  rw [afterRound, h]

/-- After an error the cursor goes on over the tokens that recovery skips. -/
theorem position_afterRound_of_error {e : SyntaxError} (h : r.readOne = (.error e, failed)) :
    r.afterRound.place.position = failed.place.position + recoverySkip failed.remaining := by
  rw [afterRound_of_error h]
  rfl

theorem tokens_afterRound (r : ExprReader) : r.afterRound.tokens = r.tokens := by
  rcases hone : r.readOne with ⟨e | tree, next⟩
  · rw [afterRound_of_error hone, (readExpr_of_readOne hone).2]
    rfl
  · rw [afterRound_of_ok hone, (readExpr_of_readOne hone).2]

/-! ## One round -/

/-- Reading one expression passes the tokens that it takes. -/
theorem exists_passed_readOne {result : Except SyntaxError Expr} (h : r.readOne = (result, next)) :
    ∃ passed, (∀ t ∈ passed, t.kind ≠ .endOfInput) ∧ r.remaining = passed ++ next.remaining ∧
      next.place.position = r.place.position + passed.length := by
  obtain ⟨used, stop, rest, hrun, hone, -, -⟩ := r.exists_run_readOne
  have hnext : next = { r with place := r.place.after used } :=
    congrArg Prod.snd (h.symm.trans hone)
  have hposition : next.place.position = r.place.position + used.length := by
    rw [hnext, Place.position_after]
  refine ⟨used, ReadState.ne_endOfInput_of_feedAll hrun.fed, ?_, hposition⟩
  have hdrop : r.remaining.drop used.length = rest := by
    rw [hrun.split, List.drop_left]
  have hremaining : next.remaining = rest := by
    rw [← hdrop, remaining, remaining, List.drop_drop, hposition, hnext]
  rw [hremaining, hrun.split]

/-- A round leaves less to read. -/
theorem length_remaining_afterRound (h : r.isAtEnd = false) :
    r.afterRound.remaining.length < r.remaining.length := by
  rcases hone : r.readOne with ⟨e | tree, next⟩
  · rw [afterRound_of_error hone]
    exact length_remaining_of_error h hone
  · rw [afterRound_of_ok hone]
    exact length_remaining_of_ok hone

/-- A round passes some tokens in front of the end. -/
theorem exists_passed (h : r.isAtEnd = false) :
    ∃ passed, passed ≠ [] ∧ (∀ t ∈ passed, t.kind ≠ .endOfInput) ∧
      r.remaining = passed ++ r.afterRound.remaining ∧
      r.afterRound.place.position = r.place.position + passed.length := by
  have hlength := length_remaining_afterRound h
  have hne {passed : List Token} (hsplit : r.remaining = passed ++ r.afterRound.remaining) :
      passed ≠ [] := by
    rintro rfl
    rw [hsplit] at hlength
    exact absurd hlength (Nat.lt_irrefl _)
  rcases hone : r.readOne with ⟨e | tree, next⟩
  · obtain ⟨used, hused, hsplit, hposition⟩ := exists_passed_readOne hone
    have hafter := afterRound_of_error hone
    have hnext : (next.record e).remaining = next.remaining := rfl
    have hremaining : r.remaining =
        (used ++ next.remaining.take (recoverySkip next.remaining)) ++ r.afterRound.remaining := by
      rw [hafter, remaining_skipAhead, hnext, List.append_assoc, List.take_append_drop, hsplit]
    refine ⟨_, hne hremaining, ?_, hremaining, ?_⟩
    · intro t ht
      rcases List.mem_append.mp ht with ht | ht
      · exact hused t ht
      · exact ne_endOfInput_of_mem_take_recoverySkip _ t ht
    · rw [position_afterRound_of_error hone, hposition, List.length_append, List.length_take,
        Nat.min_eq_left (recoverySkip_le_length _), Nat.add_assoc]
  · obtain ⟨used, hused, hsplit, hposition⟩ := exists_passed_readOne hone
    rw [← afterRound_of_ok hone] at hsplit hposition
    exact ⟨used, hne hsplit, hused, hsplit, hposition⟩

theorem position_lt_afterRound (h : r.isAtEnd = false) :
    r.place.position < r.afterRound.place.position := by
  obtain ⟨passed, hne, -, -, hposition⟩ := exists_passed h
  have hpos := List.length_pos_iff.mpr hne
  omega

/-- A round brings the end nearer. -/
theorem length_beforeEnd_afterRound (h : r.isAtEnd = false) :
    (beforeEnd r.afterRound.remaining).length < (beforeEnd r.remaining).length := by
  obtain ⟨passed, hne, hpassed, hsplit, -⟩ := exists_passed h
  have hbefore : beforeEnd r.remaining = passed ++ beforeEnd r.afterRound.remaining := by
    rw [hsplit, beforeEnd, List.takeWhile_append_of_pos (by simpa using hpassed), beforeEnd]
  have hpos := List.length_pos_iff.mpr hne
  rw [hbefore, List.length_append]
  omega

/-! ## All rounds -/

/-- The rounds of reading everything. -/
def rounds (r : ExprReader) : List (Round SyntaxError Expr) :=
  if _ : r.isAtEnd = true then [] else r.round :: r.afterRound.rounds
termination_by r.remaining.length
decreasing_by exact length_remaining_afterRound (Bool.eq_false_iff.mpr (by assumption))

theorem rounds_of_isAtEnd (h : r.isAtEnd = true) : r.rounds = [] := by
  rw [rounds, dif_pos h]

theorem rounds_of_not_isAtEnd (h : r.isAtEnd = false) :
    r.rounds = r.round :: r.afterRound.rounds := by
  rw [rounds, dif_neg (Bool.eq_false_iff.mp h)]

/-- Reading everything gives the trees of the rounds and records their errors. -/
theorem readRest_eq_rounds (r : ExprReader) :
    r.readRest.1 = r.rounds.filterMap Round.tree? ∧
      r.readRest.2.errors = r.errors ++ r.rounds.filterMap Round.error? := by
  induction r using rounds.induct with
  | case1 r hend =>
    rw [readRest_of_isAtEnd hend, rounds_of_isAtEnd hend]
    exact ⟨rfl, (List.append_nil _).symm⟩
  | case2 r hend ih =>
    have hend := Bool.eq_false_iff.mpr hend
    obtain ⟨htrees, herrors⟩ := ih
    rcases hone : r.readOne with ⟨e | tree, next⟩
    · have htree : r.round.tree? = none := by simp only [Round.tree?, round, hone]
      have herror : r.round.error? = some e := by simp only [Round.error?, round, hone]
      have hrecorded : (next.record e).skipAhead.errors = r.errors ++ [e] := by
        rw [(readExpr_of_readOne hone).2]
        rfl
      rw [afterRound_of_error hone] at htrees herrors
      rw [rounds_of_not_isAtEnd hend, List.filterMap_cons_none htree,
        List.filterMap_cons_some herror, afterRound_of_error hone, readRest_of_error hend hone]
      refine ⟨htrees, ?_⟩
      rw [herrors, hrecorded, List.append_assoc, List.singleton_append]
    · have htree : r.round.tree? = some tree := by simp only [Round.tree?, round, hone]
      have herror : r.round.error? = none := by simp only [Round.error?, round, hone]
      have hkept : next.errors = r.errors := by rw [(readExpr_of_readOne hone).2]
      rw [afterRound_of_ok hone] at htrees herrors
      rw [rounds_of_not_isAtEnd hend, List.filterMap_cons_some htree,
        List.filterMap_cons_none herror, afterRound_of_ok hone, readRest_of_ok hend hone]
      exact ⟨congrArg (tree :: ·) htrees, herrors.trans (congrArg (· ++ _) hkept)⟩

theorem readRest_afterRound (h : r.isAtEnd = false) : r.afterRound.readRest.2 = r.readRest.2 := by
  rcases hone : r.readOne with ⟨e | tree, next⟩
  · rw [afterRound_of_error hone, readRest_of_error h hone]
  · rw [afterRound_of_ok hone, readRest_of_ok h hone]

/-- Reading everything ends where its rounds lead, and none of them starts at the end. -/
theorem readRest_eq_iterate (r : ExprReader) :
    r.readRest.2 = afterRound^[r.rounds.length] r ∧
      ∀ i < r.rounds.length, (afterRound^[i] r).isAtEnd = false := by
  induction r using rounds.induct with
  | case1 r hend =>
    rw [readRest_of_isAtEnd hend, rounds_of_isAtEnd hend]
    exact ⟨rfl, nofun⟩
  | case2 r hend ih =>
    have hend := Bool.eq_false_iff.mpr hend
    obtain ⟨hstop, hbefore⟩ := ih
    rw [rounds_of_not_isAtEnd hend, List.length_cons]
    refine ⟨(readRest_afterRound hend).symm.trans hstop, ?_⟩
    intro i hi
    cases i with
    | zero => exact hend
    | succ i => exact hbefore i (Nat.lt_of_succ_lt_succ hi)

theorem length_rounds_le (r : ExprReader) : r.rounds.length ≤ (beforeEnd r.remaining).length := by
  induction r using rounds.induct with
  | case1 r hend =>
    rw [rounds_of_isAtEnd hend]
    exact Nat.zero_le _
  | case2 r hend ih =>
    have hend := Bool.eq_false_iff.mpr hend
    rw [rounds_of_not_isAtEnd hend, List.length_cons]
    exact Nat.lt_of_le_of_lt ih (length_beforeEnd_afterRound hend)

/-- From any place, a tree takes at least one token, and every round that does not start at the end
takes the cursor forward, wherever its error arises. So reading everything ends after finitely many
rounds. Each of them gives a tree or records an error, and there are at most as many of them as
tokens from the cursor up to the end. -/
theorem readRest_progress (r : ExprReader) :
    (∀ tree next, r.readOne = (.ok tree, next) → r.place.position < next.place.position) ∧
      (r.isAtEnd = false → r.place.position < r.afterRound.place.position) ∧
      ∃ n more, r.readRest.2 = afterRound^[n] r ∧ r.readRest.2.isAtEnd = true ∧
        (∀ i < n, (afterRound^[i] r).isAtEnd = false) ∧
        r.readRest.2.errors = r.errors ++ more ∧
        r.readRest.1.length + more.length = n ∧ n ≤ (beforeEnd r.remaining).length := by
  refine ⟨?_, position_lt_afterRound, ?_⟩
  · intro tree next hone
    have hend : r.isAtEnd = false := by
      rw [Bool.eq_false_iff]
      intro hend
      obtain ⟨line, herror⟩ := readOne_of_isAtEnd hend
      cases herror.symm.trans hone
    rw [← afterRound_of_ok hone]
    exact position_lt_afterRound hend
  · obtain ⟨htrees, herrors⟩ := r.readRest_eq_rounds
    obtain ⟨hstop, hbefore⟩ := r.readRest_eq_iterate
    refine ⟨r.rounds.length, r.rounds.filterMap Round.error?, hstop, r.isAtEnd_readRest, hbefore,
      herrors, ?_, r.length_rounds_le⟩
    rw [htrees]
    exact Round.length_trees_add_length_errors r.rounds

end ExprReader

end LoxReader
