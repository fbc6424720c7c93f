import LoxReader.Proofs.Expr.Correctness

/-! # Reading everything, and recovery

One round of the loop reads a tree or records an error and skips ahead. After the first error
only tokens that start a statement are looked at again, and each of them is refused. -/

namespace LoxReader

/-! ## Rounds of the loop -/

theorem readAll_of_atEnd {p : Place} {tokens : List Token} (h : atEnd tokens = true) :
    readAll p tokens = ⟨[], [], p, tokens⟩ := by
  cases tokens with
  | nil => rw [readAll]
  | cons t rest =>
    have hkind : t.kind = .endOfInput := of_decide_eq_true h
    rw [readAll, dif_pos hkind]

theorem readAll_of_ok {p place : Place} {tokens rest : List Token} {tree : Expr}
    (hend : atEnd tokens = false) (h : readExpr p tokens = ⟨.ok tree, place, rest⟩) :
    readAll p tokens =
      { readAll place rest with trees := tree :: (readAll place rest).trees } := by
  cases tokens with
  | nil => cases hend
  | cons t ts =>
    have hkind : t.kind ≠ .endOfInput := of_decide_eq_false hend
    rw [readAll, dif_neg hkind]
    split
    · next tree' htree =>
      simp only [h] at htree ⊢
      obtain rfl := Except.ok.inj htree
      rfl
    · next e he => simp [h] at he

theorem readAll_of_error {p place : Place} {tokens rest : List Token} {e : SyntaxError}
    (hend : atEnd tokens = false) (h : readExpr p tokens = ⟨.error e, place, rest⟩) :
    readAll p tokens =
      let all := readAll ⟨place.position + recoverySkip rest, place.lastLine⟩
        (rest.drop (recoverySkip rest))
      { all with errors := e :: all.errors } := by
  cases tokens with
  | nil => cases hend
  | cons t ts =>
    have hkind : t.kind ≠ .endOfInput := of_decide_eq_false hend
    rw [readAll, dif_neg hkind]
    split
    · next tree htree => simp [h] at htree
    · next e' he =>
      simp only [h] at he ⊢
      obtain rfl := Except.error.inj he
      rfl

namespace ExprReader

/-- The reader with an error recorded behind those it has. -/
def record (r : ExprReader) (e : SyntaxError) : ExprReader :=
  { r with errors := r.errors ++ [e] }

/-- Reading one expression moves only the place. -/
theorem readExpr_of_readOne {r next : ExprReader} {result : Except SyntaxError Expr}
    (h : r.readOne = (result, next)) :
    readExpr r.place r.remaining = ⟨result, next.place, next.remaining⟩ ∧
      next = { r with place := next.place } := by
  obtain ⟨used, stop, rest, hrun⟩ := ReadState.exists_run (.before []) r.remaining
  have hread : readExpr r.place r.remaining = _ := hrun.read r.place
  simp only [readOne, hread] at h
  obtain ⟨rfl, rfl⟩ := Prod.mk.inj h
  have hrest : r.tokens.drop (r.place.after used).position = rest := by
    calc r.tokens.drop (r.place.after used).position = r.remaining.drop used.length := by
          rw [Place.position_after, remaining, List.drop_drop]
      _ = rest := by rw [hrun.split, List.drop_left]
  refine ⟨?_, rfl⟩
  rw [hread]
  simp only [remaining, hrest]

theorem remaining_skipAhead (r : ExprReader) :
    r.skipAhead.remaining = r.remaining.drop (recoverySkip r.remaining) := by
  simp only [remaining, skipAhead, resumeAt, List.drop_drop]

/-- A tree leaves less to read. -/
theorem length_remaining_of_ok {r next : ExprReader} {tree : Expr}
    (h : r.readOne = (.ok tree, next)) : next.remaining.length < r.remaining.length := by
  have hread := (readExpr_of_readOne h).1
  have hlength := length_rest_of_readOperand_ok (congrArg Reading.result hread)
  rwa [← readExpr, hread] at hlength

/-- An error and recovery leave less to read, wherever the error arose. -/
theorem length_remaining_of_error {r failed : ExprReader} {e : SyntaxError}
    (hend : r.isAtEnd = false) (h : r.readOne = (.error e, failed)) :
    (failed.record e).skipAhead.remaining.length < r.remaining.length := by
  have hrecord : (failed.record e).remaining = failed.remaining := rfl
  rw [remaining_skipAhead, hrecord]
  cases hr : r.remaining with
  | nil => simp [isAtEnd, hr, atEnd] at hend
  | cons t rest =>
    have hkind : t.kind ≠ .endOfInput := by simpa [isAtEnd, hr, atEnd] using hend
    have hshorter := @length_drop_recoverySkip r.place t rest hkind
    rwa [← hr, (readExpr_of_readOne h).1, hr] at hshorter

theorem readRest_of_isAtEnd {r : ExprReader} (h : r.isAtEnd = true) : r.readRest = ([], r) := by
  simp only [readRest, readAll_of_atEnd h, List.append_nil]

/-- A round that reads a tree. -/
theorem readRest_of_ok {r next : ExprReader} {tree : Expr} (hend : r.isAtEnd = false)
    (h : r.readOne = (.ok tree, next)) :
    r.readRest = (tree :: next.readRest.1, next.readRest.2) := by
  obtain ⟨hread, hnext⟩ := readExpr_of_readOne h
  simp only [readRest, readAll_of_ok hend hread]
  rw [hnext]

/-- A round that records an error. -/
theorem readRest_of_error {r failed : ExprReader} {e : SyntaxError} (hend : r.isAtEnd = false)
    (h : r.readOne = (.error e, failed)) : r.readRest = (failed.record e).skipAhead.readRest := by
  obtain ⟨hread, hfailed⟩ := readExpr_of_readOne h
  have hskip : (failed.record e).skipAhead.remaining =
      failed.remaining.drop (recoverySkip failed.remaining) :=
    remaining_skipAhead (failed.record e)
  simp only [readRest, readAll_of_error hend hread, hskip]
  rw [hfailed]
  simp [record, skipAhead, resumeAt, remaining]

end ExprReader

/-! ## Where recovery leads -/

/-- The tokens before the one for the end, or all of them when there is none. -/
def beforeEnd (tokens : List Token) : List Token :=
  tokens.takeWhile (·.kind ≠ .endOfInput)

/-- The tokens before the end that start a statement. -/
def startsIn (tokens : List Token) : List Token :=
  (beforeEnd tokens).filter (·.kind.startsStatement)

/-- The tokens behind position `c` that start a statement, up to the end as it is seen
from `c`. -/
def laterStarts (tokens : List Token) (c : Nat) : List Token :=
  ((beforeEnd (tokens.drop c)).drop 1).filter (·.kind.startsStatement)

theorem isStop_iff {kind : TokenKind} :
    kind.isStop = true ↔ kind = .endOfInput ∨ kind.startsStatement = true := by
  simp [TokenKind.isStop]

theorem drop_recoverySkip_cons {t : Token} (h : t.kind ≠ .endOfInput) (rest : List Token) :
    (t :: rest).drop (recoverySkip (t :: rest)) = rest.dropWhile fun u => !u.kind.isStop := by
  let passes := fun u : Token => !u.kind.isStop
  rw [recoverySkip, if_neg h, Nat.add_comm, List.drop_succ_cons]
  calc rest.drop (rest.takeWhile passes).length =
        (rest.takeWhile passes ++ rest.dropWhile passes).drop (rest.takeWhile passes).length := by
        rw [List.takeWhile_append_dropWhile]
    _ = rest.dropWhile passes := List.drop_left

theorem startsIn_dropWhile (tokens : List Token) :
    startsIn (tokens.dropWhile fun u => !u.kind.isStop) = startsIn tokens := by
  induction tokens with
  | nil => rfl
  | cons t rest ih =>
    cases hstop : t.kind.isStop with
    | true => simp [hstop]
    | false =>
      have hnot : ¬ (t.kind = .endOfInput ∨ t.kind.startsStatement = true) := by
        rw [← isStop_iff, hstop]
        decide
      rw [not_or] at hnot
      rw [List.dropWhile_cons_of_pos (by simp [hstop]), ih]
      simp [startsIn, beforeEnd, hnot.1, hnot.2]

theorem startsIn_drop_recoverySkip (tokens : List Token) (c : Nat) :
    startsIn ((tokens.drop c).drop (recoverySkip (tokens.drop c))) = laterStarts tokens c := by
  rw [laterStarts]
  cases tokens.drop c with
  | nil => rfl
  | cons t rest =>
    by_cases h : t.kind = .endOfInput
    · simp [recoverySkip, h, startsIn, beforeEnd]
    · rw [drop_recoverySkip_cons h, startsIn_dropWhile]
      simp [startsIn, beforeEnd, h]

theorem isStop_of_mem_head?_drop_recoverySkip (tokens : List Token) :
    ∀ t ∈ (tokens.drop (recoverySkip tokens)).head?, t.kind.isStop = true := by
  cases tokens with
  | nil => simp
  | cons t rest =>
    by_cases h : t.kind = .endOfInput
    · simp [recoverySkip, h, TokenKind.isStop]
    · rw [drop_recoverySkip_cons h]
      intro u hu
      have hhead := List.head?_dropWhile_not (fun u : Token => !u.kind.isStop) rest
      rw [Option.mem_def.mp hu] at hhead
      simpa using hhead

/-! ## After the first error -/

namespace ExprReader

/-- A token that starts a statement is refused and stays where it is. -/
theorem readOne_of_startsStatement {r : ExprReader} {t : Token} {rest : List Token}
    (h : r.remaining = t :: rest) (ht : t.kind.startsStatement = true) :
    r.readOne = (.error (.notAnOperand t), r) := by
  have hread : readExpr r.place (t :: rest) = ⟨.error (.notAnOperand t), r.place, t :: rest⟩ := by
    obtain ⟨kind, line, payload⟩ := t
    cases kind <;> first | rfl | cases ht
  simp only [readOne, h, hread]

/-- In front of the end or of a token that starts a statement, no tree is read any more, and
each token that starts a statement is refused once. -/
theorem readRest_of_isStop {r : ExprReader} (h : ∀ t ∈ r.remaining.head?, t.kind.isStop = true) :
    r.readRest.1 = [] ∧
      r.readRest.2.errors = r.errors ++ (startsIn r.remaining).map .notAnOperand := by
  induction hn : r.remaining.length using Nat.strongRecOn generalizing r with
  | ind n ih =>
    cases hr : r.remaining with
    | nil =>
      rw [readRest_of_isAtEnd (by simp [isAtEnd, hr, atEnd])]
      simp [startsIn, beforeEnd]
    | cons t rest =>
      rcases isStop_iff.mp (h t (by simp [hr])) with hend | hstart
      · rw [readRest_of_isAtEnd (by simp [isAtEnd, hr, atEnd, hend])]
        simp [startsIn, beforeEnd, hend]
      · have hend : t.kind ≠ .endOfInput := by
          intro hkind
          rw [hkind] at hstart
          cases hstart
        let next := (r.record (.notAnOperand t)).skipAhead
        have hnext : next.remaining = rest.dropWhile fun u => !u.kind.isStop := by
          rw [← drop_recoverySkip_cons hend, ← hr]
          exact remaining_skipAhead (r.record (.notAnOperand t))
        have hround : r.readRest = next.readRest :=
          readRest_of_error (by simp [isAtEnd, hr, atEnd, hend])
            (readOne_of_startsStatement hr hstart)
        have hlength : next.remaining.length < n := by
          rw [← hn, hnext, hr]
          exact Nat.lt_succ_of_le (List.dropWhile_suffix _).length_le
        have hstop : ∀ u ∈ next.remaining.head?, u.kind.isStop = true := by
          have := isStop_of_mem_head?_drop_recoverySkip (t :: rest)
          rwa [drop_recoverySkip_cons hend, ← hnext] at this
        obtain ⟨htrees, herrors⟩ := ih _ hlength hstop rfl
        refine ⟨by rw [hround, htrees], ?_⟩
        rw [hround, herrors, hnext, startsIn_dropWhile]
        simp [next, record, skipAhead, startsIn, beforeEnd, hend, hstart]

/-- Trees that a reader reads one after another before it gets to `stop`. -/
inductive ReadsTrees : ExprReader → List Expr → ExprReader → Prop where
  | nil {r} : ReadsTrees r [] r
  | cons {r next stop tree trees} : r.isAtEnd = false → r.readOne = (.ok tree, next) →
      ReadsTrees next trees stop → ReadsTrees r (tree :: trees) stop

theorem ReadsTrees.readRest {r stop : ExprReader} {trees : List Expr}
    (h : ReadsTrees r trees stop) :
    r.readRest = (trees ++ stop.readRest.1, stop.readRest.2) := by
  induction h with
  | nil => rfl
  | cons hend hone _ ih => rw [readRest_of_ok hend hone, ih, List.cons_append]

theorem ReadsTrees.eq_place {r stop : ExprReader} {trees : List Expr}
    (h : ReadsTrees r trees stop) : stop = { r with place := stop.place } := by
  induction h with
  | nil => rfl
  | cons _ hone _ ih =>
    rw [ih, (readExpr_of_readOne hone).2]

/-- Trees are read until the end or an error. -/
theorem exists_readsTrees (r : ExprReader) :
    ∃ trees stop, r.ReadsTrees trees stop ∧ (stop.isAtEnd = true ∨
      stop.isAtEnd = false ∧ ∃ e failed, stop.readOne = (.error e, failed)) := by
  induction hn : r.remaining.length using Nat.strongRecOn generalizing r with
  | ind n ih =>
    cases hend : r.isAtEnd with
    | true => exact ⟨[], r, .nil, .inl hend⟩
    | false =>
      cases hone : r.readOne with
      | mk result next =>
        cases result with
        | error e => exact ⟨[], r, .nil, .inr ⟨hend, e, next, hone⟩⟩
        | ok tree =>
          have hlength := length_remaining_of_ok hone
          rw [hn] at hlength
          obtain ⟨trees, stop, hreads, hstop⟩ := ih _ hlength next rfl
          exact ⟨tree :: trees, stop, .cons hend hone hreads, hstop⟩

/-- After an error no tree is read any more. -/
theorem readRest_after_error {r failed : ExprReader} {e : SyntaxError}
    (hend : r.isAtEnd = false) (h : r.readOne = (.error e, failed)) :
    r.readRest.1 = [] ∧ r.readRest.2.errors =
      r.errors ++ e :: (laterStarts r.tokens failed.place.position).map .notAnOperand := by
  have hremaining := remaining_skipAhead (failed.record e)
  have hstop : ∀ t ∈ (failed.record e).skipAhead.remaining.head?, t.kind.isStop = true := by
    rw [hremaining]
    exact isStop_of_mem_head?_drop_recoverySkip _
  have hstarts : startsIn (failed.record e).skipAhead.remaining =
      laterStarts failed.tokens failed.place.position := by
    rw [hremaining]
    exact startsIn_drop_recoverySkip failed.tokens failed.place.position
  obtain ⟨htrees, herrors⟩ := readRest_of_isStop hstop
  rw [readRest_of_error hend h, htrees, herrors, hstarts, (readExpr_of_readOne h).2]
  simp [record, skipAhead]

/-- Reading everything gives the trees in front of the first error. That error is recorded, and
after it one error for each token behind the place of the error and before the end that starts
a statement, in their order. -/
theorem readRest_errors (r : ExprReader) :
    ∃ trees stop, r.ReadsTrees trees stop ∧ r.readRest.1 = trees ∧
      (stop.isAtEnd = true ∧ r.readRest.2.errors = r.errors ∨
        stop.isAtEnd = false ∧ ∃ e failed, stop.readOne = (.error e, failed) ∧
          r.readRest.2.errors = r.errors ++ e ::
            (laterStarts r.tokens failed.place.position).map .notAnOperand) := by
  obtain ⟨trees, stop, hreads, hend | ⟨hend, e, failed, hone⟩⟩ := exists_readsTrees r
  · refine ⟨trees, stop, hreads, ?_, .inl ⟨hend, ?_⟩⟩
    · rw [hreads.readRest, readRest_of_isAtEnd hend, List.append_nil]
    · rw [hreads.readRest, readRest_of_isAtEnd hend, hreads.eq_place]
  · obtain ⟨htrees, herrors⟩ := readRest_after_error hend hone
    refine ⟨trees, stop, hreads, ?_, .inr ⟨hend, e, failed, hone, ?_⟩⟩
    · rw [hreads.readRest, htrees, List.append_nil]
    · rw [hreads.readRest, herrors, hreads.eq_place]

end ExprReader

end LoxReader
