import LoxReader.Proofs.Expr.Recovery
import Mathlib.Order.Bounds.Basic
import Mathlib.Order.Monotone.Basic

/-! # Where recovery resumes

Recovery rests at the end, and from any other position it goes on to the nearest stop. So a later
start never leads to an earlier position, and repeated recovery visits the tokens that start a
statement one by one until it comes to rest. -/

namespace LoxReader

variable {tokens : List Token} {n p : Nat}

/-! ## Positions -/

/-- Whether the token at a position is the one for the end. -/
def endAt (tokens : List Token) (p : Nat) : Bool :=
  tokens[p]?.any (·.kind = .endOfInput)

/-- Whether the token at a position starts a statement. -/
def startAt (tokens : List Token) (p : Nat) : Bool :=
  tokens[p]?.any (·.kind.startsStatement)

/-- The positions that are left by no recovery. -/
def Rests (tokens : List Token) (p : Nat) : Prop :=
  tokens.length ≤ p ∨ endAt tokens p = true

/-- The first position from `n` on at which recovery rests. -/
def restFrom (tokens : List Token) (n : Nat) : Nat :=
  n + (beforeEnd (tokens.drop n)).length

/-- The positions behind `n` of the tokens that start a statement, up to the end as it is seen from
`n`. -/
def startsBehind (tokens : List Token) (n : Nat) : List Nat :=
  (List.range' (n + 1) (restFrom tokens n - (n + 1))).filter (startAt tokens)

theorem any_isStop_iff :
    tokens[p]?.any (·.kind.isStop) = true ↔ endAt tokens p = true ∨ startAt tokens p = true := by
  rw [endAt, startAt]
  cases tokens[p]? with
  | none => simp
  | some t => simp [isStop_iff]

theorem mem_startsBehind :
    p ∈ startsBehind tokens n ↔ n < p ∧ p < restFrom tokens n ∧ startAt tokens p = true := by
  rw [startsBehind, List.mem_filter, List.mem_range'_1, ← and_assoc]
  apply and_congr_left'
  omega

theorem pairwise_startsBehind (tokens : List Token) (n : Nat) :
    (startsBehind tokens n).Pairwise (· < ·) :=
  (List.pairwise_lt_range' 1).filter _

/-! ## The first token of a sort -/

/-- The tokens that are passed end at the first one that is not, or with the list. -/
theorem isLeast_length_takeWhile (passes : Token → Bool) (tokens : List Token) :
    IsLeast {p | tokens.length ≤ p ∨ tokens[p]?.any (fun t => !passes t) = true}
      (tokens.takeWhile passes).length := by
  induction tokens with
  | nil => exact ⟨.inl (Nat.le_refl 0), fun _ _ => Nat.zero_le _⟩
  | cons t rest ih =>
    by_cases ht : passes t = true
    · rw [List.takeWhile_cons_of_pos ht]
      constructor
      · simpa using ih.1
      · intro p hp
        cases p with
        | zero => simp [ht] at hp
        | succ p => exact Nat.succ_le_succ (ih.2 (by simpa using hp))
    · rw [List.takeWhile_cons_of_neg ht]
      exact ⟨.inr (by simpa using ht), fun _ _ => Nat.zero_le _⟩

/-- The same from a position on. -/
theorem isLeast_add_length_takeWhile (passes : Token → Bool) (tokens : List Token) (n : Nat) :
    IsLeast {p | n ≤ p ∧ (tokens.length ≤ p ∨ tokens[p]?.any (fun t => !passes t) = true)}
      (n + ((tokens.drop n).takeWhile passes).length) := by
  obtain ⟨hmem, hleast⟩ := isLeast_length_takeWhile passes (tokens.drop n)
  constructor
  · refine ⟨Nat.le_add_right n _, ?_⟩
    rw [Set.mem_ofPred_eq, List.getElem?_drop, List.length_drop] at hmem
    exact hmem.imp_left (by omega)
  · rintro p ⟨hn, hp⟩
    obtain ⟨i, rfl⟩ := Nat.exists_eq_add_of_le hn
    apply Nat.add_le_add_left
    apply hleast
    rw [Set.mem_ofPred_eq, List.getElem?_drop, List.length_drop]
    exact hp.imp_left (by omega)

theorem isLeast_restFrom (tokens : List Token) (n : Nat) :
    IsLeast {p | n ≤ p ∧ Rests tokens p} (restFrom tokens n) := by
  have h := isLeast_add_length_takeWhile (·.kind ≠ .endOfInput) tokens n
  simpa only [Rests, endAt, restFrom, beforeEnd, ne_eq, decide_not, Bool.not_not] using h

/-! ## One recovery -/

theorem resumeAt_of_rests (h : Rests tokens n) : resumeAt tokens n = n := by
  rw [resumeAt]
  cases hdrop : tokens.drop n with
  | nil => rfl
  | cons t rest =>
    have hget : tokens[n]? = some t := by
      rw [← List.head?_drop, hdrop]
      rfl
    have hend : t.kind = .endOfInput := by
      rcases h with hlength | hend
      · rw [List.drop_eq_nil_of_le hlength] at hdrop
        cases hdrop
      · simpa [endAt, hget] using hend
    rw [recoverySkip, if_pos hend, Nat.add_zero]

/-- Where it does not rest, recovery leads to the first stop behind, or to the end of the list. -/
theorem isLeast_resumeAt (h : ¬ Rests tokens n) :
    IsLeast {p | n < p ∧ (tokens.length ≤ p ∨ endAt tokens p = true ∨ startAt tokens p = true)}
      (resumeAt tokens n) := by
  rw [Rests, not_or, Nat.not_le] at h
  obtain ⟨hlength, hend⟩ := h
  have hkind : tokens[n].kind ≠ .endOfInput := by
    simpa [endAt, List.getElem?_eq_getElem hlength] using hend
  have heq : resumeAt tokens n =
      n + 1 + ((tokens.drop (n + 1)).takeWhile fun u => !u.kind.isStop).length := by
    rw [resumeAt, List.drop_eq_getElem_cons hlength, recoverySkip, if_neg hkind, Nat.add_assoc]
  have hleast := isLeast_add_length_takeWhile (fun u => !u.kind.isStop) tokens (n + 1)
  simp only [Bool.not_not, any_isStop_iff, ← heq] at hleast
  exact hleast

theorem le_resumeAt (tokens : List Token) (n : Nat) : n ≤ resumeAt tokens n :=
  Nat.le_add_right n _

/-- Recovery only ends at a stop or at the end of the list. -/
theorem resumeAt_reaches (tokens : List Token) (n : Nat) :
    tokens.length ≤ resumeAt tokens n ∨ endAt tokens (resumeAt tokens n) = true ∨
      startAt tokens (resumeAt tokens n) = true := by
  by_cases h : Rests tokens n
  · rw [resumeAt_of_rests h]
    exact h.imp_right .inl
  · exact (isLeast_resumeAt h).1.2

theorem resumeAt_eq_self_iff : resumeAt tokens n = n ↔ Rests tokens n := by
  refine ⟨fun heq => ?_, resumeAt_of_rests⟩
  by_contra h
  exact absurd heq (isLeast_resumeAt h).1.1.ne'

/-- A position that recovery leaves leads to the nearest stop, or to the end of the list when there
is none behind it. -/
theorem resumeAt_cases (h : resumeAt tokens n ≠ n) :
    IsLeast {p | n < p ∧ (endAt tokens p = true ∨ startAt tokens p = true)} (resumeAt tokens n) ∨
      (∀ p, n < p → ¬ (endAt tokens p = true ∨ startAt tokens p = true)) ∧
        resumeAt tokens n = tokens.length := by
  have hleaves : ¬ Rests tokens n := fun hrests => h (resumeAt_of_rests hrests)
  obtain ⟨⟨hlt, hreach⟩, hleast⟩ := isLeast_resumeAt hleaves
  by_cases hstop : endAt tokens (resumeAt tokens n) = true ∨
      startAt tokens (resumeAt tokens n) = true
  · exact .inl ⟨⟨hlt, hstop⟩, fun p hp => hleast ⟨hp.1, .inr hp.2⟩⟩
  · right
    have hlength : n < tokens.length := by
      rw [Rests, not_or, Nat.not_le] at hleaves
      exact hleaves.1
    have heq : resumeAt tokens n = tokens.length :=
      Nat.le_antisymm (hleast ⟨hlength, .inl (Nat.le_refl _)⟩) (hreach.resolve_right hstop)
    refine ⟨fun p hp hstop => ?_, heq⟩
    -- A stop lies within the list, but it would have been found.
    have hle := hleast ⟨hp, .inr hstop⟩
    rw [heq, ← List.getElem?_eq_none_iff] at hle
    simp [endAt, startAt, hle] at hstop

/-- A later start does not lead to an earlier position. -/
theorem monotone_resumeAt (tokens : List Token) : Monotone (resumeAt tokens) := by
  apply monotone_nat_of_le_succ
  intro n
  have hnext := le_resumeAt tokens (n + 1)
  by_cases h : Rests tokens n
  · rw [resumeAt_of_rests h]
    omega
  · exact (isLeast_resumeAt h).2 ⟨hnext, resumeAt_reaches tokens (n + 1)⟩

/-! ## Repeated recovery -/

theorem restFrom_of_rests (h : Rests tokens n) : restFrom tokens n = n :=
  Nat.le_antisymm ((isLeast_restFrom tokens n).2 ⟨Nat.le_refl n, h⟩) (isLeast_restFrom tokens n).1.1

theorem startsBehind_of_rests (h : Rests tokens n) : startsBehind tokens n = [] := by
  rw [startsBehind, restFrom_of_rests h, Nat.sub_eq_zero_of_le (Nat.le_succ n)]
  rfl

theorem resumeAt_le_restFrom (tokens : List Token) (n : Nat) :
    resumeAt tokens n ≤ restFrom tokens n := by
  obtain ⟨hle, hrests⟩ := (isLeast_restFrom tokens n).1
  by_cases h : Rests tokens n
  · rw [resumeAt_of_rests h]
    exact hle
  · have hne : n ≠ restFrom tokens n := by
      intro heq
      rw [← heq] at hrests
      exact h hrests
    exact (isLeast_resumeAt h).2 ⟨Nat.lt_of_le_of_ne hle hne, hrests.imp_right .inl⟩

/-- No token that starts a statement is passed over. -/
theorem resumeAt_le_of_startAt (hn : n < p) (hp : p < restFrom tokens n)
    (hstart : startAt tokens p = true) : resumeAt tokens n ≤ p := by
  by_cases h : Rests tokens n
  · rw [restFrom_of_rests h] at hp
    omega
  · exact (isLeast_resumeAt h).2 ⟨hn, .inr (.inr hstart)⟩

/-- The first accepted number of a range is the head of those that are accepted. -/
theorem filter_range'_eq_cons {accepts : Nat → Bool} {low high : Nat} (hlow : low ≤ p)
    (hhigh : p < high) (hp : accepts p = true) (hbefore : ∀ q, low ≤ q → q < p → accepts q = false) :
    (List.range' low (high - low)).filter accepts =
      p :: (List.range' (p + 1) (high - (p + 1))).filter accepts := by
  have hsplit : List.range' low (p - low) ++ List.range' p (high - p) =
      List.range' low (high - low) := by
    have happend := List.range'_append_1 (s := low) (m := p - low) (n := high - p)
    have hstart : low + (p - low) = p := by omega
    have hlength : p - low + (high - p) = high - low := by omega
    rwa [hstart, hlength] at happend
  have hnone : (List.range' low (p - low)).filter accepts = [] := by
    rw [List.filter_eq_nil_iff]
    intro q hq
    rw [List.mem_range'_1] at hq
    rw [hbefore q (by omega) (by omega)]
    exact Bool.false_ne_true
  have hcons : List.range' p (high - p) = p :: List.range' (p + 1) (high - (p + 1)) := by
    have hlength : high - p = high - (p + 1) + 1 := by omega
    rw [hlength, List.range'_succ]
  rw [← hsplit, List.filter_append, hnone, List.nil_append, hcons, List.filter_cons_of_pos hp]

/-- One recovery takes the first of the starts that are left, or comes to rest when there is
none. -/
theorem startsBehind_cases (tokens : List Token) (n : Nat) :
    startsBehind tokens n = [] ∧ resumeAt tokens n = restFrom tokens n ∨
      startsBehind tokens n = resumeAt tokens n :: startsBehind tokens (resumeAt tokens n) ∧
        restFrom tokens (resumeAt tokens n) = restFrom tokens n := by
  have hrest := isLeast_restFrom tokens n
  have hle := le_resumeAt tokens n
  rcases Nat.eq_or_lt_of_le (resumeAt_le_restFrom tokens n) with heq | hlt
  · refine .inl ⟨?_, heq⟩
    rw [List.eq_nil_iff_forall_not_mem]
    intro p hmem
    rw [mem_startsBehind] at hmem
    have hfound := resumeAt_le_of_startAt hmem.1 hmem.2.1 hmem.2.2
    omega
  · right
    have hleaves : ¬ Rests tokens (resumeAt tokens n) := fun hrests =>
      Nat.not_lt.mpr (hrest.2 ⟨hle, hrests⟩) hlt
    have hsame : restFrom tokens (resumeAt tokens n) = restFrom tokens n :=
      (isLeast_restFrom tokens _).unique
        ⟨⟨hlt.le, hrest.1.2⟩, fun p hp => hrest.2 ⟨hle.trans hp.1, hp.2⟩⟩
    have hne : n ≠ resumeAt tokens n := by
      intro heq
      rw [← heq] at hsame hleaves
      exact hleaves (resumeAt_eq_self_iff.mp heq.symm)
    have hstart : startAt tokens (resumeAt tokens n) = true := by
      rcases resumeAt_reaches tokens n with hlength | hend | hstart
      · exact absurd (.inl hlength) hleaves
      · exact absurd (.inr hend) hleaves
      · exact hstart
    refine ⟨?_, hsame⟩
    rw [startsBehind, startsBehind, hsame]
    apply filter_range'_eq_cons (Nat.lt_of_le_of_ne hle hne) hlt hstart
    intro p hn hp
    rw [← Bool.not_eq_true]
    intro hfirst
    have hfound := resumeAt_le_of_startAt hn (hp.trans hlt) hfirst
    omega

/-- Repeated recovery visits the starts behind a position in their order, and then rests. -/
theorem iterate_resumeAt (tokens : List Token) (n k : Nat) :
    (resumeAt tokens)^[k + 1] n = (startsBehind tokens n)[k]?.getD (restFrom tokens n) := by
  induction k generalizing n with
  | zero =>
    rcases startsBehind_cases tokens n with ⟨hnone, hrest⟩ | ⟨hfirst, -⟩
    · rw [hnone]
      exact hrest
    · rw [hfirst]
      rfl
  | succ k ih =>
    rw [Function.iterate_succ_apply, ih]
    rcases startsBehind_cases tokens n with ⟨hnone, hrest⟩ | ⟨hfirst, hsame⟩
    · have hrests := (isLeast_restFrom tokens n).1.2
      rw [hnone, hrest, startsBehind_of_rests hrests, restFrom_of_rests hrests]
      rfl
    · rw [hfirst, hsame, List.getElem?_cons_succ]

/-- Recovery stays where it is at the end of the list and at the token for the end. From any other
position it leads to the nearest stop, or to the end of the list when no stop is behind. A later
start does not lead to an earlier position, and repeated recovery visits every token that starts a
statement up to the first token for the end once, in their order, and then stays there. -/
theorem resumeAt_visits_starts (tokens : List Token) :
    (∀ n, resumeAt tokens n = n ↔ tokens.length ≤ n ∨ endAt tokens n = true) ∧
      (∀ n, resumeAt tokens n ≠ n →
        IsLeast {p | n < p ∧ (endAt tokens p = true ∨ startAt tokens p = true)}
            (resumeAt tokens n) ∨
          (∀ p, n < p → ¬ (endAt tokens p = true ∨ startAt tokens p = true)) ∧
            resumeAt tokens n = tokens.length) ∧
      Monotone (resumeAt tokens) ∧
      ∀ n, ∃ (starts : List Nat) (stop : Nat),
        IsLeast {p | n ≤ p ∧ (tokens.length ≤ p ∨ endAt tokens p = true)} stop ∧
        starts.Pairwise (· < ·) ∧
        (∀ p, p ∈ starts ↔ n < p ∧ p < stop ∧ startAt tokens p = true) ∧
        ∀ k, (resumeAt tokens)^[k + 1] n = starts[k]?.getD stop := by
  refine ⟨fun n => resumeAt_eq_self_iff, fun n => resumeAt_cases, monotone_resumeAt tokens, ?_⟩
  intro n
  exact ⟨startsBehind tokens n, restFrom tokens n, isLeast_restFrom tokens n,
    pairwise_startsBehind tokens n, fun p => mem_startsBehind, iterate_resumeAt tokens n⟩

end LoxReader
