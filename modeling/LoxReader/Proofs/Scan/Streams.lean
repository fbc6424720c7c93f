import LoxReader.Proofs.Scan.Dissection

/-! # Streams over one source

Streams share the cursor and the errors of their source, and each of them starts the scan over
when it is first advanced. Whatever their number and the order in which they are advanced, since
the scan was last started over they have together given the tokens of the source from the front,
each once, and the shared state is the one that a single stream would have left. -/

namespace LoxReader

/-! ## The next token of a run -/

namespace Cursor

theorem step_of_rest_nil {c : Cursor} (h : c.rest = []) : c.step = (none, c) := by
  obtain ⟨rest, position, line⟩ := c
  subst h
  simp [step, skipGap, splitGap, pass, Text.newlines]

theorem nextToken_of_step_none {c stop : Cursor} (h : c.step = (none, stop)) :
    c.nextToken = ([], none, stop) := by
  rw [nextToken]
  split <;> simp_all

theorem nextToken_of_step_ok {c next : Cursor} {t : Token}
    (h : c.step = (some (.ok t), next)) :
    c.nextToken = ([], some t, next) := by
  rw [nextToken]
  split <;> simp_all

theorem nextToken_of_step_error {c next : Cursor} {e : LexicalError}
    (h : c.step = (some (.error e), next)) :
    c.nextToken = (e :: next.nextToken.1, next.nextToken.2) := by
  rw [nextToken]
  split <;> simp_all

/-- A run begins with the errors in front of the next token and with that token. -/
theorem run_of_nextToken_some {c next : Cursor} {errors : List LexicalError} {t : Token}
    (h : c.nextToken = (errors, some t, next)) :
    c.run = (errors.map .error ++ .ok t :: next.run.1, next.run.2) := by
  fun_induction nextToken c generalizing errors with
  | case1 => simp at h
  | case2 c token next' hstep =>
    simp only [Prod.mk.injEq, Option.some.injEq] at h
    obtain ⟨rfl, rfl, rfl⟩ := h
    exact run_of_step_some hstep
  | case3 c e next' hstep errors' token stop hnext ih =>
    simp only [Prod.mk.injEq] at h
    obtain ⟨rfl, rfl, rfl⟩ := h
    rw [run_of_step_some hstep, ih hnext]
    simp

/-- Without a next token a run has errors only. -/
theorem run_of_nextToken_none {c stop : Cursor} {errors : List LexicalError}
    (h : c.nextToken = (errors, none, stop)) : c.run = (errors.map .error, stop) := by
  fun_induction nextToken c generalizing errors with
  | case1 c stop' hstep =>
    simp only [Prod.mk.injEq, true_and] at h
    obtain ⟨rfl, rfl⟩ := h
    exact run_of_step_none hstep
  | case2 => simp at h
  | case3 c e next' hstep errors' token stop' hnext ih =>
    simp only [Prod.mk.injEq] at h
    obtain ⟨rfl, rfl, rfl⟩ := h
    rw [run_of_step_some hstep, ih hnext]
    simp

end Cursor

/-! ## One stream -/

namespace SharedScan

/-- A source that no stream has read from. -/
def untouched (source : List Char) : SharedScan where
  source := source

/-- What a stream gives and leaves behind when it is the only one and is advanced `n` times. -/
def sequential (source : List Char) : Nat → List Token × StreamState × SharedScan
  | 0 => ([], .fresh, untouched source)
  | n + 1 =>
    let (given, state, s) := sequential source n
    let (token, state, s) := s.next state
    (given ++ token.toList, state, s)

variable {source : List Char} {s next : SharedScan} {t : Token}

theorem advanceToEnd_of_advance_some (h : s.advance = (some t, next)) :
    s.advanceToEnd = (t :: next.advanceToEnd.1, next.advanceToEnd.2) := by
  rcases hnext : s.cursor.nextToken with ⟨errors, token, cursor⟩
  simp only [advance, hnext, Prod.mk.injEq] at h
  obtain ⟨rfl, rfl⟩ := h
  simp [advanceToEnd, Cursor.run_of_nextToken_some hnext]

theorem advanceToEnd_of_advance_none (h : s.advance = (none, next)) :
    s.advanceToEnd = ([.endOn next.cursor.line], next) := by
  rcases hnext : s.cursor.nextToken with ⟨errors, token, cursor⟩
  simp only [advance, hnext, Prod.mk.injEq] at h
  obtain ⟨rfl, rfl⟩ := h
  simp [advanceToEnd, Cursor.run_of_nextToken_none hnext]

theorem next_of_advance_some {state : StreamState} (hstate : state ≠ .finished)
    (h : (s.resume state).advance = (some t, next)) :
    SharedScan.next state s = (some t, .running, next) := by
  simp [SharedScan.next, hstate, h]

theorem next_of_advance_none {state : StreamState} (hstate : state ≠ .finished)
    (h : (s.resume state).advance = (none, next)) :
    SharedScan.next state s = (some (.endOn next.cursor.line), .finished, next) := by
  simp [SharedScan.next, hstate, h]

/-- Draining a stream is advancing it until it gives nothing any more. -/
theorem drain_of_next_some {state state' : StreamState}
    (h : SharedScan.next state s = (some t, state', next)) :
    s.drain state = (t :: (next.drain state').1, (next.drain state').2) := by
  by_cases hstate : state = .finished
  · simp [SharedScan.next, hstate] at h
  · rcases hadvance : (s.resume state).advance with ⟨token, s'⟩
    cases token with
    | some u =>
      rw [next_of_advance_some hstate hadvance] at h
      simp only [Prod.mk.injEq, Option.some.injEq] at h
      obtain ⟨rfl, rfl, rfl⟩ := h
      have hresume : s'.resume .running = s' := rfl
      simp [drain, hstate, advanceToEnd_of_advance_some hadvance, hresume]
    | none =>
      rw [next_of_advance_none hstate hadvance] at h
      simp only [Prod.mk.injEq, Option.some.injEq] at h
      obtain ⟨rfl, rfl, rfl⟩ := h
      simp [drain, hstate, advanceToEnd_of_advance_none hadvance]

theorem allTokens_length_pos (source : List Char) : 0 < (scan source).allTokens.length := by
  simp [Scan.allTokens]

/-- The shared state that a scan of the whole source leaves. -/
def exhausted (source : List Char) : SharedScan :=
  (untouched source).advanceToEnd.2

theorem advance_exhausted (source : List Char) :
    (exhausted source).advance = (none, exhausted source) := by
  have hrest : (exhausted source).cursor.rest = [] := by
    obtain ⟨pieces, last, hpieces⟩ := exists_dissects source
    have hrun := hpieces.run (.atStart source) rfl
    simp only [exhausted, advanceToEnd, untouched, hrun]
    rfl
  have hnext := Cursor.nextToken_of_step_none (Cursor.step_of_rest_nil hrest)
  simp [advance, hnext]

/-- In front of token `n` a stream that is not done gives that token. It is done then if it was
the last one, the one for the end. -/
theorem next_of_left {n : Nat} {state : StreamState} (hn : n < (scan source).allTokens.length)
    (hstate : state ≠ .finished)
    (hleft : (s.resume state).advanceToEnd = ((scan source).allTokens.drop n, exhausted source)) :
    ∃ t state' s', (scan source).allTokens[n]? = some t ∧ s.next state = (some t, state', s') ∧
      (n + 1 < (scan source).allTokens.length ∧ state' = .running ∧ s'.source = s.source ∧
          s'.advanceToEnd = ((scan source).allTokens.drop (n + 1), exhausted source) ∨
        n + 1 = (scan source).allTokens.length ∧ state' = .finished ∧ s' = exhausted source) := by
  have hdrop : (scan source).allTokens[n]? = ((scan source).allTokens.drop n).head? :=
    List.head?_drop.symm
  rcases hadvance : (s.resume state).advance with ⟨token, s'⟩
  cases token with
  | none =>
    have hnone := advanceToEnd_of_advance_none hadvance
    rw [hleft, Prod.mk.injEq] at hnone
    obtain ⟨hend, hfinal⟩ := hnone
    have hlength := congrArg List.length hend
    simp only [List.length_drop, List.length_singleton] at hlength
    refine ⟨_, _, _, ?_, next_of_advance_none hstate hadvance, .inr ⟨by omega, rfl, hfinal.symm⟩⟩
    rw [hdrop, hend]
    rfl
  | some t =>
    have hsome := advanceToEnd_of_advance_some hadvance
    rw [hleft, Prod.mk.injEq] at hsome
    obtain ⟨hhead, hfinal⟩ := hsome
    have htail : s'.advanceToEnd.1 = (scan source).allTokens.drop (n + 1) := by
      rw [← List.tail_drop, hhead]
      rfl
    have hne : s'.advanceToEnd.1 ≠ [] := by simp [advanceToEnd]
    refine ⟨t, .running, s', ?_, next_of_advance_some hstate hadvance, .inl ⟨?_, rfl, ?_, ?_⟩⟩
    · rw [hdrop, hhead]
      rfl
    · rw [htail] at hne
      simpa using hne
    · have hsame : s'.source = (s.resume state).source := congrArg (·.2.source) hadvance.symm
      rw [hsame]
      cases state <;> rfl
    · exact Prod.ext htail hfinal.symm

theorem ne_finished_of_eq_ite {n : Nat} {state : StreamState}
    (h : state = if n = 0 then .fresh else .running) : state ≠ .finished := by
  rw [h]
  split <;> simp

theorem sequential_of_lt {n : Nat} (h : n < (scan source).allTokens.length) :
    ∃ state s, sequential source n = ((scan source).allTokens.take n, state, s) ∧
      s.source = source ∧ state = (if n = 0 then .fresh else .running) ∧
      (s.resume state).advanceToEnd = ((scan source).allTokens.drop n, exhausted source) := by
  induction n with
  | zero => exact ⟨.fresh, untouched source, by simp [sequential], rfl, rfl, rfl⟩
  | succ n ih =>
    obtain ⟨state, s, hsequential, hsource, hstate, hleft⟩ := ih (Nat.lt_of_succ_lt h)
    have hne := ne_finished_of_eq_ite hstate
    obtain ⟨t, state', s', hget, hnext, ⟨-, rfl, hsource', hleft'⟩ | ⟨hlast, -⟩⟩ :=
      next_of_left (Nat.lt_of_succ_lt h) hne hleft
    · refine ⟨.running, s', ?_, hsource'.trans hsource, by simp, hleft'⟩
      simp [sequential, hsequential, hnext, List.take_add_one, hget]
    · omega

theorem sequential_length (source : List Char) :
    sequential source (scan source).allTokens.length =
      ((scan source).allTokens, .finished, exhausted source) := by
  obtain ⟨n, hn⟩ : ∃ n, (scan source).allTokens.length = n + 1 := by
    simp [Scan.allTokens]
  have hlt : n < (scan source).allTokens.length := by omega
  obtain ⟨state, s, hsequential, -, hstate, hleft⟩ := sequential_of_lt hlt
  have hne := ne_finished_of_eq_ite hstate
  obtain ⟨t, state', s', hget, hnext, ⟨hmore, -⟩ | ⟨-, rfl, rfl⟩⟩ := next_of_left hlt hne hleft
  · omega
  · have htake : (scan source).allTokens.take n ++ [t] = (scan source).allTokens := by
      have hfull := List.take_length (l := (scan source).allTokens)
      rwa [hn, List.take_add_one, hget] at hfull
    rw [hn]
    simp [sequential, hsequential, hnext, htake]

/-! ## What streams have given -/

/-- Tokens that streams have given since the scan of a source was started over, with the shared
state that they leave: the state of a single stream that has given them. Behind the end, other
streams give the end again. -/
inductive Stands (source : List Char) : List Token → SharedScan → Prop where
  | within {n} : n < (scan source).allTokens.length →
      Stands source ((scan source).allTokens.take n) (sequential source n).2.2
  | stopped (k : Nat) :
      Stands source ((scan source).allTokens ++ List.replicate k (.endOn (scan source).stop.line))
        (exhausted source)

theorem stands_allTokens (source : List Char) :
    Stands source (scan source).allTokens (exhausted source) := by
  have hstopped : Stands source _ _ := .stopped 0
  simpa using hstopped

theorem Stands.source_eq {given : List Token} (h : Stands source given s) : s.source = source := by
  cases h with
  | within hn =>
    obtain ⟨state, s, hsequential, hsource, -⟩ := sequential_of_lt hn
    rw [hsequential]
    exact hsource
  | stopped => rfl

/-- The last of all tokens is the only one for the end. -/
theorem kind_eq_endOfInput_iff {n : Nat} (hget : (scan source).allTokens[n]? = some t) :
    t.kind = .endOfInput ↔ n + 1 = (scan source).allTokens.length := by
  simp only [Scan.allTokens, List.length_append, List.length_singleton] at hget ⊢
  by_cases hn : n < (scan source).tokens.length
  · rw [List.getElem?_append_left hn] at hget
    have hkind := ne_endOfInput_of_mem_scan (List.mem_of_getElem? hget)
    simp only [hkind, false_iff]
    omega
  · rw [List.getElem?_append_right (by omega)] at hget
    obtain ⟨hzero, rfl⟩ : n - (scan source).tokens.length = 0 ∧ Token.endOn _ = t := by
      simpa [List.getElem?_singleton] using hget
    simp only [Token.endOn, true_iff]
    omega

/-- The single stream gives one more token. -/
theorem stands_next_sequential {n : Nat} {state : StreamState}
    (hn : n < (scan source).allTokens.length)
    (hsequential : sequential source n = ((scan source).allTokens.take n, state, s)) :
    ∃ t state' s', s.next state = (some t, state', s') ∧
      Stands source ((scan source).allTokens.take n ++ [t]) s' ∧
      state' ≠ .fresh ∧ (state' = .finished ↔ t.kind = .endOfInput) := by
  obtain ⟨state₀, s₀, hsequential₀, -, hstate, hleft⟩ := sequential_of_lt hn
  rw [hsequential₀, Prod.mk.injEq, Prod.mk.injEq] at hsequential
  obtain ⟨-, rfl, rfl⟩ := hsequential
  have hne := ne_finished_of_eq_ite hstate
  obtain ⟨t, state', s', hget, hnext, hcases⟩ := next_of_left hn hne hleft
  have htake : (scan source).allTokens.take n ++ [t] = (scan source).allTokens.take (n + 1) := by
    rw [List.take_add_one, hget]
    rfl
  refine ⟨t, state', s', hnext, ?_⟩
  rw [htake, kind_eq_endOfInput_iff hget]
  rcases hcases with ⟨hmore, rfl, -⟩ | ⟨hlast, rfl, rfl⟩
  · have hs' : s' = (sequential source (n + 1)).2.2 := by simp [sequential, hsequential₀, hnext]
    rw [hs']
    exact ⟨.within hmore, by simp, by simp [hmore.ne]⟩
  · rw [hlast, List.take_length]
    exact ⟨stands_allTokens source, by simp, by simp⟩

theorem Stands.next_running {given : List Token} (h : Stands source given s) (hne : given ≠ []) :
    ∃ t state' s', s.next .running = (some t, state', s') ∧ Stands source (given ++ [t]) s' ∧
      state' ≠ .fresh ∧ (state' = .finished ↔ t.kind = .endOfInput) := by
  cases h with
  | @within n hn =>
    have hpos : n ≠ 0 := by
      rintro rfl
      exact hne rfl
    obtain ⟨state, s, hsequential, -, hstate, -⟩ := sequential_of_lt hn
    rw [if_neg hpos] at hstate
    subst hstate
    rw [hsequential]
    exact stands_next_sequential hn hsequential
  | stopped k =>
    -- Nothing is left, so the end is given once more.
    have hnext : (exhausted source).next .running = _ :=
      next_of_advance_none (by simp) (advance_exhausted source)
    refine ⟨_, _, _, hnext, ?_, by simp, by simp [Token.endOn]⟩
    have hmore : Stands source _ _ := .stopped (k + 1)
    rwa [List.replicate_succ', ← List.append_assoc] at hmore

/-- A stream that is first advanced starts the scan over. -/
theorem stands_next_fresh (hsource : s.source = source) :
    ∃ t state' s', s.next .fresh = (some t, state', s') ∧ Stands source [t] s' ∧
      state' ≠ .fresh ∧ (state' = .finished ↔ t.kind = .endOfInput) := by
  have hn := allTokens_length_pos source
  have hnext := stands_next_sequential hn (by rfl)
  subst hsource
  exact hnext

/-- Scanning all tokens starts the scan over and gives what a scan of the source by itself gives. -/
theorem scanTokens_eq (hsource : s.source = source) :
    s.scanTokens = (tokenize (String.ofList source), exhausted source) := by
  subst hsource
  simp only [scanTokens, tokenize, String.toList_ofList]
  rfl

/-- The given tokens without those for the end. -/
def proper (given : List Token) : List Token :=
  given.filter (·.kind ≠ .endOfInput)

/-- Whether a token for the end was given. -/
def hasEnded (given : List Token) : Bool :=
  given.any (·.kind = .endOfInput)

/-- Tokens that are those of the source from the front, each once, and the end only behind all of
them, with the shared state that a single stream has left when it has given the same. -/
structure SharesOneScan (source : List Char) (given : List Token) (s : SharedScan) : Prop where
  in_order : proper given <+: (scan source).tokens
  end_last : hasEnded given = true → proper given = (scan source).tokens
  shared_eq : ∃ state,
    sequential source ((proper given).length + if hasEnded given then 1 else 0) =
      (proper given ++ (if hasEnded given then [.endOn (scan source).stop.line] else []),
        state, s) ∧
    (state = .finished ↔ hasEnded given = true)

theorem proper_eq_self {given : List Token} (h : given <+: (scan source).tokens) :
    proper given = given ∧ hasEnded given = false := by
  have hkind (t : Token) (ht : t ∈ given) : t.kind ≠ .endOfInput :=
    ne_endOfInput_of_mem_scan (h.mem ht)
  constructor
  · exact List.filter_eq_self.mpr fun t ht => by simp [hkind t ht]
  · simpa [hasEnded] using hkind

theorem sharesOneScan_of_stands {given : List Token} {s : SharedScan} (h : Stands source given s) :
    SharesOneScan source given s := by
  cases h with
  | @within n hn =>
    obtain ⟨state, s, hsequential, -, hstate, -⟩ := sequential_of_lt hn
    have hle : n ≤ (scan source).tokens.length := by
      simp only [Scan.allTokens, List.length_append, List.length_singleton] at hn
      omega
    have htake : (scan source).allTokens.take n = (scan source).tokens.take n := by
      rw [Scan.allTokens, List.take_append_of_le_length hle]
    rw [htake] at hsequential ⊢
    obtain ⟨hproper, hended⟩ := proper_eq_self (List.take_prefix n (scan source).tokens)
    refine ⟨?_, by simp [hended], state, ?_, ?_⟩
    · rw [hproper]
      exact List.take_prefix n _
    · simp [hproper, hended, hsequential, Nat.min_eq_left hle]
    · rw [hstate, hended]
      split <;> simp
  | stopped k =>
    obtain ⟨hproper, hended⟩ := proper_eq_self (List.prefix_refl (scan source).tokens)
    have hproper' : proper ((scan source).allTokens ++
        List.replicate k (.endOn (scan source).stop.line)) = (scan source).tokens := by
      have hends : proper (List.replicate (k + 1) (.endOn (scan source).stop.line)) = [] := by
        simp [proper, Token.endOn]
      rw [Scan.allTokens, List.append_assoc, List.singleton_append, ← List.replicate_succ, proper,
        List.filter_append, ← proper, ← proper, hends, hproper, List.append_nil]
    have hended' : hasEnded ((scan source).allTokens ++
        List.replicate k (.endOn (scan source).stop.line)) = true := by
      simp [hasEnded, Scan.allTokens, Token.endOn]
    refine ⟨?_, fun _ => hproper', .finished, ?_, by simp [hended']⟩
    · exact hproper' ▸ List.prefix_refl _
    · have hlength := sequential_length source
      simp only [Scan.allTokens, List.length_append, List.length_singleton] at hlength
      simp [hproper', hended', hlength]

end SharedScan

/-! ## Any number of streams -/

/-- A source with the streams that have been made for it. -/
structure StreamPool where
  shared : SharedScan
  streams : List StreamState := []

/-- Something done to a source with streams, and what it gave. -/
inductive StreamEvent where
  | created
  | advanced (stream : Nat) (token : Option Token)
  | scanned (result : Except (ScanFailure LexicalError) (List Token))

namespace StreamEvent

/-- The tokens that an event gives, those of a failed scan included. -/
def tokens : StreamEvent → List Token
  | .created => []
  | .advanced _ token => token.toList
  | .scanned (.ok tokens) => tokens
  | .scanned (.error failure) => failure.partialTokens

def isAdvanceOf (i : Nat) : StreamEvent → Bool
  | .advanced j _ => i = j
  | _ => false

/-- Whether an event starts the scan over, given the events before it: a stream does so when it is
first advanced. -/
def restarts (earlier : List StreamEvent) : StreamEvent → Bool
  | .created => false
  | .advanced i _ => !earlier.any (isAdvanceOf i)
  | .scanned _ => true

end StreamEvent

/-- The tokens given since the scan was last started over. The latest event comes first. -/
def givenSinceRestart : List StreamEvent → List Token
  | [] => []
  | e :: earlier =>
    if e.restarts earlier then e.tokens else givenSinceRestart earlier ++ e.tokens

theorem givenSinceRestart_created (earlier : List StreamEvent) :
    givenSinceRestart (.created :: earlier) = givenSinceRestart earlier := by
  simp [givenSinceRestart, StreamEvent.restarts, StreamEvent.tokens]

theorem givenSinceRestart_advanced (i : Nat) (token : Option Token) (earlier : List StreamEvent) :
    givenSinceRestart (.advanced i token :: earlier) =
      if earlier.any (StreamEvent.isAdvanceOf i) then givenSinceRestart earlier ++ token.toList
      else token.toList := by
  cases h : earlier.any (StreamEvent.isAdvanceOf i) <;>
    simp [givenSinceRestart, StreamEvent.restarts, StreamEvent.tokens, h]

namespace StreamPool

open SharedScan

/-- One event of a source with streams. -/
inductive Step : StreamPool → StreamEvent → StreamPool → Prop where
  | create {p} : Step p .created { p with streams := p.streams ++ [.fresh] }
  | advance {p i state token state' s} : p.streams[i]? = some state →
      p.shared.next state = (token, state', s) →
      Step p (.advanced i token) ⟨s, p.streams.set i state'⟩
  | scanTokens {p result s} : p.shared.scanTokens = (result, s) →
      Step p (.scanned result) { p with shared := s }

/-- The events of a source since it was made, the latest first, and what they led to. -/
inductive Run (source : List Char) : List StreamEvent → StreamPool → Prop where
  | start : Run source [] ⟨untouched source, []⟩
  | step {log p e next} : Run source log p → Step p e next → Run source (e :: log) next

/-- The state of a stream, fresh also for one that has not been made yet. -/
def state (p : StreamPool) (i : Nat) : StreamState :=
  p.streams.getD i .fresh

/-- What the events so far say about the shared state and about the state of each stream. -/
structure Consistent (source : List Char) (log : List StreamEvent) (p : StreamPool) : Prop where
  stands : Stands source (givenSinceRestart log) p.shared
  given_ne_nil : ∀ i token, .advanced i token ∈ log → givenSinceRestart log ≠ []
  fresh_iff : ∀ i, p.state i = .fresh ↔ ∀ token, .advanced i token ∉ log
  finished_iff : ∀ i, p.state i = .finished ↔
    ∃ t, .advanced i (some t) ∈ log ∧ t.kind = .endOfInput

variable {source : List Char} {log : List StreamEvent} {p next : StreamPool} {e : StreamEvent}

theorem any_isAdvanceOf {i : Nat} {log : List StreamEvent} :
    log.any (StreamEvent.isAdvanceOf i) = true ↔ ∃ token, .advanced i token ∈ log := by
  rw [List.any_eq_true]
  constructor
  · rintro ⟨e, he, hadvance⟩
    cases e with
    | advanced j token =>
      obtain rfl : i = j := by simpa [StreamEvent.isAdvanceOf] using hadvance
      exact ⟨token, he⟩
    | created | scanned => simp [StreamEvent.isAdvanceOf] at hadvance
  · rintro ⟨token, htoken⟩
    exact ⟨_, htoken, by simp [StreamEvent.isAdvanceOf]⟩

theorem consistent_start (source : List Char) : Consistent source [] ⟨untouched source, []⟩ := by
  refine ⟨?_, by simp, by simp [state], by simp [state]⟩
  have hn := allTokens_length_pos source
  exact .within hn

theorem Consistent.create (h : Consistent source log p) :
    Consistent source (.created :: log) { p with streams := p.streams ++ [.fresh] } := by
  have hgiven := givenSinceRestart_created log
  have hstate (i : Nat) : state { p with streams := p.streams ++ [.fresh] } i = p.state i := by
    simp only [state, List.getD_eq_getElem?_getD, List.getElem?_append]
    grind
  refine ⟨?_, ?_, ?_, ?_⟩
  · rw [hgiven]
    exact h.stands
  · rw [hgiven]
    simpa using h.given_ne_nil
  · simpa [hstate] using h.fresh_iff
  · simpa [hstate] using h.finished_iff

theorem Consistent.scanTokens (h : Consistent source log p)
    {result : Except (ScanFailure LexicalError) (List Token)} {s : SharedScan}
    (hscan : p.shared.scanTokens = (result, s)) :
    Consistent source (.scanned result :: log) { p with shared := s } := by
  rw [scanTokens_eq h.stands.source_eq, Prod.mk.injEq] at hscan
  obtain ⟨rfl, rfl⟩ := hscan
  have hgiven : givenSinceRestart (.scanned (tokenize (String.ofList source)) :: log) =
      (scan source).allTokens := by
    simp only [givenSinceRestart, StreamEvent.restarts, if_true, tokenize, String.toList_ofList]
    split <;> rfl
  refine ⟨?_, ?_, ?_, ?_⟩
  · rw [hgiven]
    exact stands_allTokens source
  · rw [hgiven]
    simp [Scan.allTokens]
  · simpa [state] using h.fresh_iff
  · simpa [state] using h.finished_iff

/-- What advancing a stream does: a finished one gives nothing, any other one gives a token, and it
is finished with the token for the end. -/
structure Advances (source : List Char) (log : List StreamEvent) (i : Nat) (st : StreamState)
    (token : Option Token) (st' : StreamState) (s : SharedScan) : Prop where
  stands : Stands source (givenSinceRestart (.advanced i token :: log)) s
  given_ne_nil : givenSinceRestart (.advanced i token :: log) ≠ []
  ne_fresh : st' ≠ .fresh
  finished_iff : st' = .finished ↔ st = .finished ∨ ∃ t, token = some t ∧ t.kind = .endOfInput
  none_iff : token = none ↔ st = .finished

theorem Consistent.advances (h : Consistent source log p) {i : Nat} {st st' : StreamState}
    {token : Option Token} {s : SharedScan} (hst : p.state i = st)
    (hnext : p.shared.next st = (token, st', s)) : Advances source log i st token st' s := by
  have hearlier : log.any (StreamEvent.isAdvanceOf i) = false ↔ st = .fresh := by
    rw [← hst, h.fresh_iff, Bool.eq_false_iff, ne_eq, any_isAdvanceOf]
    simp
  cases st with
  | fresh =>
    have hgiven (token : Option Token) :
        givenSinceRestart (.advanced i token :: log) = token.toList := by
      simp [givenSinceRestart_advanced, hearlier.mpr rfl]
    obtain ⟨t, st'', s', hnext', hstands, hfresh, hfinished⟩ :=
      stands_next_fresh h.stands.source_eq
    rw [hnext, Prod.mk.injEq, Prod.mk.injEq] at hnext'
    obtain ⟨rfl, rfl, rfl⟩ := hnext'
    refine ⟨?_, ?_, hfresh, by simp [hfinished], by simp⟩
    · rw [hgiven]
      exact hstands
    · simp [hgiven]
  | running =>
    have hany : log.any (StreamEvent.isAdvanceOf i) = true := by
      simpa using mt hearlier.mp
    have hgiven (token : Option Token) : givenSinceRestart (.advanced i token :: log) =
        givenSinceRestart log ++ token.toList := by
      simp [givenSinceRestart_advanced, hany]
    obtain ⟨token', hmem⟩ := any_isAdvanceOf.mp hany
    obtain ⟨t, st'', s', hnext', hstands, hfresh, hfinished⟩ :=
      h.stands.next_running (h.given_ne_nil i token' hmem)
    rw [hnext, Prod.mk.injEq, Prod.mk.injEq] at hnext'
    obtain ⟨rfl, rfl, rfl⟩ := hnext'
    refine ⟨?_, ?_, hfresh, by simp [hfinished], by simp⟩
    · rw [hgiven]
      exact hstands
    · simp [hgiven]
  | finished =>
    have hany : log.any (StreamEvent.isAdvanceOf i) = true := by
      simpa using mt hearlier.mp
    obtain ⟨token', hmem⟩ := any_isAdvanceOf.mp hany
    simp only [SharedScan.next, if_true, Prod.mk.injEq] at hnext
    obtain ⟨rfl, rfl, rfl⟩ := hnext
    have hgiven : givenSinceRestart (.advanced i none :: log) = givenSinceRestart log := by
      simp [givenSinceRestart_advanced, hany]
    refine ⟨?_, ?_, by simp, by simp, by simp⟩
    · rw [hgiven]
      exact h.stands
    · rw [hgiven]
      exact h.given_ne_nil i token' hmem

theorem state_eq {i : Nat} {st : StreamState} (h : p.streams[i]? = some st) : p.state i = st := by
  simp [state, h]

theorem Consistent.advance (h : Consistent source log p) {i : Nat} {st st' : StreamState}
    {token : Option Token} {s : SharedScan} (hst : p.streams[i]? = some st)
    (hnext : p.shared.next st = (token, st', s)) :
    Consistent source (.advanced i token :: log) ⟨s, p.streams.set i st'⟩ := by
  have hadvances := h.advances (state_eq hst) hnext
  have hlength : i < p.streams.length := (List.getElem?_eq_some_iff.mp hst).1
  have hstate (j : Nat) :
      state ⟨s, p.streams.set i st'⟩ j = if i = j then st' else p.state j := by
    simp only [state, List.getD_eq_getElem?_getD, List.getElem?_set]
    grind
  refine ⟨hadvances.stands, fun _ _ _ => hadvances.given_ne_nil, fun j => ?_, fun j => ?_⟩
  · by_cases hj : i = j
    · subst hj
      simp only [hstate, if_true, hadvances.ne_fresh, false_iff, not_forall, not_not]
      exact ⟨token, List.mem_cons_self⟩
    · simp [hstate, hj, h.fresh_iff, Ne.symm hj]
  · by_cases hj : i = j
    · subst hj
      have hfinished := h.finished_iff i
      rw [state_eq hst] at hfinished
      simp only [hstate, if_true, hadvances.finished_iff, hfinished, List.mem_cons,
        StreamEvent.advanced.injEq, true_and]
      grind
    · simp [hstate, hj, h.finished_iff, Ne.symm hj]

theorem Run.consistent (h : Run source log p) : Consistent source log p := by
  induction h with
  | start => exact consistent_start source
  | step _ hstep ih =>
    cases hstep with
    | create => exact ih.create
    | advance hst hnext => exact ih.advance hst hnext
    | scanTokens hscan => exact ih.scanTokens hscan

/-- Whatever streams are made and in whatever order they are advanced, they share one scan. A
stream gives nothing exactly when it has given the end before, making one changes nothing, and
scanning all tokens always gives what the source by itself gives. -/
theorem Run.sharesOneScan (h : Run source log p) :
    SharesOneScan source (givenSinceRestart log) p.shared ∧
    (∀ i token earlier, log = .advanced i token :: earlier →
      (token = none ↔ ∃ t, .advanced i (some t) ∈ earlier ∧ t.kind = .endOfInput)) ∧
    (∀ next, Step p .created next →
      next.shared = p.shared ∧ ∀ i < p.streams.length, next.streams[i]? = p.streams[i]?) ∧
    p.shared.scanTokens.1 = tokenize (String.ofList source) := by
  have hstands := h.consistent.stands
  refine ⟨sharesOneScan_of_stands hstands, ?_, ?_, ?_⟩
  · rintro i token earlier rfl
    cases h with
    | step hrun hstep =>
      cases hstep with
      | advance hst hnext =>
        have hconsistent := hrun.consistent
        rw [(hconsistent.advances (state_eq hst) hnext).none_iff, ← state_eq hst]
        exact hconsistent.finished_iff i
  · intro next hstep
    cases hstep with
    | create => exact ⟨rfl, fun i hi => List.getElem?_append_left hi⟩
  · rw [scanTokens_eq hstands.source_eq]

/-- Two streams over a source with an error. The second one starts the scan over, then both go on
from the same place, the first one gives the end and then nothing more. -/
theorem Run.sharesOneScan_two_streams :
    Run "+@-".toList
      [.advanced 1 (some ⟨.endOfInput, 1, none⟩), .advanced 0 none,
        .advanced 0 (some ⟨.endOfInput, 1, none⟩), .advanced 0 (some ⟨.minus, 1, none⟩),
        .advanced 1 (some ⟨.plus, 1, none⟩), .advanced 0 (some ⟨.plus, 1, none⟩), .created,
        .created]
      ⟨⟨"+@-".toList, ⟨[], 3, 1⟩, [.unknownCharacter '@' 1]⟩, [.finished, .finished]⟩ ∧
    SharesOneScan "+@-".toList
      [⟨.plus, 1, none⟩, ⟨.minus, 1, none⟩, ⟨.endOfInput, 1, none⟩, ⟨.endOfInput, 1, none⟩]
      ⟨"+@-".toList, ⟨[], 3, 1⟩, [.unknownCharacter '@' 1]⟩ := by
  have hplus : (untouched "+@-".toList).next .fresh =
      (some ⟨.plus, 1, none⟩, .running, ⟨"+@-".toList, ⟨"@-".toList, 1, 1⟩, []⟩) := by
    cbv
  have hagain : SharedScan.next .fresh ⟨"+@-".toList, ⟨"@-".toList, 1, 1⟩, []⟩ =
      (some ⟨.plus, 1, none⟩, .running, ⟨"+@-".toList, ⟨"@-".toList, 1, 1⟩, []⟩) := by
    cbv
  have hminus : SharedScan.next .running ⟨"+@-".toList, ⟨"@-".toList, 1, 1⟩, []⟩ =
      (some ⟨.minus, 1, none⟩, .running,
        ⟨"+@-".toList, ⟨[], 3, 1⟩, [.unknownCharacter '@' 1]⟩) := by
    cbv
  have hend : SharedScan.next .running
      ⟨"+@-".toList, ⟨[], 3, 1⟩, [.unknownCharacter '@' 1]⟩ =
      (some ⟨.endOfInput, 1, none⟩, .finished,
        ⟨"+@-".toList, ⟨[], 3, 1⟩, [.unknownCharacter '@' 1]⟩) := by
    cbv
  have hmade : Run "+@-".toList [.created, .created]
      ⟨untouched "+@-".toList, [.fresh, .fresh]⟩ := .step (.step .start .create) .create
  have hrestarted :=
    (hmade.step (.advance (i := 0) rfl hplus)).step (.advance (i := 1) rfl hagain)
  have hended :=
    (hrestarted.step (.advance (i := 0) rfl hminus)).step (.advance (i := 0) rfl hend)
  have hrun := (hended.step (.advance (i := 0) rfl rfl)).step (.advance (i := 1) rfl hend)
  exact ⟨hrun, hrun.sharesOneScan.1⟩

end StreamPool

end LoxReader
