import LoxReader.Proofs.Scan.Boundary
import LoxReader.Proofs.Scan.Streams

/-! # How far a token looks ahead

To give a token, a scan looks at the characters that it passes and at the one behind them. So the
tokens drawn from a stream, the errors met on the way and the place reached are the same for every
source that shares these characters. -/

namespace LoxReader

open Text

theorem head?_append_congr {rest rest' : List Char} (h : rest'.head? = rest.head?)
    (passed : List Char) : (passed ++ rest').head? = (passed ++ rest).head? := by
  rw [List.head?_append, List.head?_append, h]

/-- A text that shares one character more than `passed`. -/
theorem exists_eq_append_of_take_prefix {passed rest t : List Char}
    (hlt : passed.length < (passed ++ rest).length)
    (h : (passed ++ rest).take (passed.length + 1) <+: t) :
    ∃ rest', t = passed ++ rest' ∧ rest'.head? = rest.head? := by
  cases rest with
  | nil => simp at hlt
  | cons c rest =>
    obtain ⟨tail, rfl⟩ := h
    refine ⟨c :: tail, ?_, rfl⟩
    rw [List.take_length_add_append, List.append_assoc]
    rfl

namespace Cursor

variable {c next : Cursor}

theorem with_rest_eq_pass {passed rest : List Char} (h : next = c.pass passed rest)
    (rest' : List Char) : ({ next with rest := rest' } : Cursor) = c.pass passed rest' := by
  subst h
  rfl

/-- The outcome of a step and the place behind it depend on the text that it passes and on the
first character of what is left. -/
theorem exists_passed_of_step {o : Except LexicalError Token} (h : c.step = (some o, next)) :
    ∃ passed, c.rest = passed ++ next.rest ∧ next = c.pass passed next.rest ∧
      ∀ rest', rest'.head? = next.rest.head? →
        ({ c with rest := passed ++ rest' } : Cursor).step = (some o, c.pass passed rest') := by
  obtain ⟨pieces, last, hpieces⟩ := exists_dissects c.rest
  generalize hrest : c.rest = s at hpieces
  cases hpieces with
  | stop hlast =>
    rw [step_of_stop hlast hrest] at h
    cases h
  | @piece gap l rest pieces last hgap hl _ =>
    rw [step_of_isLongest hgap hl hrest, Prod.mk.injEq, Option.some.injEq] at h
    obtain ⟨rfl, rfl⟩ := h
    refine ⟨gap ++ l.text, (List.append_assoc ..).symm, rfl, ?_⟩
    intro rest' (hhead : rest'.head? = rest.head?)
    have hfits : Fits rest rest' := fits_of_head?_eq hhead
    have hopen : ∀ body, l = .openString body → rest' = [] := by
      rintro body rfl
      rwa [hl.rest_eq_nil, List.head?_nil, List.head?_eq_none_iff] at hhead
    rw [List.append_assoc]
    exact step_of_isLongest (hl.exchange_gap hgap hfits) (hl.exchange hopen hfits) rfl

/-- The next token looks no further ahead than a single step does, however many errors it meets. -/
theorem exists_passed_of_nextToken {errors : List LexicalError} {t : Token}
    (h : c.nextToken = (errors, some t, next)) :
    ∃ passed, c.rest = passed ++ next.rest ∧ next = c.pass passed next.rest ∧
      ∀ rest', rest'.head? = next.rest.head? →
        ({ c with rest := passed ++ rest' } : Cursor).nextToken =
          (errors, some t, c.pass passed rest') := by
  fun_induction nextToken c generalizing errors with
  | case1 => simp at h
  | case2 c token next' hstep =>
    simp only [Prod.mk.injEq, Option.some.injEq] at h
    obtain ⟨rfl, rfl, rfl⟩ := h
    obtain ⟨passed, hrest, hnext, hexchange⟩ := exists_passed_of_step hstep
    exact ⟨passed, hrest, hnext, fun rest' hhead => nextToken_of_step_ok (hexchange rest' hhead)⟩
  | case3 c e mid hstep errors' token stop hnextToken ih =>
    simp only [Prod.mk.injEq] at h
    obtain ⟨rfl, rfl, rfl⟩ := h
    obtain ⟨front, hrest, hmid, hfront⟩ := exists_passed_of_step hstep
    obtain ⟨passed, hrest', hnext, hpassed⟩ := ih hnextToken
    refine ⟨front ++ passed, ?_, ?_, fun rest' hhead => ?_⟩
    · rw [hrest, hrest', List.append_assoc]
    · rw [← pass_pass c front passed mid.rest, ← hmid]
      exact hnext
    · -- The error is met again, because the token passes the same text behind it.
      have hsame : (passed ++ rest').head? = mid.rest.head? := by
        rw [hrest', head?_append_congr hhead]
      rw [List.append_assoc, nextToken_of_step_error (hfront _ hsame), ← with_rest_eq_pass hmid,
        hpassed rest' hhead, hmid, pass_pass]

end Cursor

namespace SharedScan

/-! ## Tokens drawn from one stream -/

theorem resume_next (state : StreamState) (s : SharedScan) :
    (s.next state).2.2.resume (s.next state).2.1 = (s.next state).2.2 := by
  simp only [SharedScan.next]
  split
  · rfl
  · split <;> rfl

/-- A single stream goes on from where it has come to, also when it has not been advanced yet. -/
theorem resume_sequential (source : List Char) (k : Nat) :
    (sequential source k).2.2.resume (sequential source k).2.1 = (sequential source k).2.2 := by
  cases k with
  | zero => rfl
  | succ k => exact resume_next _ _

theorem next_of_nextToken_some {state : StreamState} {s : SharedScan} {next : Cursor}
    {errors : List LexicalError} {t : Token} (hstate : state ≠ .finished)
    (hresume : s.resume state = s) (h : s.cursor.nextToken = (errors, some t, next)) :
    s.next state = (some t, .running, ⟨s.source, next, s.errors ++ errors⟩) := by
  have hadvance : (s.resume state).advance = (some t, ⟨s.source, next, s.errors ++ errors⟩) := by
    simp [hresume, advance, h]
  exact next_of_advance_some hstate hadvance

theorem next_of_nextToken_none {state : StreamState} {s : SharedScan} {stop : Cursor}
    {errors : List LexicalError} (hstate : state ≠ .finished) (hresume : s.resume state = s)
    (h : s.cursor.nextToken = (errors, none, stop)) :
    s.next state =
      (some (.endOn stop.line), .finished, ⟨s.source, stop, s.errors ++ errors⟩) := by
  have hadvance : (s.resume state).advance = (none, ⟨s.source, stop, s.errors ++ errors⟩) := by
    simp [hresume, advance, h]
  exact next_of_advance_none hstate hadvance

theorem sequential_succ {source : List Char} {k : Nat} {given : List Token}
    {state state' : StreamState} {t : Option Token} {s s' : SharedScan}
    (h : sequential source k = (given, state, s)) (hnext : s.next state = (t, state', s')) :
    sequential source (k + 1) = (given ++ t.toList, state', s') := by
  simp only [sequential, h, hnext]

/-- As long as a stream has not given the end, what it has given and where it stands depend on the
text that it has passed and on the first character of what is left. -/
theorem exists_passed_of_sequential {source : List Char} {k : Nat} {given : List Token}
    {state : StreamState} {s : SharedScan} (h : sequential source k = (given, state, s))
    (hgiven : ∀ t ∈ given, t.kind ≠ .endOfInput) :
    given.length = k ∧ state ≠ .finished ∧
      ∃ passed, source = passed ++ s.cursor.rest ∧
        s.cursor = (Cursor.atStart source).pass passed s.cursor.rest ∧
        ∀ rest', rest'.head? = s.cursor.rest.head? →
          sequential (passed ++ rest') k =
            (given, state,
              ⟨passed ++ rest', (Cursor.atStart source).pass passed rest', s.errors⟩) := by
  induction k generalizing given state s with
  | zero =>
    cases h
    exact ⟨rfl, by simp, [], rfl, rfl, fun _ _ => rfl⟩
  | succ k ih =>
    rcases hbefore : sequential source k with ⟨given₀, state₀, s₀⟩
    have hresume := resume_sequential source k
    rw [hbefore] at hresume
    have hbegins : given₀ <+: given := by
      rw [sequential_succ hbefore rfl, Prod.mk.injEq] at h
      exact h.1 ▸ List.prefix_append _ _
    obtain ⟨hlength, hstate, front, hsource, hcursor, hexchange⟩ :=
      ih hbefore fun t ht => hgiven t (hbegins.mem ht)
    rcases hnextToken : s₀.cursor.nextToken with ⟨errors, _ | t, next⟩
    · rw [sequential_succ hbefore (next_of_nextToken_none hstate hresume hnextToken)] at h
      cases h
      exact absurd rfl (hgiven (.endOn next.line) (by simp))
    · rw [sequential_succ hbefore (next_of_nextToken_some hstate hresume hnextToken)] at h
      cases h
      obtain ⟨passed, hrest, hnext, htoken⟩ := Cursor.exists_passed_of_nextToken hnextToken
      refine ⟨by simp [hlength], by simp, front ++ passed, ?_, ?_, fun rest' hhead => ?_⟩
      · rw [List.append_assoc, ← hrest]
        exact hsource
      · rw [← Cursor.pass_pass _ front passed s₀.cursor.rest, ← hcursor]
        exact hnext
      · have hsame : (passed ++ rest').head? = s₀.cursor.rest.head? := by
          rw [hrest, head?_append_congr hhead]
        have hbefore' := hexchange _ hsame
        have hresume' := resume_sequential (front ++ (passed ++ rest')) k
        rw [hbefore'] at hresume'
        have htoken' := htoken rest' hhead
        rw [Cursor.with_rest_eq_pass hcursor, hcursor, Cursor.pass_pass] at htoken'
        rw [List.append_assoc]
        exact sequential_succ hbefore' (next_of_nextToken_some hstate hresume' htoken')

/-- What a fresh stream gives and leaves behind when it is advanced `n` times in a row. -/
def draw (s : SharedScan) : Nat → List Token × StreamState × SharedScan
  | 0 => ([], .fresh, s)
  | n + 1 =>
    let (given, state, s) := s.draw n
    let (token, state, s) := s.next state
    (given ++ token.toList, state, s)

/-- What was done to a source before makes no difference, because a fresh stream starts the scan
over. -/
theorem draw_succ (s : SharedScan) (k : Nat) : s.draw (k + 1) = sequential s.source (k + 1) := by
  induction k with
  | zero =>
    have hnext : s.next .fresh = (untouched s.source).next .fresh := rfl
    simp only [draw, sequential, hnext]
  | succ k ih =>
    rw [draw, ih]
    rfl

/-- One character of lookahead is enough. When a fresh stream has given `k` tokens, none of them the
end, and has come to position `p`, a fresh stream over any source with the same first `p + 1`
characters gives the same tokens, meets the same errors and comes to the same place; so does one over
the same source, when nothing is left. -/
theorem draw_of_prefix {s t : SharedScan} {k : Nat} (hk : 1 ≤ k)
    (hgiven : ∀ u ∈ (s.draw k).1, u.kind ≠ .endOfInput)
    (hshared : let p := (s.draw k).2.2.cursor.position
      p < s.source.length ∧ s.source.take (p + 1) <+: t.source ∨
        p = s.source.length ∧ t.source = s.source) :
    (s.draw k).1.length = k ∧ (t.draw k).1 = (s.draw k).1 ∧ (t.draw k).2.1 = (s.draw k).2.1 ∧
      (t.draw k).2.2.cursor.position = (s.draw k).2.2.cursor.position ∧
      (t.draw k).2.2.cursor.line = (s.draw k).2.2.cursor.line ∧
      (t.draw k).2.2.errors = (s.draw k).2.2.errors := by
  obtain ⟨k, rfl⟩ := Nat.exists_eq_add_of_le' hk
  rw [draw_succ] at hgiven hshared
  rw [draw_succ, draw_succ]
  rcases hsequential : sequential s.source (k + 1) with ⟨given, state, shared⟩
  rw [hsequential] at hgiven hshared
  obtain ⟨hlength, -, passed, hs, hcursor, hexchange⟩ :=
    exists_passed_of_sequential hsequential hgiven
  have hposition : shared.cursor.position = passed.length := by
    rw [hcursor]
    exact Nat.zero_add _
  obtain ⟨rest', ht, hhead⟩ : ∃ rest', t.source = passed ++ rest' ∧
      rest'.head? = shared.cursor.rest.head? := by
    rcases hshared with ⟨hlt, htake⟩ | ⟨-, hsame⟩
    · rw [hposition, hs] at hlt htake
      exact exists_eq_append_of_take_prefix hlt htake
    · exact ⟨_, hsame.trans hs, rfl⟩
  rw [ht, hexchange rest' hhead, hcursor]
  exact ⟨hlength, rfl, rfl, rfl, rfl, rfl⟩

/-- Behind a comment, an error and an operator of two characters, the sources differ from the
character after the next one on. The second one has been scanned before. -/
theorem draw_of_prefix_open_string :
    let s := untouched "+ //b\n@!= 1".toList
    let t : SharedScan := ⟨"+ //b\n@!= \"c".toList, ⟨[], 12, 2⟩, [.unterminatedString 2]⟩
    (s.draw 2).1 = [⟨.plus, 1, none⟩, ⟨.bangEqual, 2, none⟩] ∧
      (s.draw 2).2.2 = ⟨s.source, ⟨" 1".toList, 9, 2⟩, [.unknownCharacter '@' 2]⟩ ∧
      (t.draw 2).1 = [⟨.plus, 1, none⟩, ⟨.bangEqual, 2, none⟩] ∧
      (t.draw 2).2.2.cursor.position = 9 ∧ (t.draw 2).2.2.errors = [.unknownCharacter '@' 2] := by
  intro s t
  have hfirst : s.draw 2 =
      ([⟨.plus, 1, none⟩, ⟨.bangEqual, 2, none⟩], .running,
        ⟨s.source, ⟨" 1".toList, 9, 2⟩, [.unknownCharacter '@' 2]⟩) := by
    cbv
  have hsame := draw_of_prefix (s := s) (t := t) (k := 2) (by decide) (by rw [hfirst]; decide)
    (.inl (by rw [hfirst]; decide))
  rw [hfirst] at hsame
  rw [hfirst]
  exact ⟨rfl, rfl, hsame.2.1, hsame.2.2.2.1, hsame.2.2.2.2.2⟩

end SharedScan

end LoxReader
