import LoxReader.Expr.Reading
import LoxReader.Proofs.Expr.Grammar

/-! # Reading token by token

Reading an expression takes tokens as long as its state accepts them and then ends, with a tree
or an error that the state and the tokens left decide. A sentence of the grammar is taken in as a
whole by every state in front of an operand. -/

namespace LoxReader

/-- Completing ends with a tree, or on top of the innermost open group. -/
theorem complete_cases (operand : Expr) (frames : List Frame) :
    (∃ tree, complete operand frames = (tree, [])) ∨
      ∃ inner line outer, complete operand frames = (inner, .group line :: outer) := by
  fun_induction complete operand frames with
  | case1 _ _ _ ih => exact ih
  | case2 _ _ _ _ _ ih => exact ih
  | case3 operand frames hunary hbinary =>
    match frames with
    | [] => exact .inl ⟨operand, rfl⟩
    | .group line :: outer => exact .inr ⟨operand, line, outer, rfl⟩
    | .unary t :: outer => exact absurd rfl (hunary t outer)
    | .binary left t level :: outer => exact absurd rfl (hbinary left t level outer)

/-! ## States -/

/-- Where reading stands: before an operand, or behind one. -/
inductive ReadState where
  | before (frames : List Frame)
  | behind (operand : Expr) (frames : List Frame)

namespace ReadState

/-- The state after one more token, `none` when it is not part of the expression. -/
def feed : ReadState → Token → Option ReadState
  | .before frames, t =>
    if t.kind = .leftParen then some (.before (.group t.line :: frames))
    else if t.kind.isUnaryOperator then some (.before (.unary t :: frames))
    else t.literal?.map fun value => .behind (.literal value) frames
  | .behind operand frames, t =>
    match t.kind.level? with
    | some level =>
      some (.before (.binary (completeTo level operand frames).1 t level ::
        (completeTo level operand frames).2))
    | none =>
      match complete operand frames with
      | (inner, .group _ :: frames) =>
        if t.kind = .rightParen then some (.behind (.group inner) frames) else none
      | _ => none

/-- The state after several more tokens. -/
def feedAll (s : ReadState) (ts : List Token) : Option ReadState :=
  ts.foldlM feed s

/-- What reading comes to when it ends in a state, at a place, in front of the given tokens. -/
def outcome (p : Place) (rest : List Token) : ReadState → Except SyntaxError Expr
  | .before frames =>
    match rest with
    | [] => .error (.missingOperand (p.endLine none))
    | t :: _ =>
      if t.kind = .endOfInput then .error (.missingOperand (p.endLine (some t)))
      else .error (refusal frames t)
  | .behind operand frames =>
    match complete operand frames with
    | (_, .group openLine :: _) =>
      .error (.unclosedGroup ((rest.head?.map (·.line)).getD (p.endLine none)) openLine)
    | (tree, _) => .ok tree

/-- Reading on from a state. -/
def read : ReadState → Place → List Token → Reading
  | .before frames => readOperand frames
  | .behind operand frames => readOperator operand frames

@[simp] theorem feedAll_nil (s : ReadState) : s.feedAll [] = some s := rfl

theorem feedAll_cons (s : ReadState) (t : Token) (ts : List Token) :
    s.feedAll (t :: ts) = (s.feed t).bind (·.feedAll ts) := by
  simp [feedAll, List.foldlM_cons]

theorem feedAll_append (s : ReadState) (ts us : List Token) :
    s.feedAll (ts ++ us) = (s.feedAll ts).bind (·.feedAll us) := by
  simp [feedAll, List.foldlM_append]

theorem feed_open (frames : List Frame) {t : Token} (h : t.kind = .leftParen) :
    (before frames).feed t = some (.before (.group t.line :: frames)) := by
  simp [feed, h]

theorem feed_unary (frames : List Frame) {t : Token} (h : t.kind = .bang ∨ t.kind = .minus) :
    (before frames).feed t = some (.before (.unary t :: frames)) := by
  rcases h with h | h <;> simp [feed, h, TokenKind.isUnaryOperator]

theorem feed_literal (frames : List Frame) {t : Token} {value : Literal}
    (h : t.StandsFor value) :
    (before frames).feed t = some (.behind (.literal value) frames) := by
  cases h <;> rfl

end ReadState

/-! ## Places -/

/-- The place behind tokens that go into an expression. -/
def Place.after (p : Place) (ts : List Token) : Place :=
  ts.foldl Place.advance p

@[simp] theorem Place.after_nil (p : Place) : p.after [] = p := rfl

@[simp] theorem Place.after_cons (p : Place) (t : Token) (ts : List Token) :
    p.after (t :: ts) = (p.advance t).after ts := rfl

@[simp] theorem Place.after_append (p : Place) (ts us : List Token) :
    p.after (ts ++ us) = (p.after ts).after us :=
  List.foldl_append

@[simp] theorem Place.position_after (p : Place) (ts : List Token) :
    (p.after ts).position = p.position + ts.length := by
  induction ts generalizing p with
  | nil => rfl
  | cons t ts ih =>
    rw [after_cons, ih, List.length_cons]
    exact Nat.succ_add_eq_add_succ p.position ts.length

/-! ## One run -/

namespace ReadState

theorem read_cons {s next : ReadState} {t : Token} (h : s.feed t = some next) (p : Place)
    (rest : List Token) : s.read p (t :: rest) = next.read (p.advance t) rest := by
  cases s with
  | before frames =>
    have hend : t.kind ≠ .endOfInput := by
      intro hkind
      simp [feed, hkind, TokenKind.isUnaryOperator, Token.literal?] at h
    simp only [read, readOperand, if_neg hend]
    simp only [feed] at h
    split at h
    · next hopen =>
      obtain rfl := Option.some.inj h
      rw [if_pos hopen]
    · next hopen =>
      rw [if_neg hopen]
      split at h
      · next hunary =>
        obtain rfl := Option.some.inj h
        rw [if_pos hunary]
      · next hunary =>
        rw [if_neg hunary]
        obtain ⟨value, hvalue, rfl⟩ := Option.map_eq_some_iff.mp h
        rw [hvalue]
  | behind operand frames =>
    simp only [read, readOperator]
    simp only [feed] at h
    cases hlevel : t.kind.level? with
    | some level =>
      simp only [hlevel] at h ⊢
      obtain rfl := Option.some.inj h
      rfl
    | none =>
      simp only [hlevel] at h ⊢
      split at h
      · next inner openLine outer heq =>
        split at h
        · next hclose =>
          obtain rfl := Option.some.inj h
          simp only [heq, if_pos hclose]
        · cases h
      · cases h

/-- Reading ends in front of a token that the state does not take, and behind the last one. -/
theorem read_stuck {s : ReadState} {rest : List Token}
    (h : ∀ t ∈ rest.head?, s.feed t = none) (p : Place) :
    s.read p rest = ⟨s.outcome p rest, p, rest⟩ := by
  cases s with
  | before frames =>
    cases rest with
    | nil => rfl
    | cons t rest =>
      have hfeed := h t rfl
      simp only [feed] at hfeed
      simp only [read, readOperand, outcome]
      split
      · rfl
      · split at hfeed
        · cases hfeed
        · next hopen =>
          split at hfeed
          · cases hfeed
          · next hunary =>
            rw [Option.map_eq_none_iff] at hfeed
            simp only [if_neg hopen, if_neg hunary, hfeed]
  | behind operand frames =>
    rcases complete_cases operand frames with ⟨tree, hcomplete⟩ | ⟨inner, line, outer, hcomplete⟩
    · cases rest with
      | nil => simp only [read, readOperator, outcome, hcomplete]
      | cons t rest =>
        have hfeed := h t rfl
        simp only [feed, hcomplete] at hfeed
        cases hlevel : t.kind.level? with
        | some level => simp [hlevel] at hfeed
        | none => simp only [read, readOperator, outcome, hlevel, hcomplete]
    · cases rest with
      | nil =>
        simp only [read, readOperator, outcome, hcomplete]
        rfl
      | cons t rest =>
        have hfeed := h t rfl
        simp only [feed, hcomplete] at hfeed
        cases hlevel : t.kind.level? with
        | some level => simp [hlevel] at hfeed
        | none =>
          have hclose : t.kind ≠ .rightParen := by
            intro hclose
            rw [hclose] at hfeed
            cases hfeed
          simp only [read, readOperator, outcome, hlevel, hcomplete, if_neg hclose]
          rfl

/-- A run takes the tokens `used` and stops in the state `stop`, which does not take the first
token of `rest`. -/
structure Run (s : ReadState) (tokens used : List Token) (stop : ReadState)
    (rest : List Token) : Prop where
  split : tokens = used ++ rest
  fed : s.feedAll used = some stop
  stuck : ∀ t ∈ rest.head?, stop.feed t = none

theorem exists_run (s : ReadState) (tokens : List Token) :
    ∃ used stop rest, Run s tokens used stop rest := by
  induction tokens generalizing s with
  | nil => exact ⟨[], s, [], rfl, rfl, by simp⟩
  | cons t tokens ih =>
    cases h : s.feed t with
    | none => exact ⟨[], s, t :: tokens, rfl, rfl, by simp [h]⟩
    | some next =>
      obtain ⟨used, stop, rest, hrun⟩ := ih next
      refine ⟨t :: used, stop, rest, ?_, ?_, hrun.stuck⟩
      · rw [hrun.split, List.cons_append]
      · rw [feedAll_cons, h]
        exact hrun.fed

theorem read_append {s stop : ReadState} {used : List Token} (h : s.feedAll used = some stop)
    (p : Place) (rest : List Token) :
    s.read p (used ++ rest) = stop.read (p.after used) rest := by
  induction used generalizing s p with
  | nil =>
    obtain rfl := Option.some.inj h
    rfl
  | cons t used ih =>
    rw [feedAll_cons] at h
    obtain ⟨next, hnext, hused⟩ := Option.bind_eq_some_iff.mp h
    rw [List.cons_append, read_cons hnext, ih hused, Place.after_cons]

theorem Run.read {s stop : ReadState} {tokens used rest : List Token}
    (h : Run s tokens used stop rest) (p : Place) :
    s.read p tokens = ⟨stop.outcome (p.after used) rest, p.after used, rest⟩ := by
  rw [h.split, read_append h.fed, read_stuck h.stuck]

end ReadState

/-! ## Open groups -/

/-- The lines of the groups that are still open, the innermost first. -/
def openGroups : List Frame → List Int
  | [] => []
  | .group line :: frames => line :: openGroups frames
  | .unary _ :: frames | .binary _ _ _ :: frames => openGroups frames

theorem openGroups_completeTo (level : Level) (operand : Expr) (frames : List Frame) :
    openGroups (completeTo level operand frames).2 = openGroups frames := by
  fun_induction completeTo level operand frames with
  | case1 _ _ _ ih => exact ih
  | case2 _ _ _ _ _ _ ih => exact ih
  | case3 => rfl
  | case4 => rfl

theorem openGroups_complete (operand : Expr) (frames : List Frame) :
    openGroups (complete operand frames).2 = openGroups frames := by
  fun_induction complete operand frames with
  | case1 _ _ _ ih => exact ih
  | case2 _ _ _ _ _ ih => exact ih
  | case3 => rfl

theorem complete_eq_of_openGroups_nil (operand : Expr) {frames : List Frame}
    (h : openGroups frames = []) : ∃ tree, complete operand frames = (tree, []) := by
  rw [← openGroups_complete operand frames] at h
  rcases complete_cases operand frames with htree | ⟨inner, line, outer, hcomplete⟩
  · exact htree
  · rw [hcomplete] at h
    cases h

theorem complete_eq_of_openGroups_cons (operand : Expr) {frames : List Frame} {line : Int}
    {lines : List Int} (h : openGroups frames = line :: lines) :
    ∃ inner outer, complete operand frames = (inner, .group line :: outer) ∧
      openGroups outer = lines := by
  rw [← openGroups_complete operand frames] at h
  rcases complete_cases operand frames with ⟨tree, hcomplete⟩ | ⟨inner, line', outer, hcomplete⟩
  · rw [hcomplete] at h
    cases h
  · rw [hcomplete] at h ⊢
    obtain ⟨rfl, rfl⟩ := List.cons.inj h
    exact ⟨inner, outer, rfl, rfl⟩

namespace ReadState

theorem feed_level (operand : Expr) (frames : List Frame) {t : Token}
    (h : t.kind ∈ binaryOperators) :
    ∃ frames', (behind operand frames).feed t = some (.before frames') ∧
      openGroups frames' = openGroups frames := by
  cases hlevel : t.kind.level? with
  | none => exact absurd h (level?_eq_none_iff.mp hlevel)
  | some level =>
    refine ⟨.binary (completeTo level operand frames).1 t level ::
      (completeTo level operand frames).2, by simp only [feed, hlevel], ?_⟩
    exact openGroups_completeTo level operand frames

end ReadState

/-! ## Taking in a sentence -/

/-- Whatever is unfinished in front of a sentence, the sentence is taken in as an operand and
leaves the same groups open. -/
theorem Derives.feedAll {n : Nonterminal} {ts : List Token} {e : Expr} (h : Derives n ts e)
    (frames : List Frame) :
    ∃ operand frames', (ReadState.before frames).feedAll ts = some (.behind operand frames') ∧
      openGroups frames' = openGroups frames := by
  induction h generalizing frames with
  | expression _ ih | operand _ ih | primary _ ih => exact ih frames
  | binary _ ht _ ihl ihr =>
    obtain ⟨left, framesl, hl, hopenl⟩ := ihl frames
    obtain ⟨framest, hfeed, hopent⟩ :=
      ReadState.feed_level left framesl (mem_binaryOperators ht)
    obtain ⟨right, framesr, hr, hopenr⟩ := ihr framest
    refine ⟨right, framesr, ?_, hopenr.trans (hopent.trans hopenl)⟩
    simp [ReadState.feedAll_append, ReadState.feedAll_cons, hl, hfeed, hr]
  | @unary t ts e ht _ ih =>
    obtain ⟨operand, frames', hfed, hopen⟩ := ih (.unary t :: frames)
    refine ⟨operand, frames', ?_, hopen⟩
    simp [ReadState.feedAll_cons, ReadState.feed_unary frames ht, hfed]
  | @group o c ts e ho _ hc ih =>
    obtain ⟨operand, frames', hfed, hopen⟩ := ih (.group o.line :: frames)
    obtain ⟨inner, outer, hcomplete, houter⟩ := complete_eq_of_openGroups_cons operand hopen
    have hclose : (ReadState.behind operand frames').feed c =
        some (.behind (.group inner) outer) := by
      simp [ReadState.feed, hc, TokenKind.level?, hcomplete]
    refine ⟨.group inner, outer, ?_, houter⟩
    simp [ReadState.feedAll_cons, ReadState.feedAll_append, ReadState.feed_open frames ho, hfed,
      hclose]
  | @literal t value hv =>
    refine ⟨.literal value, frames, ?_, rfl⟩
    simp [ReadState.feedAll_cons, ReadState.feed_literal frames hv]

/-- Reading ends with a tree behind an operand when no group is open and no binary operator
follows. -/
theorem ReadState.read_behind_of_openGroups_nil (operand : Expr) {frames : List Frame}
    (h : openGroups frames = []) {rest : List Token}
    (hrest : ∀ t ∈ rest.head?, t.kind ∉ binaryOperators) (p : Place) :
    ∃ tree, (behind operand frames).read p rest = ⟨.ok tree, p, rest⟩ := by
  obtain ⟨tree, hcomplete⟩ := complete_eq_of_openGroups_nil operand h
  have hstuck : ∀ t ∈ rest.head?, (behind operand frames).feed t = none := by
    intro t ht
    simp [feed, level?_eq_none_iff.mpr (hrest t ht), hcomplete]
  refine ⟨tree, ?_⟩
  rw [read_stuck hstuck]
  simp [outcome, hcomplete]

end LoxReader
