import LoxReader.Proofs.Expr.Recovery

/-! # Failing reads

Reading fails at the first token with which the tokens taken so far stop being the beginning of
an expression. Which error it is depends on what the last token taken was, on the innermost group
that is open, and on the token that was not taken. -/

namespace LoxReader

/-! ## Viable beginnings -/

/-- Unfinished nodes and an operand on top of them can be completed to an expression: every open
group is closed, the innermost first. -/
theorem Spells.exists_completion {frames : List Frame} {front : List Token}
    (hs : Spells frames front) {n : Nonterminal} {last : List Token} {operand : Expr}
    (hd : Derives n last operand) (hn : (awaited frames).rank ≤ n.rank) :
    ∃ more tree, (∀ t ∈ more, t.WellFormed) ∧
      Derives .expression (front ++ last ++ more) tree := by
  induction hs generalizing n last operand with
  | nil => exact ⟨[], operand, by simp, by simpa [awaited] using hd.loosen hn⟩
  | @group frames ts t ht hs ih =>
    let close : Token := ⟨.rightParen, 1, none⟩
    have hgroup : Derives .primary (t :: (last ++ [close])) (.group operand) :=
      .group ht (hd.loosen hn) rfl
    obtain ⟨more, tree, hwf, htree⟩ := ih hgroup (Nonterminal.rank_le_primary _)
    refine ⟨close :: more, tree, ?_, by simpa using htree⟩
    intro u hu
    rcases List.mem_cons.mp hu with rfl | hu
    · trivial
    · exact hwf u hu
  | @unary frames ts t ht hs ih =>
    obtain ⟨more, tree, hwf, htree⟩ :=
      ih (Derives.unary ht (hd.loosen hn)) (rank_awaited_le_unary frames)
    exact ⟨more, tree, hwf, by simpa using htree⟩
  | binary ht hle hl hs ih =>
    obtain ⟨more, tree, hwf, htree⟩ := ih (Derives.binary hl ht (hd.loosen hn)) hle
    exact ⟨more, tree, hwf, by simpa using htree⟩

namespace ReadState

/-- The tokens that a state has taken in are the beginning of an expression. -/
theorem SpelledBy.exists_completion {s : ReadState} {ts : List Token} (hs : s.SpelledBy ts) :
    ∃ more tree, (∀ t ∈ more, t.WellFormed) ∧ Derives .expression (ts ++ more) tree := by
  cases s with
  | before frames =>
    let operand : Token := ⟨.kwNil, 1, none⟩
    have hoperand : Derives .primary [operand] (.literal .nil) := .literal .nil
    obtain ⟨more, tree, hwf, htree⟩ :=
      Spells.exists_completion hs hoperand (Nonterminal.rank_le_primary _)
    refine ⟨operand :: more, tree, ?_, by simpa using htree⟩
    intro u hu
    rcases List.mem_cons.mp hu with rfl | hu
    · trivial
    · exact hwf u hu
  | behind operand frames =>
    obtain ⟨front, last, rfl, hfront, hlast⟩ := hs
    exact hfront.exists_completion hlast (Nonterminal.rank_le_primary _)

/-- A token that a state does not take continues no expression that begins with the tokens taken
so far. -/
theorem not_derives_of_feed_eq_none {stop : ReadState} {used : List Token} {t : Token}
    (hfed : (before []).feedAll used = some stop) (ht : stop.feed t = none) (more : List Token)
    (tree : Expr) : ¬ Derives .expression (used ++ t :: more) tree := by
  intro h
  obtain ⟨operand, frames, hall, -⟩ := h.feedAll []
  rw [feedAll_append, hfed, Option.bind_some, feedAll_cons, ht] at hall
  cases hall

end ReadState

/-! ## What the tokens taken so far show -/

/-- An operand has to come next: nothing is taken yet, or an opening parenthesis or an operator
was taken last. -/
def ExpectsOperand (used : List Token) : Prop :=
  ∀ t ∈ used.getLast?, t.kind = .leftParen ∨ t.kind = .bang ∨ t.kind ∈ binaryOperators

/-- An opening parenthesis was taken last. -/
def EndsOpen (used : List Token) : Prop :=
  ∃ t ∈ used.getLast?, t.kind = .leftParen

/-- The unmatched opening parentheses after one more token, the innermost first. -/
def passParenthesis (pending : List Token) (t : Token) : List Token :=
  if t.kind = .leftParen then t :: pending
  else if t.kind = .rightParen then pending.tail
  else pending

/-- The opening parentheses that no closing one matches, the innermost first. -/
def unclosed (ts : List Token) : List Token :=
  ts.foldl passParenthesis []

theorem expectsOperand_append_singleton {used : List Token} {t : Token} :
    ExpectsOperand (used ++ [t]) ↔
      t.kind = .leftParen ∨ t.kind = .bang ∨ t.kind ∈ binaryOperators := by
  simp [ExpectsOperand]

theorem endsOpen_append_singleton {used : List Token} {t : Token} :
    EndsOpen (used ++ [t]) ↔ t.kind = .leftParen := by
  simp [EndsOpen]

theorem EndsOpen.expectsOperand {used : List Token} (h : EndsOpen used) :
    ExpectsOperand used := by
  obtain ⟨t, ht, hkind⟩ := h
  intro u hu
  obtain rfl := Option.mem_unique ht hu
  exact .inl hkind

theorem unclosed_append_singleton (used : List Token) (t : Token) :
    unclosed (used ++ [t]) = passParenthesis (unclosed used) t := by
  simp [unclosed]

namespace ReadState

def frames : ReadState → List Frame
  | .before frames => frames
  | .behind _ frames => frames

/-- What the tokens taken so far show of a state: its open groups, whether it is in front of an
operand, and whether a group has just been opened. -/
structure ShownBy (s : ReadState) (used : List Token) : Prop where
  openGroups_eq : openGroups s.frames = (unclosed used).map (·.line)
  before_iff : (∃ frames, s = before frames) ↔ ExpectsOperand used
  endsOpen_iff : (∃ line frames, s = before (.group line :: frames)) ↔ EndsOpen used

theorem shownBy_start : (before []).ShownBy [] where
  openGroups_eq := rfl
  before_iff := by simp [ExpectsOperand]
  endsOpen_iff := by simp [EndsOpen]

/-- In front of an operand, parentheses and prefix operators leave the state there, and a literal
leads behind it. -/
theorem ShownBy.feed_before {outer : List Frame} {next : ReadState} {used : List Token} {t : Token}
    (hs : (before outer).ShownBy used) (h : (before outer).feed t = some next) :
    next.ShownBy (used ++ [t]) := by
  have hopen := hs.openGroups_eq
  simp only [ReadState.feed] at h
  split at h
  · next hkind =>
    obtain rfl := Option.some.inj h
    refine ⟨?_, ?_, ?_⟩
    · simpa [unclosed_append_singleton, passParenthesis, hkind, openGroups, frames] using hopen
    · simp [expectsOperand_append_singleton, hkind]
    · simp [endsOpen_append_singleton, hkind]
  · next hkind =>
    split at h
    · next hunary =>
      obtain rfl := Option.some.inj h
      rw [isUnaryOperator_iff] at hunary
      refine ⟨?_, ?_, ?_⟩
      · rcases hunary with hunary | hunary <;>
          simpa [unclosed_append_singleton, passParenthesis, hunary, openGroups, frames]
            using hopen
      · rcases hunary with hunary | hunary <;>
          simp [expectsOperand_append_singleton, hunary, binaryOperators]
      · simp [endsOpen_append_singleton, hkind]
    · obtain ⟨value, hvalue, rfl⟩ := Option.map_eq_some_iff.mp h
      have hstands := literal?_eq_some_iff.mp hvalue
      refine ⟨?_, ?_, ?_⟩
      · cases hstands <;>
          simpa [unclosed_append_singleton, passParenthesis, openGroups, frames] using hopen
      · cases hstands <;> simp [expectsOperand_append_singleton, binaryOperators]
      · simp [endsOpen_append_singleton, hkind]

/-- Behind an operand, an operator leads in front of the next one, and a closing parenthesis closes
the innermost group. -/
theorem ShownBy.feed_behind {operand : Expr} {outer : List Frame} {next : ReadState}
    {used : List Token} {t : Token} (hs : (behind operand outer).ShownBy used)
    (h : (behind operand outer).feed t = some next) : next.ShownBy (used ++ [t]) := by
  have hopen := hs.openGroups_eq
  simp only [frames] at hopen
  simp only [ReadState.feed] at h
  split at h
  · next level hlevel =>
    obtain rfl := Option.some.inj h
    have hmem := mem_binaryOperators (level?_eq_some_iff.mp hlevel)
    have hparen : t.kind ≠ .leftParen ∧ t.kind ≠ .rightParen := by
      constructor <;> intro hkind <;> simp [hkind, TokenKind.level?] at hlevel
    refine ⟨?_, ?_, ?_⟩
    · simpa [unclosed_append_singleton, passParenthesis, hparen, openGroups, frames,
        openGroups_completeTo] using hopen
    · simp [expectsOperand_append_singleton, hmem]
    · simp [endsOpen_append_singleton, hparen]
  · split at h
    · next inner line rest hcomplete =>
      split at h
      · next hclose =>
        obtain rfl := Option.some.inj h
        have hgroups := openGroups_complete operand outer
        rw [hcomplete, hopen] at hgroups
        refine ⟨?_, ?_, ?_⟩
        · simpa [unclosed_append_singleton, passParenthesis, hclose, openGroups, frames]
            using congrArg List.tail hgroups
        · simp [expectsOperand_append_singleton, hclose, binaryOperators]
        · simp [endsOpen_append_singleton, hclose]
      · cases h
    · cases h

theorem ShownBy.feed {s next : ReadState} {used : List Token} {t : Token} (hs : s.ShownBy used)
    (h : s.feed t = some next) : next.ShownBy (used ++ [t]) := by
  cases s with
  | before outer => exact hs.feed_before h
  | behind operand outer => exact hs.feed_behind h

theorem ShownBy.feedAll {s stop : ReadState} {before used : List Token} (hs : s.ShownBy before)
    (h : s.feedAll used = some stop) : stop.ShownBy (before ++ used) := by
  induction used generalizing s before with
  | nil =>
    obtain rfl := Option.some.inj h
    rwa [List.append_nil]
  | cons t used ih =>
    rw [feedAll_cons] at h
    obtain ⟨next, hnext, hused⟩ := Option.bind_eq_some_iff.mp h
    rw [List.append_cons]
    exact ih (hs.feed hnext) hused

end ReadState

/-! ## Tokens used by earlier calls -/

theorem Place.lastLine_after (p : Place) (ts : List Token) :
    (p.after ts).lastLine = (ts.getLast?.map (·.line)).or p.lastLine := by
  induction ts generalizing p with
  | nil => rfl
  | cons t ts ih =>
    rw [after_cons, ih, List.getLast?_cons]
    cases ts.getLast? <;> rfl

namespace ExprReader

/-- The tokens that went into expressions since a reader was made, in the order of the calls.
Recording an error and moving the cursor use none. -/
inductive Used : ExprReader → List Token → Prop where
  | start {tokens position errors} : Used ⟨tokens, ⟨position, none⟩, errors⟩ []
  | readOne {r ts} : Used r ts → Used r.readOne.2
      (ts ++ r.tokens.extract r.place.position r.readOne.2.place.position)
  | record {r ts} (e : SyntaxError) : Used r ts → Used (r.record e) ts
  | move {r ts} (position : Nat) : Used r ts →
      Used { r with place := { r.place with position } } ts

theorem readOne_of_run {r : ExprReader} {used rest : List Token} {stop : ReadState}
    (h : ReadState.Run (.before []) r.remaining used stop rest) :
    r.readOne = (stop.outcome (r.place.after used) rest, { r with place := r.place.after used }) := by
  have hread : readExpr r.place r.remaining = _ := h.read r.place
  simp only [readOne, hread]

/-- One call takes the tokens of a run. -/
theorem exists_run_readOne (r : ExprReader) :
    ∃ used stop rest, ReadState.Run (.before []) r.remaining used stop rest ∧
      r.readOne = (stop.outcome (r.place.after used) rest, { r with place := r.place.after used }) ∧
      r.tokens.extract r.place.position r.readOne.2.place.position = used ∧
      r.tokens[r.readOne.2.place.position]? = rest.head? := by
  obtain ⟨used, stop, rest, hrun⟩ := ReadState.exists_run (.before []) r.remaining
  have hone := readOne_of_run hrun
  have hdrop : r.tokens.drop r.place.position = used ++ rest := hrun.split
  refine ⟨used, stop, rest, hrun, hone, ?_, ?_⟩
  · rw [hone, Place.position_after, List.extract_eq_take_drop, Nat.add_sub_cancel_left, hdrop,
      List.take_left]
  · rw [hone, Place.position_after, ← List.getElem?_drop, hdrop,
      List.getElem?_append_right (Nat.le_refl _), Nat.sub_self, List.head?_eq_getElem?]

theorem Used.lastLine {r : ExprReader} {ts : List Token} (h : r.Used ts) :
    r.place.lastLine = ts.getLast?.map (·.line) := by
  induction h with
  | start => rfl
  | @readOne r ts _ ih =>
    obtain ⟨used, stop, rest, -, hone, hused, -⟩ := r.exists_run_readOne
    rw [hused, hone, Place.lastLine_after, ih, List.getLast?_append, Option.map_or]
  | record _ _ ih => exact ih
  | move _ _ ih => exact ih

/-- Reading everything is made up of such calls. -/
theorem Used.readRest {r : ExprReader} {ts : List Token} (h : r.Used ts) :
    ∃ more, r.readRest.2.Used (ts ++ more) := by
  induction hn : r.remaining.length using Nat.strongRecOn generalizing r ts with
  | ind n ih =>
    cases hend : r.isAtEnd with
    | true =>
      refine ⟨[], ?_⟩
      rwa [readRest_of_isAtEnd hend, List.append_nil]
    | false =>
      cases hone : r.readOne with
      | mk result next =>
        have hnext := h.readOne
        rw [hone] at hnext
        cases result with
        | ok tree =>
          have hlength := length_remaining_of_ok hone
          rw [hn] at hlength
          obtain ⟨more, hmore⟩ := ih _ hlength hnext rfl
          rw [readRest_of_ok hend hone]
          exact ⟨_, List.append_assoc ts _ more ▸ hmore⟩
        | error e =>
          have hlength := length_remaining_of_error hend hone
          rw [hn] at hlength
          obtain ⟨more, hmore⟩ := ih _ hlength ((hnext.record e).move _) rfl
          rw [readRest_of_error hend hone]
          exact ⟨_, List.append_assoc ts _ more ▸ hmore⟩

end ExprReader

/-! ## The diagnosis -/

/-- The line to report at the end of the tokens: that of the last token used so far, or else
that of the next token, or else the first line. -/
def lineOfLast (used : List Token) (next : Option Token) : Int :=
  ((used.getLast?.or next).map (·.line)).getD 1

/-- The kinds of the tokens that may stand where an operand starts. -/
def operandStarts : List TokenKind :=
  [.number, .string, .kwTrue, .kwFalse, .kwNil, .leftParen, .bang, .minus]

/-- The error of a failing call, decided by the tokens used by earlier calls, those taken by this
one, and the token in front of which it ended. -/
inductive Diagnosis (earlier taken : List Token) : Option Token → SyntaxError → Prop where
  | missingOperand {next} : ExpectsOperand taken → (∀ t ∈ next, t.kind = .endOfInput) →
      Diagnosis earlier taken next (.missingOperand (lineOfLast (earlier ++ taken) next))
  | emptyGroup {t} : EndsOpen taken → t.kind = .rightParen →
      Diagnosis earlier taken (some t) (.emptyGroup t.line)
  | notAnOperand {t} : ExpectsOperand taken → ¬ (EndsOpen taken ∧ t.kind = .rightParen) →
      t.kind ∉ operandStarts → t.kind ≠ .endOfInput →
      Diagnosis earlier taken (some t) (.notAnOperand t)
  | unclosedGroup {opening next} : ¬ ExpectsOperand taken → opening ∈ (unclosed taken).head? →
      Diagnosis earlier taken next
        (.unclosedGroup (((next.or (earlier ++ taken).getLast?).map (·.line)).getD 1)
          opening.line)

theorem Diagnosis.unique {earlier taken : List Token} {next : Option Token} {e e' : SyntaxError}
    (h : Diagnosis earlier taken next e) (h' : Diagnosis earlier taken next e') : e = e' := by
  cases h with
  | missingOperand hexpects hend =>
    cases h' with
    | missingOperand => rfl
    | emptyGroup _ hclose => cases (hend _ rfl).symm.trans hclose
    | notAnOperand _ _ _ hne => exact absurd (hend _ rfl) hne
    | unclosedGroup hnot => exact absurd hexpects hnot
  | emptyGroup hopen hclose =>
    cases h' with
    | missingOperand _ hend => cases (hend _ rfl).symm.trans hclose
    | emptyGroup => rfl
    | notAnOperand _ hnot => exact absurd ⟨hopen, hclose⟩ hnot
    | unclosedGroup hnot => exact absurd hopen.expectsOperand hnot
  | notAnOperand hexpects hnot _ hne =>
    cases h' with
    | missingOperand _ hend => exact absurd (hend _ rfl) hne
    | emptyGroup hopen hclose => exact absurd ⟨hopen, hclose⟩ hnot
    | notAnOperand => rfl
    | unclosedGroup hnot => exact absurd hexpects hnot
  | unclosedGroup hnot hopening =>
    cases h' with
    | missingOperand hexpects => exact absurd hexpects hnot
    | emptyGroup hopen => exact absurd hopen.expectsOperand hnot
    | notAnOperand hexpects => exact absurd hexpects hnot
    | unclosedGroup _ hopening' => rw [Option.mem_unique hopening hopening']

/-- A well-formed token that no operand starts with is refused in front of an operand. -/
theorem not_mem_operandStarts {frames : List Frame} {t : Token} (hwf : t.WellFormed)
    (h : (ReadState.before frames).feed t = none) : t.kind ∉ operandStarts := by
  obtain ⟨kind, line, payload⟩ := t
  intro hmem
  simp only [operandStarts, List.mem_cons, List.not_mem_nil, or_false] at hmem
  rcases hmem with rfl | rfl | rfl | rfl | rfl | rfl | rfl | rfl
  · match payload with
    | none | some (.text _) => exact hwf
    | some (.number x) => cases h
  · match payload with
    | none | some (.number _) => exact hwf
    | some (.text s) => cases h
  all_goals cases h

theorem refusal_eq (frames : List Frame) (t : Token) :
    ((∃ line outer, frames = .group line :: outer) ∧ t.kind = .rightParen ∧
      refusal frames t = .emptyGroup t.line) ∨
    (¬ ((∃ line outer, frames = .group line :: outer) ∧ t.kind = .rightParen) ∧
      refusal frames t = .notAnOperand t) := by
  unfold refusal
  split
  · next line outer hkind => exact .inl ⟨⟨line, outer, rfl⟩, hkind, rfl⟩
  · next hnot =>
    refine .inr ⟨?_, rfl⟩
    rintro ⟨⟨line, outer, rfl⟩, hkind⟩
    exact hnot line outer rfl hkind

namespace ReadState

variable {taken earlier rest : List Token} {p : Place} {e : SyntaxError}

/-- Where an operand has to start, the end and each token have their own errors. -/
theorem ShownBy.diagnosis_before {frames : List Frame} (hs : (before frames).ShownBy taken)
    (hwf : ∀ t ∈ rest.head?, t.WellFormed)
    (hstuck : ∀ t ∈ rest.head?, (before frames).feed t = none)
    (hp : p.lastLine = (earlier ++ taken).getLast?.map (·.line))
    (h : (before frames).outcome p rest = .error e) : Diagnosis earlier taken rest.head? e := by
  have hexpects : ExpectsOperand taken := hs.before_iff.mp ⟨frames, rfl⟩
  have hopen : (∃ line outer, frames = .group line :: outer) ↔ EndsOpen taken := by
    simpa using hs.endsOpen_iff
  cases rest with
  | nil =>
    simp only [outcome] at h
    obtain rfl := Except.error.inj h
    have hline : p.endLine none = lineOfLast (earlier ++ taken) none := by
      simp [Place.endLine, lineOfLast, hp]
    rw [hline]
    exact .missingOperand hexpects (by simp)
  | cons t rest =>
    simp only [outcome] at h
    split at h
    · next hend =>
      obtain rfl := Except.error.inj h
      have hline : p.endLine (some t) = lineOfLast (earlier ++ taken) (some t) := by
        cases hlast : (earlier ++ taken).getLast? <;>
          simp [Place.endLine, lineOfLast, hp, hlast]
      rw [hline]
      exact .missingOperand hexpects (by simpa using hend)
    · next hend =>
      obtain rfl := Except.error.inj h
      rcases refusal_eq frames t with ⟨hgroup, hclose, heq⟩ | ⟨hnot, heq⟩
      · rw [heq]
        exact .emptyGroup (hopen.mp hgroup) hclose
      · rw [heq]
        rw [hopen] at hnot
        exact .notAnOperand hexpects hnot (not_mem_operandStarts (hwf t rfl) (hstuck t rfl)) hend

/-- Behind an operand only an open group is an error, whatever the next token is. -/
theorem ShownBy.diagnosis_behind {operand : Expr} {frames : List Frame}
    (hs : (behind operand frames).ShownBy taken)
    (hp : p.lastLine = (earlier ++ taken).getLast?.map (·.line))
    (h : (behind operand frames).outcome p rest = .error e) :
    Diagnosis earlier taken rest.head? e := by
  have hexpects : ¬ ExpectsOperand taken := by
    rw [← hs.before_iff]
    simp
  rcases complete_cases operand frames with ⟨tree, hcomplete⟩ | ⟨inner, line, outer, hcomplete⟩
  · simp only [outcome, hcomplete] at h
    cases h
  · simp only [outcome, hcomplete] at h
    obtain rfl := Except.error.inj h
    have hgroups : line :: openGroups outer = (unclosed taken).map (·.line) := by
      have := openGroups_complete operand frames
      rw [hcomplete] at this
      exact this.trans hs.openGroups_eq
    obtain ⟨opening, lines, hunclosed, rfl, -⟩ := List.map_eq_cons_iff.mp hgroups.symm
    have hline : (rest.head?.map (·.line)).getD (p.endLine none) =
        ((rest.head?.or (earlier ++ taken).getLast?).map (·.line)).getD 1 := by
      cases rest <;> simp [Place.endLine, hp]
    rw [hline]
    exact .unclosedGroup hexpects (by rw [hunclosed]; rfl)

/-- The error in which a run ends is the diagnosed one. -/
theorem ShownBy.diagnosis {stop : ReadState} (hs : stop.ShownBy taken)
    (hwf : ∀ t ∈ rest.head?, t.WellFormed) (hstuck : ∀ t ∈ rest.head?, stop.feed t = none)
    (hp : p.lastLine = (earlier ++ taken).getLast?.map (·.line))
    (h : stop.outcome p rest = .error e) : Diagnosis earlier taken rest.head? e := by
  cases stop with
  | before frames => exact hs.diagnosis_before hwf hstuck hp h
  | behind operand frames => exact hs.diagnosis_behind hp h

end ReadState

namespace ExprReader

/-- A call that fails takes as many tokens as some expression begins with, and no expression goes
on with the token in front of which it ends. The error is the diagnosed one, and no other. -/
theorem readOne_error_diagnosis {r : ExprReader} {earlier : List Token} {e : SyntaxError}
    (hwf : ∀ t ∈ r.tokens, t.WellFormed) (hearlier : r.Used earlier)
    (h : r.readOne.1 = .error e) :
    let taken := r.tokens.extract r.place.position r.readOne.2.place.position
    let next := r.tokens[r.readOne.2.place.position]?
    (∃ more tree, (∀ t ∈ more, t.WellFormed) ∧ Derives .expression (taken ++ more) tree) ∧
    (∀ t ∈ next, ∀ more tree, ¬ Derives .expression (taken ++ t :: more) tree) ∧
    ∀ e', Diagnosis earlier taken next e' ↔ e' = e := by
  obtain ⟨used, stop, rest, hrun, hone, hused, hnext⟩ := r.exists_run_readOne
  have hlast := hearlier.readOne.lastLine
  have hmem : ∀ t ∈ rest.head?, t ∈ r.tokens :=
    fun t ht => List.mem_of_getElem? (hnext.trans ht)
  simp only [hused, hnext] at hlast ⊢
  rw [hone] at h hlast
  have hspelled := ReadState.spelledBy_start.feedAll hrun.fed
  have hshown := ReadState.shownBy_start.feedAll hrun.fed
  rw [List.nil_append] at hspelled hshown
  have hdiagnosis : Diagnosis earlier used rest.head? e :=
    hshown.diagnosis (fun t ht => hwf t (hmem t ht)) hrun.stuck hlast h
  refine ⟨hspelled.exists_completion, ?_, ?_⟩
  · intro t ht
    exact ReadState.not_derives_of_feed_eq_none hrun.fed (hrun.stuck t ht)
  · intro e'
    constructor
    · exact fun h' => h'.unique hdiagnosis
    · rintro rfl
      exact hdiagnosis

/-- A second call, behind `nil` on line 1, opens a group on line 2 and finds no more tokens behind
line 3. -/
theorem readOne_error_diagnosis_unclosed :
    let tokens : List Token := [⟨.kwNil, 1, none⟩, ⟨.leftParen, 2, none⟩, ⟨.kwTrue, 3, none⟩]
    let r := (ExprReader.mk tokens {} []).readOne.2
    (∀ t ∈ r.tokens, t.WellFormed) ∧ r.Used (tokens.take 1) ∧
      r.readOne.1 = .error (.unclosedGroup 3 2) ∧
      (∃ more tree, (∀ t ∈ more, t.WellFormed) ∧
        Derives .expression (tokens.drop 1 ++ more) tree) ∧
      ∀ e, Diagnosis (tokens.take 1) (tokens.drop 1) none e ↔ e = .unclosedGroup 3 2 := by
  intro tokens r
  have hwf : ∀ t ∈ r.tokens, t.WellFormed := by
    simp [r, readOne, tokens, Token.WellFormed]
  have hused : r.Used (tokens.take 1) := .readOne .start
  obtain ⟨hviable, -, hdiagnosis⟩ := readOne_error_diagnosis hwf hused rfl
  exact ⟨hwf, hused, rfl, hviable, hdiagnosis⟩

end ExprReader

end LoxReader
