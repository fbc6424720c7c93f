import LoxReader.Proofs.Expr.Correspondence
import LoxReader.Proofs.Expr.Rounds
import LoxReader.Proofs.Scan.Respelling

/-! # Outlines

What reading everything does in each round is decided by the kinds of the tokens alone. The kinds
give an outline in which positions stand for the operators, for the literals and for what an error
names, and the rounds of any tokens of these kinds are that outline, filled with these tokens. -/

namespace LoxReader

/-- A tree with the positions of the tokens that become its literals and its operators. -/
inductive Outline where
  | literal (position : Nat)
  | group (inner : Outline)
  | unary (position : Nat) (operand : Outline)
  | binary (left : Outline) (position : Nat) (right : Outline)
deriving DecidableEq

/-- An error with the positions of the tokens that it takes its lines from, or that it names. -/
inductive ErrorOutline where
  | unclosedGroup (position openPosition : Nat)
  | notAnOperand (position : Nat)
  | missingOperand (position : Nat)
  | emptyGroup (position : Nat)
deriving DecidableEq

/-- The tree of an outline, if there are tokens at its positions and literals where it needs them. -/
def Outline.tree? (tokens : List Token) : Outline → Option Expr
  | .literal i => do
    let t ← tokens[i]?
    let value ← t.literal?
    return .literal value
  | .group inner => do
    let tree ← inner.tree? tokens
    return .group tree
  | .unary i operand => do
    let t ← tokens[i]?
    let tree ← operand.tree? tokens
    return .unary t tree
  | .binary left i right => do
    let leftTree ← left.tree? tokens
    let t ← tokens[i]?
    let rightTree ← right.tree? tokens
    return .binary leftTree t rightTree

def ErrorOutline.error? (tokens : List Token) : ErrorOutline → Option SyntaxError
  | .unclosedGroup i j => do
    let t ← tokens[i]?
    let opening ← tokens[j]?
    return .unclosedGroup t.line opening.line
  | .notAnOperand i => do
    let t ← tokens[i]?
    return .notAnOperand t
  | .missingOperand i => do
    let t ← tokens[i]?
    return .missingOperand t.line
  | .emptyGroup i => do
    let t ← tokens[i]?
    return .emptyGroup t.line

/-- What a round comes to when its outline is filled with tokens. -/
def fillResult? (tokens : List Token) :
    Except ErrorOutline Outline → Option (Except SyntaxError Expr)
  | .ok outline => (outline.tree? tokens).map .ok
  | .error outline => (outline.error? tokens).map .error

def Round.fill? (tokens : List Token) (round : Round ErrorOutline Outline) :
    Option (Round SyntaxError Expr) :=
  (fillResult? tokens round.result).map fun result =>
    ⟨round.start, round.stop, round.next, result⟩

/-! ## Outlines of trees -/

theorem drop_add_length {tokens used rest : List Token} {i : Nat}
    (h : tokens.drop i = used ++ rest) : tokens.drop (i + used.length) = rest := by
  rw [← List.drop_drop, h, List.drop_left]

theorem getElem?_of_drop {tokens rest : List Token} {t : Token} {i : Nat}
    (h : tokens.drop i = t :: rest) : tokens[i]? = some t := by
  rw [← List.head?_drop, h]
  rfl

/-- Whether a well-formed token is a literal is seen from its kind. -/
theorem Token.StandsFor.exists_of_kind_eq {t u : Token} {value : Literal} (h : t.StandsFor value)
    (hkind : u.kind = t.kind) (hu : u.WellFormed) : ∃ value', u.StandsFor value' := by
  obtain ⟨kind, line, payload⟩ := u
  obtain rfl : kind = t.kind := hkind
  cases h with
  | number | string =>
    rcases payload with _ | _ | _
    · exact hu.elim
    · first | exact ⟨_, .number⟩ | exact hu.elim
    · first | exact ⟨_, .string⟩ | exact hu.elim
  | true => exact ⟨_, .true⟩
  | false => exact ⟨_, .false⟩
  | nil => exact ⟨_, .nil⟩

/-- Tokens of the given kinds at position `i` form a nonterminal, and the outline filled with them is
their tree. -/
def Outline.Suits (outline : Outline) (n : Nonterminal) (kinds : List TokenKind) (i : Nat) : Prop :=
  ∀ {tokens us rest : List Token}, tokens.drop i = us ++ rest → us.map (·.kind) = kinds →
    (∀ u ∈ us, u.WellFormed) → ∃ e, Derives n us e ∧ outline.tree? tokens = some e

namespace Outline.Suits

variable {outline left right : Outline} {n m : Nonterminal} {kinds kinds' : List TokenKind}
  {kind : TokenKind} {i : Nat}

theorem imp (h : outline.Suits n kinds i) (himp : ∀ {us e}, Derives n us e → Derives m us e) :
    outline.Suits m kinds i := by
  intro tokens us rest hdrop hkinds hwf
  obtain ⟨e, hd, htree⟩ := h hdrop hkinds hwf
  exact ⟨e, himp hd, htree⟩

theorem binary {level : Level} (hl : left.Suits (.chain level) kinds i)
    (hkind : kind ∈ level.operators) (hr : right.Suits level.operand kinds' (i + kinds.length + 1)) :
    (Outline.binary left (i + kinds.length) right).Suits (.chain level)
      (kinds ++ kind :: kinds') i := by
  intro tokens us rest hdrop hkinds hwf
  obtain ⟨ls, us', rfl, rfl, hbehind⟩ := List.map_eq_append_iff.mp hkinds
  obtain ⟨t, rs, rfl, rfl, rfl⟩ := List.map_eq_cons_iff.mp hbehind
  rw [List.append_assoc] at hdrop
  rw [List.length_map] at hr ⊢
  have hoperator := drop_add_length hdrop
  have hright : tokens.drop (i + ls.length + 1) = rs ++ rest := by
    rw [← List.drop_drop, hoperator]
    rfl
  rw [List.forall_mem_append, List.forall_mem_cons] at hwf
  obtain ⟨l, hdl, htl⟩ := hl hdrop rfl hwf.1
  obtain ⟨r, hdr, htr⟩ := hr hright rfl hwf.2.2
  refine ⟨.binary l t r, .binary hdl hkind hdr, ?_⟩
  simp [tree?, htl, htr, getElem?_of_drop hoperator]

theorem unary (hkind : kind = .bang ∨ kind = .minus) (h : outline.Suits .unary kinds (i + 1)) :
    (Outline.unary i outline).Suits .unary (kind :: kinds) i := by
  intro tokens us rest hdrop hkinds hwf
  obtain ⟨t, us, rfl, rfl, rfl⟩ := List.map_eq_cons_iff.mp hkinds
  have hoperand : tokens.drop (i + 1) = us ++ rest := by
    rw [← List.drop_drop, hdrop]
    rfl
  rw [List.forall_mem_cons] at hwf
  obtain ⟨e, hd, htree⟩ := h hoperand rfl hwf.2
  refine ⟨.unary t e, .unary hkind hd, ?_⟩
  simp [tree?, htree, getElem?_of_drop hdrop]

theorem group (h : outline.Suits .expression kinds (i + 1)) :
    (Outline.group outline).Suits .primary (.leftParen :: (kinds ++ [.rightParen])) i := by
  intro tokens us rest hdrop hkinds hwf
  obtain ⟨o, us', rfl, ho, hinside⟩ := List.map_eq_cons_iff.mp hkinds
  obtain ⟨us, cs, rfl, rfl, hclose⟩ := List.map_eq_append_iff.mp hinside
  obtain ⟨c, rfl, hc⟩ := List.map_eq_singleton_iff.mp hclose
  have hinner : tokens.drop (i + 1) = us ++ ([c] ++ rest) := by
    rw [← List.drop_drop, hdrop, List.cons_append, List.append_assoc]
    rfl
  rw [List.forall_mem_cons, List.forall_mem_append] at hwf
  obtain ⟨e, hd, htree⟩ := h hinner rfl hwf.2.1
  refine ⟨.group e, .group ho hd hc, ?_⟩
  simp [tree?, htree]

theorem literal {t : Token} {value : Literal} (h : t.StandsFor value) :
    (Outline.literal i).Suits .primary [t.kind] i := by
  intro tokens us rest hdrop hkinds hwf
  obtain ⟨u, rfl, hkind⟩ := List.map_eq_singleton_iff.mp hkinds
  obtain ⟨value', hvalue⟩ := h.exists_of_kind_eq hkind (hwf u List.mem_cons_self)
  refine ⟨.literal value', .literal hvalue, ?_⟩
  simp [tree?, getElem?_of_drop hdrop, literal?_eq_some_iff.mpr hvalue]

end Outline.Suits

/-- Whatever tokens form a nonterminal, all tokens of their kinds do so with one outline. -/
theorem Derives.exists_suits {n : Nonterminal} {ts : List Token} {e : Expr} (h : Derives n ts e)
    (i : Nat) : ∃ outline : Outline, outline.Suits n (ts.map (·.kind)) i := by
  induction h generalizing i with
  | expression _ ih => exact (ih i).imp fun _ h => h.imp .expression
  | operand _ ih => exact (ih i).imp fun _ h => h.imp .operand
  | primary _ ih => exact (ih i).imp fun _ h => h.imp .primary
  | @binary level ls rs l r t _ ht _ ihl ihr =>
    obtain ⟨left, hleft⟩ := ihl i
    obtain ⟨right, hright⟩ := ihr (i + (ls.map (·.kind)).length + 1)
    rw [List.map_append, List.map_cons]
    exact ⟨_, hleft.binary ht hright⟩
  | unary ht _ ih =>
    obtain ⟨outline, houtline⟩ := ih (i + 1)
    exact ⟨_, houtline.unary ht⟩
  | group ho _ hc ih =>
    obtain ⟨outline, houtline⟩ := ih (i + 1)
    rw [List.map_cons, List.map_append, List.map_singleton, ho, hc]
    exact ⟨_, houtline.group⟩
  | literal hv => exact ⟨.literal i, Outline.Suits.literal hv⟩

/-! ## Outlines of errors -/

namespace Correspondence

/-- A token on line `i` is the same as the one at position `i` of the given tokens. -/
def atPositions (tokens : List Token) : Correspondence where
  sameToken t u := t.kind = u.kind ∧ t.WellFormed ∧ u.WellFormed ∧
    ∃ i : Nat, t.line = i ∧ tokens[i]? = some u
  sameLine line line' := ∃ (i : Nat) (u : Token), line = i ∧ tokens[i]? = some u ∧ u.line = line'
  sameLiteral _ _ := True
  kind_eq h := h.1
  sameLine_of_token := by
    rintro t u ⟨-, -, -, i, hline, hu⟩
    exact ⟨i, u, hline, hu, rfl⟩
  sameLiteral_of_token := by
    rintro t u ⟨hkind, ht, hu, -⟩
    cases hvalue : t.literal? with
    | some value =>
      obtain ⟨value', hvalue'⟩ :=
        (literal?_eq_some_iff.mp hvalue).exists_of_kind_eq hkind.symm hu
      rw [literal?_eq_some_iff.mpr hvalue']
      exact .some trivial
    | none =>
      cases hvalue' : u.literal? with
      | none => exact .none
      | some value' =>
        obtain ⟨value, hvalue''⟩ := (literal?_eq_some_iff.mp hvalue').exists_of_kind_eq hkind ht
        rw [literal?_eq_some_iff.mpr hvalue''] at hvalue
        cases hvalue

/-- An error that arises for tokens on the lines of their positions is an outline. -/
theorem exists_outline_of_sameError (e : SyntaxError) :
    ∃ outline : ErrorOutline, ∀ {tokens e'}, (atPositions tokens).SameError e e' →
      outline.error? tokens = some e' := by
  cases e with
  | unclosedGroup line openLine =>
    refine ⟨.unclosedGroup line.toNat openLine.toNat, ?_⟩
    rintro tokens _ (⟨⟨i, t, rfl, ht, rfl⟩, ⟨j, opening, rfl, hopening, rfl⟩⟩ | _ | _ | _)
    simp [ErrorOutline.error?, ht, hopening]
  | notAnOperand token =>
    refine ⟨.notAnOperand token.line.toNat, ?_⟩
    rintro tokens _ (_ | ⟨-, -, -, i, hline, ht⟩ | _ | _)
    simp [ErrorOutline.error?, hline, ht]
  | missingOperand line =>
    refine ⟨.missingOperand line.toNat, ?_⟩
    rintro tokens _ (_ | _ | ⟨i, t, rfl, ht, rfl⟩ | _)
    simp [ErrorOutline.error?, ht]
  | emptyGroup line =>
    refine ⟨.emptyGroup line.toNat, ?_⟩
    rintro tokens _ (_ | _ | _ | ⟨i, t, rfl, ht, rfl⟩)
    simp [ErrorOutline.error?, ht]
  | custom => exact ⟨.missingOperand 0, nofun⟩

end Correspondence

/-- The tokens on the lines 0, 1, 2 and so on. -/
def numbered (tokens : List Token) : List Token :=
  tokens.mapIdx fun i t => { t with line := i }

theorem map_kind_numbered (tokens : List Token) :
    (numbered tokens).map (·.kind) = tokens.map (·.kind) := by
  apply List.ext_getElem?
  intro i
  simp [numbered, Function.comp_def]

theorem wellFormed_numbered {tokens : List Token} (h : ∀ t ∈ tokens, t.WellFormed) :
    ∀ t ∈ numbered tokens, t.WellFormed := by
  intro t ht
  obtain ⟨i, hi, rfl⟩ := List.mem_mapIdx.mp ht
  have hwf : tokens[i].WellFormed := h _ (List.getElem_mem hi)
  exact hwf

theorem sameToken_numbered {tokens tokens' : List Token}
    (hkinds : tokens'.map (·.kind) = tokens.map (·.kind)) (h : ∀ t ∈ tokens, t.WellFormed)
    (h' : ∀ t ∈ tokens', t.WellFormed) :
    List.Forall₂ (Correspondence.atPositions tokens').sameToken (numbered tokens) tokens' := by
  have hlength : tokens'.length = tokens.length := by
    simpa using congrArg List.length hkinds
  rw [List.forall₂_iff_get]
  refine ⟨by simp [numbered, hlength], fun i hi hi' => ?_⟩
  have hit : i < tokens.length := hlength ▸ hi'
  have hkind : tokens'[i].kind = tokens[i].kind := by
    have hget := congrArg (·[i]?) hkinds
    simpa [hi', hit] using hget
  refine ⟨?_, wellFormed_numbered h _ (List.get_mem _ _), h' _ (List.get_mem _ _), i, ?_, ?_⟩
  · simpa [numbered] using hkind.symm
  · simp [numbered]
  · simp

/-! ## Outlines of rounds -/

/-- A reader of well-formed tokens of the given kinds with its cursor at position `n`. -/
structure ExprReader.ReadsAt (kinds : List TokenKind) (n : Nat) (r : ExprReader) : Prop where
  kinds_eq : r.tokens.map (·.kind) = kinds
  wellFormed : ∀ t ∈ r.tokens, t.WellFormed
  position_eq : r.place.position = n

namespace ExprReader

variable {kinds : List TokenKind} {n : Nat} {r r' : ExprReader}

theorem ReadsAt.numbered (h : r.ReadsAt kinds n) :
    ReadsAt kinds n { r with tokens := LoxReader.numbered r.tokens } where
  kinds_eq := (map_kind_numbered r.tokens).trans h.kinds_eq
  wellFormed := wellFormed_numbered h.wellFormed
  position_eq := h.position_eq

theorem ReadsAt.kinds_remaining (h : r.ReadsAt kinds n) :
    r.remaining.map (·.kind) = kinds.drop n := by
  rw [remaining, List.map_drop, h.kinds_eq, h.position_eq]

theorem ReadsAt.isAtEnd_eq (h : r.ReadsAt kinds n) (h' : r'.ReadsAt kinds n) :
    r'.isAtEnd = r.isAtEnd := by
  have hkinds := h'.kinds_remaining.trans h.kinds_remaining.symm
  rw [isAtEnd, isAtEnd]
  cases hr : r.remaining with
  | nil =>
    rw [hr] at hkinds
    rw [List.map_eq_nil_iff.mp hkinds]
  | cons t rest =>
    rw [hr, List.map_cons] at hkinds
    obtain ⟨t', rest', hr', hkind, -⟩ := List.map_eq_cons_iff.mp hkinds
    rw [hr', atEnd, atEnd, hkind]

/-- Rounds that start at one position read up to one position, and the next rounds start at one
position too. -/
theorem round_positions {c : Correspondence}
    (htokens : List.Forall₂ c.sameToken r.remaining r'.remaining) (hend : r.isAtEnd = false)
    (hposition : r'.place.position = r.place.position) :
    c.SameResult r.readOne.1 r'.readOne.1 ∧ r'.round.stop = r.round.stop ∧
      r'.round.next = r.round.next := by
  obtain ⟨hresult, hrest⟩ := Correspondence.sameResult_readExpr htokens hend r.place r'.place
  rcases hone : r.readOne with ⟨result, stopped⟩
  rcases hone' : r'.readOne with ⟨result', stopped'⟩
  rw [(readExpr_of_readOne hone).1, (readExpr_of_readOne hone').1] at hresult hrest
  have hrest : List.Forall₂ c.sameToken stopped.remaining stopped'.remaining := hrest
  obtain ⟨passed, -, hsplit, hstop⟩ := exists_passed_readOne hone
  obtain ⟨passed', -, hsplit', hstop'⟩ := exists_passed_readOne hone'
  have hlength : passed'.length = passed.length := by
    have hall := htokens.length_eq
    rw [hsplit, hsplit', List.length_append, List.length_append, hrest.length_eq] at hall
    omega
  have hstopped : stopped'.place.position = stopped.place.position := by
    rw [hstop, hstop', hposition, hlength]
  refine ⟨hresult, ?_, ?_⟩
  · simp only [round, hone, hone', hstopped]
  · cases hresult with
    | ok => simp only [round, afterRound_of_ok hone, afterRound_of_ok hone', hstopped]
    | error =>
      simp only [round, position_afterRound_of_error hone, position_afterRound_of_error hone',
        hstopped, Correspondence.recoverySkip_eq hrest]

/-- Tokens that are read into a tree have an outline that serves all tokens of their kinds. -/
theorem ReadsAt.exists_outline_of_ok (h : r.ReadsAt kinds n) {tree : Expr} {next : ExprReader}
    (hone : r.readOne = (.ok tree, next)) :
    ∃ outline : Outline, ∀ {r'}, ReadsAt kinds n r' →
      ∃ tree', r'.readOne.1 = .ok tree' ∧ outline.tree? r'.tokens = some tree' := by
  obtain ⟨used, hsplit, hd, -, hrest⟩ := readExpr_eq_ok_iff.mp (readExpr_of_readOne hone).1
  obtain ⟨outline, houtline⟩ := hd.exists_suits n
  refine ⟨outline, fun {r'} h' => ?_⟩
  have hkinds : r'.remaining.map (·.kind) =
      used.map (·.kind) ++ next.remaining.map (·.kind) := by
    rw [h'.kinds_remaining, ← h.kinds_remaining, hsplit, List.map_append]
  obtain ⟨used', rest', hsplit', hused, hbehind⟩ := List.map_eq_append_iff.mp hkinds
  have hdrop : r'.tokens.drop n = used' ++ rest' := by rw [← hsplit', remaining, h'.position_eq]
  have hwf : ∀ u ∈ used', u.WellFormed := by
    intro u hu
    have hmem : u ∈ r'.tokens.drop n := hdrop ▸ List.mem_append_left rest' hu
    exact h'.wellFormed u (List.mem_of_mem_drop hmem)
  have hnext : ∀ u ∈ rest'.head?, u.kind ∉ binaryOperators := by
    intro u hu
    have hhead : u.kind ∈ (next.remaining.map (·.kind)).head? := by
      rw [← hbehind, List.head?_map, Option.mem_def.mp hu]
      rfl
    rw [List.head?_map] at hhead
    obtain ⟨t, ht, hkind⟩ := Option.map_eq_some_iff.mp hhead
    rw [← hkind]
    exact hrest t ht
  obtain ⟨tree', hd', htree⟩ := houtline hdrop hused hwf
  have hread : readExpr r'.place r'.remaining = ⟨.ok tree', r'.place.after used', rest'⟩ :=
    readExpr_eq_ok_iff.mpr ⟨used', hsplit', hd', rfl, hnext⟩
  exact ⟨tree', congrArg Reading.result hread, htree⟩

theorem ReadsAt.sameToken_numbered (h : r.ReadsAt kinds n) (h' : r'.ReadsAt kinds n) :
    List.Forall₂ (Correspondence.atPositions r'.tokens).sameToken
      (remaining { r with tokens := LoxReader.numbered r.tokens }) r'.remaining := by
  have hall := LoxReader.sameToken_numbered (h'.kinds_eq.trans h.kinds_eq.symm) h.wellFormed
    h'.wellFormed
  rw [remaining, remaining, h'.position_eq, ← h.position_eq]
  exact List.forall₂_drop _ hall

/-- The result of a round has an outline. -/
theorem ReadsAt.exists_outline_result (h : r.ReadsAt kinds n) (hend : r.isAtEnd = false) :
    ∃ outline, ∀ {r'}, ReadsAt kinds n r' →
      fillResult? r'.tokens outline = some r'.readOne.1 := by
  -- The tokens on the lines of their positions show where an error takes its lines from.
  let labelled : ExprReader := { r with tokens := LoxReader.numbered r.tokens }
  have hlabelled : labelled.ReadsAt kinds n := h.numbered
  have hend' : labelled.isAtEnd = false := (h.isAtEnd_eq hlabelled).trans hend
  rcases hone : labelled.readOne with ⟨e | tree, next⟩
  · obtain ⟨outline, houtline⟩ := Correspondence.exists_outline_of_sameError e
    refine ⟨.error outline, fun {r'} h' => ?_⟩
    have hposition : r'.place.position = labelled.place.position :=
      h'.position_eq.trans h.position_eq.symm
    obtain ⟨hresult, -, -⟩ := round_positions (h.sameToken_numbered h') hend' hposition
    have hresult : (Correspondence.atPositions r'.tokens).SameResult labelled.readOne.1
        r'.readOne.1 := hresult
    rw [hone] at hresult
    generalize r'.readOne.1 = result at hresult
    cases hresult with
    | error herror => rw [fillResult?, houtline herror, Option.map_some]
  · obtain ⟨outline, houtline⟩ := hlabelled.exists_outline_of_ok hone
    refine ⟨.ok outline, fun {r'} h' => ?_⟩
    obtain ⟨tree', hresult, htree⟩ := houtline h'
    rw [fillResult?, htree, hresult, Option.map_some]

/-- A round has an outline, and the next rounds start at one position. -/
theorem ReadsAt.exists_outline (h : r.ReadsAt kinds n) (hend : r.isAtEnd = false) :
    ∃ outline : Round ErrorOutline Outline, ∀ {r'}, ReadsAt kinds n r' →
      outline.fill? r'.tokens = some r'.round ∧ ReadsAt kinds outline.next r'.afterRound := by
  obtain ⟨result, hresult⟩ := h.exists_outline_result hend
  let labelled : ExprReader := { r with tokens := LoxReader.numbered r.tokens }
  have hend' : labelled.isAtEnd = false := (h.isAtEnd_eq h.numbered).trans hend
  refine ⟨⟨n, labelled.round.stop, labelled.round.next, result⟩, fun {r'} h' => ?_⟩
  have hposition : r'.place.position = labelled.place.position :=
    h'.position_eq.trans h.position_eq.symm
  obtain ⟨-, hstop, hnext⟩ := round_positions (h.sameToken_numbered h') hend' hposition
  constructor
  · rw [Round.fill?, hresult h', Option.map_some, ← hstop, ← hnext, ← h'.position_eq]
    rfl
  · rw [← hnext]
    exact ⟨by rw [tokens_afterRound, h'.kinds_eq], by rw [tokens_afterRound]; exact h'.wellFormed, rfl⟩

/-- The rounds have an outline. -/
theorem exists_outlines (kinds : List TokenKind) (n : Nat) :
    ∃ (outlines : List (Round ErrorOutline Outline)) (stop : Nat), ∀ {r}, ReadsAt kinds n r →
      r.rounds.map some = outlines.map (Round.fill? r.tokens) ∧
        r.readRest.2.place.position = stop := by
  by_cases hexists : ∃ r, ReadsAt kinds n r
  · obtain ⟨r, h⟩ := hexists
    induction r using rounds.induct generalizing n with
    | case1 r hend =>
      refine ⟨[], n, fun {r'} h' => ?_⟩
      have hend' : r'.isAtEnd = true := (h.isAtEnd_eq h').trans hend
      rw [rounds_of_isAtEnd hend', readRest_of_isAtEnd hend']
      exact ⟨rfl, h'.position_eq⟩
    | case2 r hend ih =>
      have hend := Bool.eq_false_iff.mpr hend
      obtain ⟨outline, houtline⟩ := h.exists_outline hend
      obtain ⟨outlines, stop, houtlines⟩ := ih outline.next (houtline h).2
      refine ⟨outline :: outlines, stop, fun {r'} h' => ?_⟩
      have hend' : r'.isAtEnd = false := (h.isAtEnd_eq h').trans hend
      obtain ⟨hround, hnext⟩ := houtline h'
      obtain ⟨hrounds, hstop⟩ := houtlines hnext
      rw [tokens_afterRound] at hrounds
      rw [rounds_of_not_isAtEnd hend', List.map_cons, List.map_cons, hround, hrounds,
        ← readRest_afterRound hend']
      exact ⟨rfl, hstop⟩
  · exact ⟨[], 0, fun h => absurd ⟨_, h⟩ hexists⟩

end ExprReader

/-! ## Renderings -/

namespace Correspondence

/-- Tokens that are the same but for their lines. -/
def content : Correspondence where
  sameToken t u := t.content = u.content
  sameLine _ _ := True
  sameLiteral := Eq
  kind_eq h := congrArg Prod.fst h
  sameLine_of_token _ := trivial
  sameLiteral_of_token := by
    intro t u h
    obtain ⟨hkind, hpayload⟩ := Prod.mk.inj h
    have hliteral : t.literal? = u.literal? := by simp only [Token.literal?, hkind, hpayload]
    rw [hliteral]
    cases u.literal? with
    | none => exact .none
    | some value => exact .some rfl

end Correspondence

/-- Renderings do not show lines. -/
theorem renderAll_readRest_congr {ts us : List Token}
    (h : ts.map Token.content = us.map Token.content) :
    Expr.renderAll (ExprReader.fresh ts).readRest.1 =
      Expr.renderAll (ExprReader.fresh us).readRest.1 := by
  have hsame : List.Forall₂ Correspondence.content.sameToken ts us := by
    rw [← List.forall₂_eq_eq_eq, List.forall₂_map_left_iff, List.forall₂_map_right_iff] at h
    exact h
  have htrees := (Correspondence.same_readAll hsame {} {}).1
  exact congrArg ("\n".intercalate)
    (Correspondence.map_render_eq (congrArg Literal.display) Token.display_of_content_eq htrees)

namespace ExprReader

/-- What reading everything does is decided by the kinds of the tokens. For each sequence of kinds
there is an outline of the rounds, and the rounds of any well-formed tokens of these kinds are that
outline filled with the tokens: they take and skip the same positions, the trees hold the tokens at
the same positions, and the same errors arise at the same positions, naming tokens at the same
positions and the lines of such tokens. So sources whose tokens differ only in their lines have the
same renderings. -/
theorem readRest_outline :
    (∀ kinds : List TokenKind, ∃ (outlines : List (Round ErrorOutline Outline)) (stop : Nat),
      ∀ tokens : List Token, tokens.map (·.kind) = kinds → (∀ t ∈ tokens, t.WellFormed) →
        let r := fresh tokens
        r.rounds.map some = outlines.map (Round.fill? tokens) ∧
          r.readRest.1 = r.rounds.filterMap Round.tree? ∧
          r.readRest.2.errors = r.rounds.filterMap Round.error? ∧
          r.readRest.2.place.position = stop) ∧
      ∀ (a b : String) (ts us : List Token), tokenize a = .ok ts → tokenize b = .ok us →
        ts.map Token.content = us.map Token.content →
        Expr.renderAll (fresh ts).readRest.1 = Expr.renderAll (fresh us).readRest.1 := by
  refine ⟨fun kinds => ?_, fun a b ts us _ _ hcontent => renderAll_readRest_congr hcontent⟩
  obtain ⟨outlines, stop, houtlines⟩ := exists_outlines kinds 0
  refine ⟨outlines, stop, ?_⟩
  intro tokens hkinds hwf r
  have hat : r.ReadsAt kinds 0 := ⟨hkinds, hwf, rfl⟩
  obtain ⟨hrounds, hstop⟩ := houtlines hat
  obtain ⟨htrees, herrors⟩ := r.readRest_eq_rounds
  exact ⟨hrounds, htrees, herrors, hstop⟩

end ExprReader

end LoxReader
