import LoxReader.Proofs.Expr.Alike
import LoxReader.Proofs.Expr.Recovery
import LoxReader.Proofs.Scan.Separate

/-! # Renderings identify trees

No rendering is the beginning of another one: a node is told by its tag, an operator ends in front
of a blank, and a literal ends in front of the parenthesis that closes its node, where a string has
to be passed as a whole first. So the text of several trees determines each of them, whatever
their strings hold. -/

namespace LoxReader

open Number Text

/-! ## Operators -/

theorem TokenKind.text_injective {k k' : TokenKind} (h : k.text = k'.text) : k = k' := by
  have hfind : ∀ k : TokenKind, TokenKind.all.find? (·.text == k.text) = some k := by
    intro k
    cases k <;> decide
  have hk := hfind k
  rw [h, hfind k'] at hk
  exact (Option.some.inj hk).symm

theorem TokenKind.blank_not_mem_text (k : TokenKind) : ' ' ∉ k.text.toList := by
  cases k <;> decide

/-- A token that is displayed as its kind. -/
def Token.ShowsKind (t : Token) : Prop :=
  t.kind ≠ .number ∧ t.kind ≠ .string ∧ t.kind ≠ .identifier

theorem Token.ShowsKind.display {t : Token} (h : t.ShowsKind) : t.display = t.kind.text := by
  obtain ⟨kind, line, payload⟩ := t
  obtain ⟨hnumber, hstring, hidentifier⟩ := h
  cases kind with
  | number => exact absurd rfl hnumber
  | string => exact absurd rfl hstring
  | identifier => exact absurd rfl hidentifier
  | _ => rfl

theorem Token.ShowsKind.display_append_inj {t t' : Token} (h : t.ShowsKind) (h' : t'.ShowsKind)
    {s s' : List Char} (heq : t.display.toList ++ ' ' :: s = t'.display.toList ++ ' ' :: s') :
    t.kind = t'.kind ∧ s = s' := by
  rw [h.display, h'.display] at heq
  obtain ⟨htext, hrest⟩ :=
    append_cons_inj t.kind.blank_not_mem_text t'.kind.blank_not_mem_text heq
  exact ⟨TokenKind.text_injective (String.toList_inj.mp htext), hrest⟩

theorem Token.showsKind_of_operator {t : Token}
    (h : t.kind = .bang ∨ t.kind ∈ binaryOperators) : t.ShowsKind := by
  have hkinds : ∀ k, k = .bang ∨ k ∈ binaryOperators →
      k ≠ TokenKind.number ∧ k ≠ .string ∧ k ≠ .identifier := by
    intro k
    cases k <;> decide
  exact hkinds t.kind h

/-! ## Literals -/

namespace Literal

/-- A literal that can be told from its display form: a string has to end where its second quote
stands, and NaN is not even equal to itself. -/
def Readable : Literal → Prop
  | .number x => x.isNaN = false
  | .string s => doubleQuote ∉ s.toList
  | .boolean _ | .nil => True

/-- Words are no numbers. -/
theorem exists_letter_mem_display {a : Literal} (h : a.kind = .boolean ∨ a.kind = .nil) :
    ∃ c ∈ a.display.toList, isNumberChar c = false := by
  cases a with
  | number | string => simp [kind] at h
  | boolean b =>
    cases b with
    | true => exact ⟨'u', by decide, by decide⟩
    | false => exact ⟨'l', by decide, by decide⟩
  | nil => exact ⟨'l', by decide, by decide⟩

theorem isNumberChar_of_mem_display {x : Binary64} {c : Char}
    (h : c ∈ (number x).display.toList) : isNumberChar c = true := by
  rw [display, String.toList_ofList] at h
  exact Binary64.isNumberChar_of_mem_display h

/-- Other literals than strings hold neither a quote nor a closing parenthesis. -/
theorem not_mem_display_of_kind_ne {a : Literal} (h : a.kind ≠ .string) :
    doubleQuote ∉ a.display.toList ∧ ')' ∉ a.display.toList := by
  cases a with
  | number x =>
    constructor
    · exact fun hc => absurd (isNumberChar_of_mem_display hc) (by decide)
    · exact fun hc => absurd (isNumberChar_of_mem_display hc) (by decide)
  | string s => exact absurd rfl h
  | boolean b => cases b <;> decide
  | nil => decide

/-- Literals other than strings are determined by their display forms. -/
theorem equals_of_display_eq {a b : Literal} (ha : a.Readable) (hka : a.kind ≠ .string)
    (hkb : b.kind ≠ .string) (h : a.display = b.display) : a.equals b = true := by
  have hword {x : Binary64} {c : Literal} (hc : c.kind = .boolean ∨ c.kind = .nil)
      (h : (number x).display = c.display) : False := by
    obtain ⟨letter, hmem, hletter⟩ := exists_letter_mem_display hc
    rw [← h] at hmem
    rw [isNumberChar_of_mem_display hmem] at hletter
    cases hletter
  cases a with
  | string s => exact absurd rfl hka
  | number x =>
    cases b with
    | string s => exact absurd rfl hkb
    | number y =>
      have hsame := Binary64.sameValue_of_display_eq (String.ofList_injective h)
      have hnan : x.isNaN = false := ha
      simp [equals, equalsBy, Binary64.equals, hnan, hsame]
    | boolean b => exact (hword (.inl rfl) h).elim
    | nil => exact (hword (.inr rfl) h).elim
  | boolean p =>
    cases b with
    | string s => exact absurd rfl hkb
    | number y => exact (hword (.inl rfl) h.symm).elim
    | boolean q =>
      revert h
      cases p <;> cases q <;> decide
    | nil =>
      revert h
      cases p <;> decide
  | nil =>
    cases b with
    | string s => exact absurd rfl hkb
    | number y => exact (hword (.inr rfl) h.symm).elim
    | boolean q =>
      revert h
      cases q <;> decide
    | nil => rfl

theorem toList_display_string (s : String) :
    (string s).display.toList = doubleQuote :: (s.toList ++ [doubleQuote]) := by
  simp only [display, String.toList_append]
  rfl

/-- A string starts with a quote, and nothing else that closes its node does. -/
theorem display_append_ne {a : Literal} (h : a.kind ≠ .string) (s t : List Char) :
    a.display.toList ++ ')' :: s ≠ doubleQuote :: t := by
  intro heq
  cases hdisplay : a.display.toList with
  | nil =>
    rw [hdisplay] at heq
    exact absurd (List.cons.inj heq).1 (by decide)
  | cons c rest =>
    rw [hdisplay] at heq
    apply (not_mem_display_of_kind_ne h).1
    rw [hdisplay, ← (List.cons.inj heq).1]
    exact List.mem_cons_self

/-- In front of the parenthesis that closes its node, a literal is told from what follows. -/
theorem display_append_inj {a b : Literal} (ha : a.Readable) (hb : b.Readable) {s t : List Char}
    (h : a.display.toList ++ ')' :: s = b.display.toList ++ ')' :: t) :
    a.equals b = true ∧ s = t := by
  by_cases hka : a.kind = .string
  · by_cases hkb : b.kind = .string
    · cases a with
      | string x =>
        cases b with
        | string y =>
          simp only [toList_display_string, List.cons_append, List.append_assoc, List.nil_append,
            List.cons.injEq, true_and] at h
          obtain ⟨hbody, hrest⟩ := append_cons_inj ha hb h
          obtain rfl := String.toList_inj.mp hbody
          exact ⟨beq_self_eq_true x, (List.cons.inj hrest).2⟩
        | _ => cases hkb
      | _ => cases hka
    · cases a with
      | string x =>
        rw [toList_display_string] at h
        exact absurd h.symm (display_append_ne hkb _ _)
      | _ => cases hka
  · by_cases hkb : b.kind = .string
    · cases b with
      | string y =>
        rw [toList_display_string] at h
        exact absurd h (display_append_ne hka _ _)
      | _ => cases hkb
    · obtain ⟨hdisplay, hrest⟩ := append_cons_inj (not_mem_display_of_kind_ne hka).2
        (not_mem_display_of_kind_ne hkb).2 h
      exact ⟨equals_of_display_eq ha hka hkb (String.toList_inj.mp hdisplay), hrest⟩

end Literal

/-! ## Trees -/

namespace Expr

/-- A tree that can be told from its rendering. -/
def Readable : Expr → Prop :=
  Holds Literal.Readable Token.ShowsKind

/-- Trees that are equal up to the lines and the payloads of their operators, with numbers compared
as numbers. -/
def SameUpToOperators : Expr → Expr → Prop :=
  Alike (fun a b => a.equals b = true) (fun t u => t.kind = u.kind)

/-- A tree is told from what follows its rendering. Nodes of different kinds have different tags. -/
theorem render_append_inj {a b : Expr} (ha : a.Readable) (hb : b.Readable) {s t : List Char}
    (h : a.render.toList ++ s = b.render.toList ++ t) : a.SameUpToOperators b ∧ s = t := by
  -- What follows has to stay arbitrary: behind a left operand it holds the right one.
  induction a generalizing b s t with
  | literal x =>
    cases b with
    | literal y =>
      simp only [render, String.toList_append, String.reduceToList, List.cons_append,
        List.nil_append, List.append_assoc, List.cons.injEq, true_and] at h
      obtain ⟨hvalue, hrest⟩ := Literal.display_append_inj ha hb h
      exact ⟨.literal hvalue, hrest⟩
    | _ => simp [render] at h
  | group a ih =>
    cases b with
    | group b =>
      simp only [render, String.toList_append, String.reduceToList, List.cons_append,
        List.nil_append, List.append_assoc, List.cons.injEq, true_and] at h
      have hb : b.Readable := hb
      obtain ⟨hinner, hrest⟩ := ih ha hb h
      exact ⟨.group hinner, (List.cons.inj hrest).2⟩
    | _ => simp [render] at h
  | unary t a ih =>
    cases b with
    | unary u b =>
      simp only [render, String.toList_append, String.reduceToList, List.cons_append,
        List.nil_append, List.append_assoc, List.cons.injEq, true_and] at h
      obtain ⟨hoperator, hrest⟩ := Token.ShowsKind.display_append_inj ha.1 hb.1 h
      obtain ⟨hoperand, hrest⟩ := ih ha.2 hb.2 hrest
      exact ⟨.unary hoperator hoperand, (List.cons.inj hrest).2⟩
    | _ => simp [render] at h
  | binary l t r ihl ihr =>
    cases b with
    | binary l' u r' =>
      simp only [render, String.toList_append, String.reduceToList, List.cons_append,
        List.nil_append, List.append_assoc, List.cons.injEq, true_and] at h
      obtain ⟨hoperator, hrest⟩ := Token.ShowsKind.display_append_inj ha.2.1 hb.2.1 h
      obtain ⟨hleft, hrest⟩ := ihl ha.1 hb.1 hrest
      obtain ⟨hright, hrest⟩ := ihr ha.2.2 hb.2.2 (List.cons.inj hrest).2
      exact ⟨.binary hleft hoperator hright, (List.cons.inj hrest).2⟩
    | _ => simp [render] at h

/-! ## Lists of trees -/

theorem toList_renderAll_cons (e : Expr) (es : List Expr) :
    (renderAll (e :: es)).toList =
      e.render.toList ++ es.flatMap fun e => '\n' :: e.render.toList := by
  rw [renderAll, List.map_cons, toList_intercalate_cons, List.flatMap_map]
  rfl

theorem render_ne_empty (e : Expr) : e.render ≠ "" := by
  intro h
  have hlist := congrArg String.toList h
  cases e <;> simp [render] at hlist

theorem toList_renderAll_cons_ne_nil (e : Expr) (es : List Expr) :
    (renderAll (e :: es)).toList ≠ [] := by
  rw [toList_renderAll_cons]
  intro h
  exact e.render_ne_empty (String.toList_eq_nil_iff.mp (List.append_eq_nil_iff.mp h).1)

/-- Behind the first tree, the trees of two texts are the same one after another. -/
theorem sameUpToOperators_of_flatMap_eq {es es' : List Expr} (hes : ∀ e ∈ es, e.Readable)
    (hes' : ∀ e ∈ es', e.Readable)
    (h : (es.flatMap fun e => '\n' :: e.render.toList) =
      es'.flatMap fun e => '\n' :: e.render.toList) :
    List.Forall₂ SameUpToOperators es es' := by
  induction es generalizing es' with
  | nil =>
    cases es' with
    | nil => exact .nil
    | cons e' es' => simp at h
  | cons e es ih =>
    cases es' with
    | nil => simp at h
    | cons e' es' =>
      simp only [List.flatMap_cons, List.cons_append, List.cons.injEq, true_and] at h
      obtain ⟨hfirst, hrest⟩ := render_append_inj (hes e List.mem_cons_self)
        (hes' e' List.mem_cons_self) h
      exact .cons hfirst (ih (fun e he => hes e (List.mem_cons_of_mem _ he))
        (fun e he => hes' e (List.mem_cons_of_mem _ he)) hrest)

theorem sameUpToOperators_of_renderAll_eq {es es' : List Expr} (hes : ∀ e ∈ es, e.Readable)
    (hes' : ∀ e ∈ es', e.Readable) (h : renderAll es = renderAll es') :
    List.Forall₂ SameUpToOperators es es' := by
  have hlist := congrArg String.toList h
  cases es with
  | nil =>
    cases es' with
    | nil => exact .nil
    | cons e' es' => exact absurd hlist.symm (toList_renderAll_cons_ne_nil e' es')
  | cons e es =>
    cases es' with
    | nil => exact absurd hlist (toList_renderAll_cons_ne_nil e es)
    | cons e' es' =>
      rw [toList_renderAll_cons, toList_renderAll_cons] at hlist
      obtain ⟨hfirst, hrest⟩ := render_append_inj (hes e List.mem_cons_self)
        (hes' e' List.mem_cons_self) hlist
      exact .cons hfirst (sameUpToOperators_of_flatMap_eq
        (fun e he => hes e (List.mem_cons_of_mem _ he))
        (fun e he => hes' e (List.mem_cons_of_mem _ he)) hrest)

end Expr

/-! ## Trees that are read -/

theorem Literal.Plain.readable {a : Literal} (h : a.Plain) : a.Readable := by
  cases a with
  | number x =>
    obtain ⟨rank, rfl⟩ := h
    exact Binary64.isNaN_ofRank false rank
  | string s => exact h
  | boolean b => trivial
  | nil => trivial

theorem Literal.Plain.eq_of_equals {a b : Literal} (ha : a.Plain) (hb : b.Plain)
    (h : a.equals b = true) : a = b := by
  cases a with
  | number x =>
    cases b with
    | number y =>
      obtain ⟨r, rfl⟩ := ha
      obtain ⟨r', rfl⟩ := hb
      exact congrArg number (Binary64.ofRank_eq_of_equals h)
    | _ => cases h
  | string x =>
    cases b with
    | string y => exact congrArg string (beq_iff_eq.mp h)
    | _ => cases h
  | boolean p =>
    cases b with
    | boolean q => exact congrArg boolean (beq_iff_eq.mp h)
    | _ => cases h
  | nil =>
    cases b with
    | nil => rfl
    | _ => cases h

namespace ExprReader

/-- The trees that are read consist of tokens. -/
theorem ReadsTrees.exists_derives {r stop : ExprReader} {trees : List Expr}
    (h : ReadsTrees r trees stop) :
    ∀ tree ∈ trees, ∃ used, used ⊆ r.tokens ∧ Derives .expression used tree := by
  induction h with
  | nil => simp
  | @cons r next stop tree trees _ hone _ ih =>
    obtain ⟨hread, hnext⟩ := readExpr_of_readOne hone
    obtain ⟨used, hused, hd, -, -⟩ := readExpr_eq_ok_iff.mp hread
    intro tree' htree
    rcases List.mem_cons.mp htree with rfl | htree
    · refine ⟨used, ?_, hd⟩
      intro t ht
      apply List.mem_of_mem_drop (i := r.place.position)
      rw [← remaining, hused]
      exact List.mem_append_left _ ht
    · rw [hnext] at ih
      exact ih tree' htree

/-- The trees that are read from a source have plain literals and bare operators. -/
theorem ReadsTrees.plain {source : List Char} {r stop : ExprReader} {trees : List Expr}
    (h : ReadsTrees r trees stop) (hr : r.tokens = (scan source).allTokens) :
    ∀ tree ∈ trees,
      tree.Holds Literal.Plain fun t => t.ShowsKind ∧ t.payload = none := by
  intro tree htree
  obtain ⟨used, hused, hd⟩ := h.exists_derives tree htree
  have hplain (t : Token) (ht : t ∈ used) : t.Plain := plain_of_mem_scan (hr ▸ hused ht)
  refine hd.holds (fun t ht => (hplain t ht).literal) fun t ht hoperator => ⟨?_, ?_⟩
  · exact Token.showsKind_of_operator hoperator
  · exact (hplain t ht).operator hoperator

end ExprReader

namespace Expr

/-- The renderings of several trees determine them, up to what their operators carry besides their
kind. In particular they determine all that is read from a source, up to the lines of operators. -/
theorem renderAll_identifies :
    (∀ es es' : List Expr, (∀ e ∈ es, e.Readable) → (∀ e ∈ es', e.Readable) →
      renderAll es = renderAll es' → List.Forall₂ SameUpToOperators es es') ∧
    ∀ (source source' : List Char) (r r' : ExprReader),
      r.tokens = (scan source).allTokens → r'.tokens = (scan source').allTokens →
      renderAll r.readRest.1 = renderAll r'.readRest.1 →
      List.Forall₂ (Alike Eq fun t u => t.kind = u.kind ∧ t.payload = u.payload)
        r.readRest.1 r'.readRest.1 := by
  refine ⟨fun es es' hes hes' => sameUpToOperators_of_renderAll_eq hes hes', ?_⟩
  intro source source' r r' hr hr' heq
  obtain ⟨trees, stop, hreads, htrees, -⟩ := r.readRest_errors
  obtain ⟨trees', stop', hreads', htrees', -⟩ := r'.readRest_errors
  rw [htrees, htrees'] at heq ⊢
  have hplain := hreads.plain hr
  have hplain' := hreads'.plain hr'
  have hreadable {e : Expr} (h : e.Holds Literal.Plain fun t => t.ShowsKind ∧ t.payload = none) :
      e.Readable :=
    h.imp (fun _ => Literal.Plain.readable) fun _ => And.left
  have hsame := sameUpToOperators_of_renderAll_eq (fun e he => hreadable (hplain e he))
    (fun e he => hreadable (hplain' e he)) heq
  rw [List.forall₂_iff_zip] at hsame ⊢
  refine ⟨hsame.1, fun hzip => ?_⟩
  obtain ⟨he, he'⟩ := List.of_mem_zip hzip
  refine (hsame.2 hzip).refine (hplain _ he) (hplain' _ he') ?_ ?_
  · exact fun a b ha hb => ha.eq_of_equals hb
  · exact fun t u ht hu hkind => ⟨hkind, ht.2.trans hu.2.symm⟩

/-- A string that reads like a rendering, numbers that differ in the sign of zero, and two sources
that differ in the line of an operator. -/
theorem renderAll_identifies_zeros_and_lines :
    List.Forall₂ SameUpToOperators
      [.unary ⟨.minus, 1, none⟩ (.literal (.number (.finite false ⟨0, by decide⟩))),
        .literal (.string "a)\n(Literal b")]
      [.unary ⟨.minus, 7, some (.text "x")⟩ (.literal (.number (.finite true ⟨0, by decide⟩))),
        .literal (.string "a)\n(Literal b")] ∧
    List.Forall₂ (Alike Eq fun t u => t.kind = u.kind ∧ t.payload = u.payload)
      (ExprReader.mk (scan ['!', 'n', 'i', 'l']).allTokens {} []).readRest.1
      (ExprReader.mk (scan ['\n', '!', 'n', 'i', 'l']).allTokens {} []).readRest.1 := by
  constructor
  · have hbody : doubleQuote ∉ "a)\n(Literal b".toList := by decide
    apply renderAll_identifies.1
    · simpa [Readable, Holds, Token.ShowsKind, Literal.Readable, Binary64.isNaN] using hbody
    · simpa [Readable, Holds, Token.ShowsKind, Literal.Readable, Binary64.isNaN] using hbody
    · decide +kernel
  · have hscan : (scan ['!', 'n', 'i', 'l']).allTokens =
        [⟨.bang, 1, none⟩, ⟨.kwNil, 1, none⟩, .endOn 1] := by
      have hbang : (Cursor.atStart ['!', 'n', 'i', 'l']).step =
          (some (.ok ⟨.bang, 1, none⟩), ⟨['n', 'i', 'l'], 1, 1⟩) := rfl
      have hnil : (Cursor.mk ['n', 'i', 'l'] 1 1).step =
          (some (.ok ⟨.kwNil, 1, none⟩), ⟨[], 4, 1⟩) := rfl
      have hstop : (Cursor.mk [] 4 1).step = (none, ⟨[], 4, 1⟩) := rfl
      simp only [scan, Cursor.run_of_step_some hbang, Cursor.run_of_step_some hnil,
        Cursor.run_of_step_none hstop]
      rfl
    have hscan' : (scan ['\n', '!', 'n', 'i', 'l']).allTokens =
        [⟨.bang, 2, none⟩, ⟨.kwNil, 2, none⟩, .endOn 2] := by
      have hbang : (Cursor.atStart ['\n', '!', 'n', 'i', 'l']).step =
          (some (.ok ⟨.bang, 2, none⟩), ⟨['n', 'i', 'l'], 2, 2⟩) := rfl
      have hnil : (Cursor.mk ['n', 'i', 'l'] 2 2).step =
          (some (.ok ⟨.kwNil, 2, none⟩), ⟨[], 5, 2⟩) := rfl
      have hstop : (Cursor.mk [] 5 2).step = (none, ⟨[], 5, 2⟩) := rfl
      simp only [scan, Cursor.run_of_step_some hbang, Cursor.run_of_step_some hnil,
        Cursor.run_of_step_none hstop]
      rfl
    apply renderAll_identifies.2 ['!', 'n', 'i', 'l'] ['\n', '!', 'n', 'i', 'l'] _ _ rfl rfl
    rw [hscan, hscan', ExprReader.readRest_of_ok rfl rfl, ExprReader.readRest_of_isAtEnd rfl,
      ExprReader.readRest_of_ok rfl rfl, ExprReader.readRest_of_isAtEnd rfl]
    decide

end Expr

end LoxReader
