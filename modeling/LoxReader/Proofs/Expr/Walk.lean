import LoxReader.Expr.Sketch
import Mathlib.Algebra.GroupWithZero.Nat
import Mathlib.Data.List.TakeWhile
import Mathlib.Order.Bounds.Basic

/-! # Walks

Rendering and counting go through a sketch in the same order and break off at the same place, the
first foreign value. What is counted then are the nodes in front of it, in whatever order sketches
are visited and however many of the visits break off. -/

namespace LoxReader

/-- The kinds of nodes that are counted. -/
inductive NodeKind where
  | binary | unary | group | literal
deriving DecidableEq

namespace SketchNode

def foreign? : SketchNode → Option Bare
  | .foreign value => some value
  | _ => none

def isNode (node : SketchNode) : Bool :=
  node.foreign?.isNone

/-- The kind of a node, `none` for a foreign value. -/
def kind? : SketchNode → Option NodeKind
  | .foreign _ => none
  | .literal _ => some .literal
  | .group => some .group
  | .unary _ => some .unary
  | .binary _ => some .binary

theorem foreign?_eq_none {node : SketchNode} (h : ∀ b, node ≠ .foreign b) :
    node.foreign? = none := by
  cases node with
  | foreign b => exact absurd rfl (h b)
  | literal | group | unary | binary => rfl

theorem isNode_of_foreign?_eq_none {node : SketchNode} (h : node.foreign? = none) :
    node.isNode = true := by
  rw [isNode, h]
  rfl

end SketchNode

namespace Tally

def count (counts : Tally) : NodeKind → Nat
  | .binary => counts.binary
  | .unary => counts.unary
  | .group => counts.group
  | .literal => counts.literal

/-- The counts with one more node of a kind. -/
def add (counts : Tally) : NodeKind → Tally
  | .binary => { counts with binary := counts.binary + 1 }
  | .unary => { counts with unary := counts.unary + 1 }
  | .group => { counts with group := counts.group + 1 }
  | .literal => { counts with literal := counts.literal + 1 }

theorem count_add (counts : Tally) (kind kind' : NodeKind) :
    (counts.add kind).count kind' = counts.count kind' + if kind = kind' then 1 else 0 := by
  cases kind <;> cases kind' <;> rfl

end Tally

namespace Sketch

/-- The first foreign value in the order of a walk. -/
def firstForeign? (s : Sketch) : Option Bare :=
  s.nodes.findSome? SketchNode.foreign?

/-- The nodes in front of the first foreign value, or all nodes when there is none. -/
def visited (s : Sketch) : List SketchNode :=
  s.nodes.takeWhile SketchNode.isNode

/-- How many nodes of a kind stand in front of the first foreign value. -/
def visitedOf (kind : NodeKind) (s : Sketch) : Nat :=
  s.visited.countP (·.kind? = some kind)

/-- Visits one sketch after another with the same counts. -/
def visitAll (counts : Tally) (sketches : List Sketch) : Tally :=
  sketches.foldl (fun counts s => (s.visit counts).2) counts

/-- The nodes on a way from the root down to a literal. -/
inductive PathToLiteral : Sketch → List SketchNode → Prop where
  | literal {value} : PathToLiteral (.literal value) [.literal value]
  | group {inner path} : PathToLiteral inner path →
      PathToLiteral (.group inner) (.group :: path)
  | unary {operator operand path} : PathToLiteral operand path →
      PathToLiteral (.unary operator operand) (.unary operator :: path)
  | left {left operator right path} : PathToLiteral left path →
      PathToLiteral (.binary left operator right) (.binary operator :: path)
  | right {left operator right path} : PathToLiteral right path →
      PathToLiteral (.binary left operator right) (.binary operator :: path)

/-! ## The first foreign value -/

theorem firstForeign?_eq_none_iff {s : Sketch} :
    s.firstForeign? = none ↔ ∀ b, .foreign b ∉ s.nodes := by
  rw [firstForeign?, List.findSome?_eq_none_iff]
  constructor
  · intro h b hb
    cases h _ hb
  · exact fun h node hnode => SketchNode.foreign?_eq_none fun b hb => h b (hb ▸ hnode)

theorem firstForeign?_binary (left : Sketch) (operator : Token) (right : Sketch) :
    (binary left operator right).firstForeign? =
      left.firstForeign?.or right.firstForeign? := by
  rw [firstForeign?, nodes, List.findSome?_cons_of_isNone rfl]
  exact List.findSome?_append

/-- A sketch without a foreign value is a tree. -/
theorem exists_ofExpr {s : Sketch} (h : s.firstForeign? = none) : ∃ e, s = ofExpr e := by
  induction s with
  | foreign b => cases h
  | literal value => exact ⟨.literal value, rfl⟩
  | group inner ih =>
    obtain ⟨e, rfl⟩ := ih h
    exact ⟨.group e, rfl⟩
  | unary operator operand ih =>
    obtain ⟨e, rfl⟩ := ih h
    exact ⟨.unary operator e, rfl⟩
  | binary left operator right ihl ihr =>
    rw [firstForeign?_binary, Option.or_eq_none_iff] at h
    obtain ⟨l, rfl⟩ := ihl h.1
    obtain ⟨r, rfl⟩ := ihr h.2
    exact ⟨.binary l operator r, rfl⟩

/-! ## Results -/

theorem render_ofExpr (e : Expr) : (ofExpr e).render = .ok e.render := by
  induction e with
  | literal value => rfl
  | group inner ih => simp only [ofExpr, render, ih, Expr.render]
  | unary operator operand ih => simp only [ofExpr, render, ih, Expr.render]
  | binary left operator right ihl ihr => simp only [ofExpr, render, ihl, ihr, Expr.render]

theorem render_of_foreign {s : Sketch} {b : Bare} (h : s.firstForeign? = some b) :
    s.render = .error b := by
  induction s with
  | foreign value =>
    obtain rfl := Option.some.inj h
    rfl
  | literal => cases h
  | group inner ih => simp only [render, ih h]
  | unary operator operand ih => simp only [render, ih h]
  | binary left operator right ihl ihr =>
    rw [firstForeign?_binary, Option.or_eq_some_iff] at h
    rcases h with h | ⟨hleft, h⟩
    · simp only [render, ihl h]
    · obtain ⟨l, rfl⟩ := exists_ofExpr hleft
      simp only [render, render_ofExpr, ihr h]

theorem visit_group (inner : Sketch) (counts : Tally) :
    (group inner).visit counts =
      ((inner.visit (counts.add .group)).1.map (· + 1), (inner.visit (counts.add .group)).2) := by
  rw [visit, Tally.add]
  rcases inner.visit { counts with group := counts.group + 1 } with ⟨b | depth, counts'⟩ <;> rfl

theorem visit_unary (operator : Token) (operand : Sketch) (counts : Tally) :
    (unary operator operand).visit counts =
      ((operand.visit (counts.add .unary)).1.map (· + 1),
        (operand.visit (counts.add .unary)).2) := by
  rw [visit, Tally.add]
  rcases operand.visit { counts with unary := counts.unary + 1 } with ⟨b | depth, counts'⟩ <;> rfl

theorem visit_binary_of_ok {left : Sketch} {counts : Tally} {depth : Nat}
    (h : (left.visit (counts.add .binary)).1 = .ok depth) (operator : Token) (right : Sketch) :
    (binary left operator right).visit counts =
      ((right.visit (left.visit (counts.add .binary)).2).1.map (max depth · + 1),
        (right.visit (left.visit (counts.add .binary)).2).2) := by
  rw [visit]
  rw [Tally.add] at h ⊢
  generalize left.visit { counts with binary := counts.binary + 1 } = visited at h ⊢
  obtain ⟨result, counts'⟩ := visited
  obtain rfl : result = .ok depth := h
  dsimp only
  rcases right.visit counts' with ⟨b | depth', counts''⟩ <;> rfl

theorem visit_binary_of_error {left : Sketch} {counts : Tally} {b : Bare}
    (h : (left.visit (counts.add .binary)).1 = .error b) (operator : Token) (right : Sketch) :
    (binary left operator right).visit counts =
      (.error b, (left.visit (counts.add .binary)).2) := by
  rw [visit]
  rw [Tally.add] at h ⊢
  generalize left.visit { counts with binary := counts.binary + 1 } = visited at h ⊢
  obtain ⟨result, counts'⟩ := visited
  obtain rfl : result = .error b := h
  rfl

theorem visit_ofExpr (e : Expr) (counts : Tally) :
    ((ofExpr e).visit counts).1 = .ok e.depth := by
  induction e generalizing counts with
  | literal value => rfl
  | group inner ih =>
    rw [ofExpr, visit_group, ih]
    rfl
  | unary operator operand ih =>
    rw [ofExpr, visit_unary, ih]
    rfl
  | binary left operator right ihl ihr =>
    rw [ofExpr, visit_binary_of_ok (ihl _), ihr]
    rfl

theorem visit_of_foreign {s : Sketch} {b : Bare} (h : s.firstForeign? = some b) (counts : Tally) :
    (s.visit counts).1 = .error b := by
  induction s generalizing counts with
  | foreign value =>
    obtain rfl := Option.some.inj h
    rfl
  | literal => cases h
  | group inner ih =>
    rw [visit_group, ih h]
    rfl
  | unary operator operand ih =>
    rw [visit_unary, ih h]
    rfl
  | binary left operator right ihl ihr =>
    rw [firstForeign?_binary, Option.or_eq_some_iff] at h
    rcases h with h | ⟨hleft, h⟩
    · rw [visit_binary_of_error (ihl h _)]
    · obtain ⟨l, rfl⟩ := exists_ofExpr hleft
      rw [visit_binary_of_ok (visit_ofExpr l _), ihr h]
      rfl

theorem exists_render_eq_ok_iff {s : Sketch} :
    (∃ text, s.render = .ok text) ↔ s.firstForeign? = none := by
  constructor
  · rintro ⟨text, hrender⟩
    cases hs : s.firstForeign? with
    | none => rfl
    | some b => cases (render_of_foreign hs).symm.trans hrender
  · intro hs
    obtain ⟨e, rfl⟩ := exists_ofExpr hs
    exact ⟨e.render, render_ofExpr e⟩

theorem exists_visit_eq_ok_iff {s : Sketch} {counts : Tally} :
    (∃ depth, (s.visit counts).1 = .ok depth) ↔ s.firstForeign? = none := by
  constructor
  · rintro ⟨depth, hvisit⟩
    cases hs : s.firstForeign? with
    | none => rfl
    | some b => cases (visit_of_foreign hs counts).symm.trans hvisit
  · intro hs
    obtain ⟨e, rfl⟩ := exists_ofExpr hs
    exact ⟨e.depth, visit_ofExpr e counts⟩

/-! ## Counts -/

theorem visited_group (inner : Sketch) :
    (group inner).visited = .group :: inner.visited := rfl

theorem visited_unary (operator : Token) (operand : Sketch) :
    (unary operator operand).visited = .unary operator :: operand.visited := rfl

theorem isNode_of_mem_nodes {s : Sketch} (h : s.firstForeign? = none) :
    ∀ node ∈ s.nodes, node.isNode = true :=
  fun node hnode =>
    SketchNode.isNode_of_foreign?_eq_none (List.findSome?_eq_none_iff.mp h node hnode)

theorem visited_of_none {s : Sketch} (h : s.firstForeign? = none) : s.visited = s.nodes :=
  List.takeWhile_eq_self_iff.mpr (isNode_of_mem_nodes h)

theorem visited_binary_of_none {left : Sketch} (h : left.firstForeign? = none) (operator : Token)
    (right : Sketch) : (binary left operator right).visited =
      .binary operator :: (left.visited ++ right.visited) := by
  rw [visited_of_none h, visited, visited, nodes, List.takeWhile_cons_of_pos rfl,
    List.takeWhile_append_of_pos (isNode_of_mem_nodes h)]

/-- The right child is not reached when the left one holds a foreign value. -/
theorem visited_binary_of_some {left : Sketch} {b : Bare} (h : left.firstForeign? = some b)
    (operator : Token) (right : Sketch) :
    (binary left operator right).visited = .binary operator :: left.visited := by
  obtain ⟨front, node, back, hnodes, hnode, hfront⟩ := List.findSome?_eq_some_iff.mp h
  have hpos : ∀ node ∈ front, node.isNode = true :=
    fun node hmem => SketchNode.isNode_of_foreign?_eq_none (hfront node hmem)
  have hneg : ¬ node.isNode = true := by
    rw [SketchNode.isNode, hnode]
    exact Bool.false_ne_true
  rw [visited, visited, nodes, List.takeWhile_cons_of_pos rfl, hnodes, List.append_assoc,
    List.takeWhile_append_of_pos hpos, List.takeWhile_append_of_pos hpos, List.cons_append,
    List.takeWhile_cons_of_neg hneg, List.takeWhile_cons_of_neg hneg]

theorem visitedOf_of_visited_cons {s : Sketch} {node : SketchNode} {kind kind' : NodeKind}
    {rest : List SketchNode} (h : s.visited = node :: rest) (hkind : node.kind? = some kind') :
    s.visitedOf kind =
      (if kind' = kind then 1 else 0) + rest.countP (·.kind? = some kind) := by
  rw [visitedOf, h, List.countP_cons, Nat.add_comm, hkind]
  simp only [Option.some.injEq, decide_eq_true_eq]

/-- A visit adds the nodes in front of the first foreign value to the counts. -/
theorem count_visit (s : Sketch) (counts : Tally) (kind : NodeKind) :
    (s.visit counts).2.count kind = counts.count kind + s.visitedOf kind := by
  induction s generalizing counts with
  | foreign b => rfl
  | literal value => cases kind <;> rfl
  | group inner ih =>
    rw [visit_group, ih, Tally.count_add, visitedOf_of_visited_cons (visited_group inner) rfl,
      Nat.add_assoc, visitedOf]
  | unary operator operand ih =>
    rw [visit_unary, ih, Tally.count_add,
      visitedOf_of_visited_cons (visited_unary operator operand) rfl, Nat.add_assoc, visitedOf]
  | binary left operator right ihl ihr =>
    cases h : left.firstForeign? with
    | none =>
      obtain ⟨l, rfl⟩ := exists_ofExpr h
      rw [visit_binary_of_ok (visit_ofExpr l _), ihr, ihl, Tally.count_add,
        visitedOf_of_visited_cons (visited_binary_of_none h operator right) rfl,
        List.countP_append, visitedOf, visitedOf]
      omega
    | some b =>
      rw [visit_binary_of_error (visit_of_foreign h _), ihl, Tally.count_add,
        visitedOf_of_visited_cons (visited_binary_of_some h operator right) rfl, Nat.add_assoc,
        visitedOf]

theorem count_visitAll (sketches : List Sketch) (counts : Tally) (kind : NodeKind) :
    (visitAll counts sketches).count kind =
      counts.count kind + (sketches.map (visitedOf kind)).sum := by
  induction sketches generalizing counts with
  | nil => rfl
  | cons s sketches ih =>
    rw [visitAll, List.foldl_cons, ← visitAll, ih, count_visit, List.map_cons, List.sum_cons,
      Nat.add_assoc]

/-! ## Depths -/

/-- The lengths of the ways from the root down to a literal. -/
def pathLengths (s : Sketch) : Set Nat :=
  {length | ∃ path, s.PathToLiteral path ∧ path.length = length}

theorem depth_mem_pathLengths (e : Expr) : e.depth ∈ (ofExpr e).pathLengths := by
  induction e with
  | literal value => exact ⟨_, .literal, rfl⟩
  | group inner ih =>
    obtain ⟨path, hpath, hlength⟩ := ih
    exact ⟨_, .group hpath, congrArg (· + 1) hlength⟩
  | unary operator operand ih =>
    obtain ⟨path, hpath, hlength⟩ := ih
    exact ⟨_, .unary hpath, congrArg (· + 1) hlength⟩
  | binary left operator right ihl ihr =>
    obtain ⟨leftPath, hleftPath, hleft⟩ := ihl
    obtain ⟨rightPath, hrightPath, hright⟩ := ihr
    rcases Nat.le_total left.depth right.depth with hle | hle
    · refine ⟨_, .right hrightPath, ?_⟩
      rw [List.length_cons, hright, Expr.depth, Nat.max_eq_right hle]
    · refine ⟨_, .left hleftPath, ?_⟩
      rw [List.length_cons, hleft, Expr.depth, Nat.max_eq_left hle]

theorem PathToLiteral.length_le {e : Expr} {path : List SketchNode}
    (h : (ofExpr e).PathToLiteral path) : path.length ≤ e.depth := by
  induction e generalizing path with
  | literal value =>
    cases h
    exact Nat.le_refl 1
  | group inner ih =>
    cases h with
    | group h => exact Nat.succ_le_succ (ih h)
  | unary operator operand ih =>
    cases h with
    | unary h => exact Nat.succ_le_succ (ih h)
  | binary left operator right ihl ihr =>
    cases h with
    | left h => exact Nat.succ_le_succ ((ihl h).trans (Nat.le_max_left _ _))
    | right h => exact Nat.succ_le_succ ((ihr h).trans (Nat.le_max_right _ _))

theorem isGreatest_depth (e : Expr) : IsGreatest (ofExpr e).pathLengths e.depth := by
  refine ⟨depth_mem_pathLengths e, ?_⟩
  rintro _ ⟨path, hpath, rfl⟩
  exact hpath.length_le

/-! ## Both walks -/

section Split

variable {s : Sketch} {front back : List SketchNode} {b : Bare}

theorem foreign?_eq_none_of_mem_front (hfront : ∀ b', .foreign b' ∉ front) :
    ∀ node ∈ front, node.foreign? = none :=
  fun _ hmem => SketchNode.foreign?_eq_none fun b hb => hfront b (hb ▸ hmem)

theorem firstForeign?_of_split (hnodes : s.nodes = front ++ .foreign b :: back)
    (hfront : ∀ b', .foreign b' ∉ front) : s.firstForeign? = some b :=
  List.findSome?_eq_some_iff.mpr
    ⟨front, .foreign b, back, hnodes, rfl, foreign?_eq_none_of_mem_front hfront⟩

theorem visited_of_split (hnodes : s.nodes = front ++ .foreign b :: back)
    (hfront : ∀ b', .foreign b' ∉ front) : s.visited = front := by
  have hpos : ∀ node ∈ front, node.isNode = true := fun node hmem =>
    SketchNode.isNode_of_foreign?_eq_none (foreign?_eq_none_of_mem_front hfront node hmem)
  rw [visited, hnodes, List.takeWhile_append_of_pos hpos,
    List.takeWhile_cons_of_neg Bool.false_ne_true, List.append_nil]

end Split

/-- Rendering and counting both succeed on just the sketches without a foreign value, and fail
with the first foreign value otherwise. Counts over several visits add up to the nodes in front of
the first foreign value of each, and a visit that succeeds gives the length of a longest way from
the root to a literal. -/
theorem walks_account :
    (∀ (s : Sketch) (counts : Tally),
      ((∃ text, s.render = .ok text) ↔ ∀ b, .foreign b ∉ s.nodes) ∧
      ((∃ depth, (s.visit counts).1 = .ok depth) ↔ ∀ b, .foreign b ∉ s.nodes) ∧
      (∀ depth, (s.visit counts).1 = .ok depth → IsGreatest s.pathLengths depth) ∧
      ((∀ b, .foreign b ∉ s.nodes) → s.visited = s.nodes) ∧
      ∀ front b back, s.nodes = front ++ .foreign b :: back → (∀ b', .foreign b' ∉ front) →
        s.render = .error b ∧ (s.visit counts).1 = .error b ∧ s.visited = front ∧
        b.unhandledMessage = "Unhandled expression node: " ++ b.typeName) ∧
    ∀ (sketches : List Sketch) (kind : NodeKind),
      (visitAll {} sketches).count kind = (sketches.map (visitedOf kind)).sum := by
  refine ⟨fun s counts => ⟨?_, ?_, ?_, ?_, ?_⟩, fun sketches kind => ?_⟩
  · rw [exists_render_eq_ok_iff, firstForeign?_eq_none_iff]
  · rw [exists_visit_eq_ok_iff, firstForeign?_eq_none_iff]
  · intro depth hvisit
    obtain ⟨e, rfl⟩ := exists_ofExpr (exists_visit_eq_ok_iff.mp ⟨depth, hvisit⟩)
    obtain rfl : e.depth = depth := Except.ok.inj ((visit_ofExpr e counts).symm.trans hvisit)
    exact isGreatest_depth e
  · exact fun hnone => visited_of_none (firstForeign?_eq_none_iff.mpr hnone)
  · intro front b back hnodes hfront
    have hfirst := firstForeign?_of_split hnodes hfront
    exact ⟨render_of_foreign hfirst, visit_of_foreign hfirst counts,
      visited_of_split hnodes hfront, rfl⟩
  · rw [count_visitAll]
    cases kind <;> exact Nat.zero_add _

end Sketch

end LoxReader
