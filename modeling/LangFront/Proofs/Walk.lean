import LangFront.Syntax.Node
import Mathlib.Algebra.Order.BigOperators.Group.List
import Mathlib.Algebra.Order.Group.Nat
/-!
# The stack walk is the pre-order

`Node.descendants` pops the top node off a stack, emits it, and pushes its children last to
first. Read from the top down, the stack holds what is left of the pre-order: the pre-orders of
its nodes, top first (`Node.walk_eq`). So the walk is the pre-order `Node.preorder`.

Said without the per-kind pre-order: the walk of a node is the node followed by the walks of its
children in order, and it is the only list function that is, since a child has fewer nodes than
its parent (`Node.descendants_eq_pre`). Each node below a node is met exactly once: the walk has
as many entries as the node has nodes.
-/

namespace LangFront.Node

theorem size_lt_of_mem_children {n c : Node} (hc : c ∈ n.children) : c.size < n.size := by
  have hle : c.size ≤ (n.children.map size).sum := List.le_sum_of_mem (List.mem_map_of_mem hc)
  have := sum_map_size_children n
  omega

theorem children_induction {P : Node → Prop} (step : ∀ n, (∀ c ∈ n.children, P c) → P n)
    (n : Node) : P n := by
  induction hk : n.size using Nat.strong_induction_on generalizing n with
  | _ k ih =>
    apply step n
    intro c hc
    exact ih c.size (hk ▸ size_lt_of_mem_children hc) c rfl

theorem preorder_eq_cons (n : Node) : n.preorder = n :: n.children.flatMap preorder := by
  cases n with
  | program t => simp [preorder, Program.preorder, children, List.flatMap_map]
  | function f => simp [preorder, FunctionDef.preorder, children, List.flatMap_map]
  | name s => rfl
  | param p => rfl
  | block body => simp [preorder, children, List.flatMap_map]
  | stmt s =>
    cases s with
    | decl x t init => cases init <;> simp [preorder, Stmt.preorder, children]
    | ret e => simp [preorder, Stmt.preorder, children]
  | expr e =>
    cases e with
    | bin op l r => simp [preorder, Expr.preorder, children]
    | lit n => rfl
    | var x => rfl

/-- The stack walk emits, after what it has emitted, the pre-orders of its stack from the top
down: popping a node and pushing its children last to first is one step of the pre-order. -/
theorem walk_eq (stack : Array Node) (out : Array Node) :
    walk stack out = out ++ (stack.toList.reverse.flatMap preorder).toArray := by
  fun_induction walk stack out with
  | case1 stack out h =>
    rw [Array.back?_eq_none_iff] at h
    simp [h]
  | case2 stack out n h _ _ ih =>
    obtain ⟨rest, rfl⟩ := Array.back?_eq_some_iff.1 h
    have hstack : ((rest.push n).pop ++ n.children.reverse.toArray).toList.reverse =
        n.children ++ rest.toList.reverse := by
      simp [Array.pop_push]
    rw [ih, hstack, Array.toList_push, List.reverse_append, List.reverse_singleton,
      List.singleton_append, List.flatMap_cons, preorder_eq_cons n]
    simp [List.flatMap_append]

theorem descendants_eq_preorder (n : Node) : n.descendants = n.preorder := by
  simp [descendants, walk_eq]

theorem descendants_eq_cons (n : Node) : n.descendants = n :: n.children.flatMap descendants := by
  rw [descendants_eq_preorder, preorder_eq_cons]
  congr 1
  exact List.flatMap_congr fun c _ => (descendants_eq_preorder c).symm

theorem eq_descendants_of_eq_cons {pre : Node → List Node}
    (hpre : ∀ n, pre n = n :: n.children.flatMap pre) (n : Node) : pre n = n.descendants := by
  induction n using children_induction with
  | step n ih =>
    rw [hpre, descendants_eq_cons]
    congr 1
    exact List.flatMap_congr ih

/-- The walk meets every node below a node once: it has as many entries as the node has
nodes. -/
theorem length_descendants (n : Node) : n.descendants.length = n.size := by
  induction n using children_induction with
  | step n ih =>
    rw [descendants_eq_cons, List.length_cons, List.length_flatMap, List.map_congr_left ih,
      sum_map_size_children]

/-- The stack walk is the recursive pre-order: the walk of every node is the node followed by the
walks of its children in their order, the walk is the only list function with that property, and
it meets each node below a node exactly once. -/
theorem descendants_eq_pre :
    (∀ n : Node, n.descendants = n :: n.children.flatMap descendants) ∧
    (∀ pre : Node → List Node, (∀ n, pre n = n :: n.children.flatMap pre) → pre = descendants) ∧
    ∀ n : Node, n.descendants.length = n.size :=
  ⟨descendants_eq_cons, fun _ hpre => funext (eq_descendants_of_eq_cons hpre),
    length_descendants⟩

/-- The per-kind pre-order puts each node before the pre-orders of its children, so it is the
walk. -/
theorem preorder_is_pre :
    (∀ n, preorder n = n :: n.children.flatMap preorder) ∧ preorder = descendants :=
  ⟨preorder_eq_cons, descendants_eq_pre.2.1 preorder preorder_eq_cons⟩

end LangFront.Node
