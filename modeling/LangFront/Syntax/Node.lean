import LangFront.Syntax.Tree
/-!
# Nodes of a program and their walk

Every part of a program is a node: the program, a function, a name (of a function, parameter,
type or variable), a parameter, a body, a statement and an expression. The children of a node
are its parts in text order: a function has its name, its parameters, its result type and its
body; a parameter its name and type; a declaration its name, type and initial value if any; an
operator application its two operands.

`Node.preorder` lists a node and then, child by child, everything below it.
`Node.descendants` computes the same list with a stack: it pops the top node, emits it, and
pushes its children last to first, so that the first child is popped next. It ends because the
stack's total size (`Node.size`, the number of nodes below and at a node) shrinks by one at
each step.
-/

namespace LangFront

/-- A node of a program. -/
inductive Node where
  | program (t : Program)
  | function (f : FunctionDef)
  | name (s : String)
  | param (p : Param)
  | block (body : List Stmt)
  | stmt (s : Stmt)
  | expr (e : Expr)
deriving DecidableEq, Repr

namespace Node

/-- The parts of a node, in text order. -/
def children : Node → List Node
  | .program t => t.functions.map .function
  | .function f => [.name f.name] ++ f.params.map .param ++ [.name f.result, .block f.body]
  | .name _ => []
  | .param p => [.name p.name, .name p.type]
  | .block body => body.map .stmt
  | .stmt (.decl x t init) => [.name x, .name t] ++ (init.map .expr).toList
  | .stmt (.ret e) => [.expr e]
  | .expr (.bin _ l r) => [.expr l, .expr r]
  | .expr _ => []

end Node

/-- Sizes are added up from this zero, the same whatever other instances are in scope. -/
local instance (priority := high) zeroSize : Zero Nat := ⟨0⟩

/-- The number of nodes of an expression. -/
def Expr.size : Expr → Nat
  | .bin _ l r => l.size + r.size + 1
  | _ => 1

/-- The number of nodes of a statement. -/
def Stmt.size : Stmt → Nat
  | .decl _ _ init => 3 + (match init with
      | some e => e.size
      | none => 0)
  | .ret e => 1 + e.size

/-- The number of nodes of a body, the body's own node included. -/
def Stmt.blockSize (body : List Stmt) : Nat := 1 + (body.map Stmt.size).sum

/-- The number of nodes of a function definition. -/
def FunctionDef.size (f : FunctionDef) : Nat :=
  3 + 3 * f.params.length + Stmt.blockSize f.body

namespace Node

/-- The number of nodes at and below a node. -/
def size : Node → Nat
  | .program t => 1 + (t.functions.map FunctionDef.size).sum
  | .function f => f.size
  | .name _ => 1
  | .param _ => 3
  | .block body => Stmt.blockSize body
  | .stmt s => s.size
  | .expr e => e.size

theorem sum_map_size_function (fs : List FunctionDef) :
    ((fs.map Node.function).map size).sum = (fs.map FunctionDef.size).sum := by
  induction fs with
  | nil => rfl
  | cons f fs ih => simp only [List.map_cons, List.sum_cons, size, ih]

theorem sum_map_size_param (ps : List Param) : ((ps.map Node.param).map size).sum = 3 * ps.length := by
  induction ps with
  | nil => rfl
  | cons p ps ih =>
    simp only [List.map_cons, List.sum_cons, size, ih, List.length_cons]
    omega

theorem sum_map_size_stmt (body : List Stmt) :
    ((body.map Node.stmt).map size).sum = (body.map Stmt.size).sum := by
  induction body with
  | nil => rfl
  | cons s body ih => simp only [List.map_cons, List.sum_cons, size, ih]

theorem sum_map_size_children (n : Node) : (n.children.map size).sum + 1 = n.size := by
  cases n with
  | program t =>
    simp only [children, size, sum_map_size_function]
    omega
  | function f =>
    simp only [children, size, FunctionDef.size, Stmt.blockSize, List.map_append,
      List.sum_append, sum_map_size_param, List.map_cons, List.map_nil, List.sum_cons,
      List.sum_nil]
    omega
  | name s => rfl
  | param p => rfl
  | block body =>
    simp only [children, size, Stmt.blockSize, sum_map_size_stmt]
    omega
  | stmt s =>
    cases s with
    | decl x t init =>
      cases init with
      | none => rfl
      | some e =>
        simp only [children, size, Stmt.size, List.map_append, List.sum_append, List.map_cons,
          List.map_nil, List.sum_cons, List.sum_nil, Option.map_some, Option.toList_some]
        omega
    | ret e =>
      simp only [children, size, Stmt.size, List.map_cons, List.map_nil, List.sum_cons,
        List.sum_nil]
      omega
  | expr e =>
    cases e with
    | bin op l r =>
      simp only [children, size, Expr.size, List.map_cons, List.map_nil, List.sum_cons,
        List.sum_nil]
      omega
    | lit n => rfl
    | var x => rfl

theorem sum_map_size_pop {stack : Array Node} {n : Node} (h : stack.back? = some n) :
    (stack.pop.toList.map size).sum + n.size = (stack.toList.map size).sum := by
  obtain ⟨rest, rfl⟩ := Array.back?_eq_some_iff.1 h
  simp only [Array.pop_push, Array.toList_push, List.map_append, List.sum_append, List.map_cons,
    List.map_nil, List.sum_cons, List.sum_nil]
  omega

/-- Walk a stack whose top is its last node: pop the top node, emit it, and push its children
in reverse order, so that its first child is the next to be popped. -/
def walk (stack : Array Node) (out : Array Node) : Array Node :=
  match h : stack.back? with
  | none => out
  | some n =>
    have _ := sum_map_size_children n
    have _ := sum_map_size_pop h
    walk (stack.pop ++ n.children.reverse.toArray) (out.push n)
termination_by (stack.toList.map size).sum
decreasing_by
  simp only [Array.toList_append, List.map_append, List.sum_append,
    List.map_reverse, List.sum_reverse]
  omega

/-- A node and everything below it, computed with a stack that starts with the node alone. -/
def descendants (n : Node) : List Node :=
  (walk #[n] #[]).toList

end Node

/-- An expression and everything below it, parents first. -/
def Expr.preorder : Expr → List Node
  | .bin op l r => .expr (.bin op l r) :: (l.preorder ++ r.preorder)
  | e => [.expr e]

/-- A statement and everything below it, parents first. -/
def Stmt.preorder : Stmt → List Node
  | .decl x t init =>
    .stmt (.decl x t init) :: .name x :: .name t ::
      (match init with
       | some e => e.preorder
       | none => [])
  | .ret e => .stmt (.ret e) :: e.preorder

/-- A parameter and its two names. -/
def Param.preorder (p : Param) : List Node :=
  [.param p, .name p.name, .name p.type]

/-- A function definition and everything below it, parents first. -/
def FunctionDef.preorder (f : FunctionDef) : List Node :=
  .function f :: .name f.name :: f.params.flatMap Param.preorder ++
    [.name f.result, .block f.body] ++ f.body.flatMap Stmt.preorder

/-- A program and everything below it, parents first. -/
def Program.preorder (t : Program) : List Node :=
  .program t :: t.functions.flatMap FunctionDef.preorder

/-- A node and everything below it, parents first and children in text order. -/
def Node.preorder : Node → List Node
  | .program t => t.preorder
  | .function f => f.preorder
  | .name s => [.name s]
  | .param p => p.preorder
  | .block body => .block body :: body.flatMap Stmt.preorder
  | .stmt s => s.preorder
  | .expr e => e.preorder

end LangFront
