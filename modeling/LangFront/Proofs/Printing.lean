import LangFront.Layout.Render
/-!
# The printer writes the rendering

`Program.format` prints layout pieces through a printer state; `Program.render` writes the same
text directly. They agree for every program and every width (`Program.format_eq_render`). A
`Formatter` prints into a printer of its own and leaves a fresh one after each program, so one
formatter reused on programs in turn writes the rendering of each (`Formatter.format_is_render`).

Every line of a layout starts with a text that is not empty: a function header with
`function `, a statement with its keyword, a closing brace with the brace, and the empty line
between two functions holds no text at all. So the printer indents the statement lines by one
level and nothing else, and an empty name in the middle of a line changes nothing.
-/

namespace LangFront.Layout.Printer

@[simp] theorem step_text (w : Nat) (out : String) (level : Nat) (s : String) :
    Printer.step w ⟨out, level, false⟩ (.text s) = ⟨out ++ s, level, false⟩ := by
  by_cases hs : s.isEmpty
  · simp [Printer.step, Printer.write, String.isEmpty_iff.1 hs]
  · simp [Printer.step, Printer.write, hs]

theorem step_text_lineStart (w : Nat) (out : String) (level : Nat) {s : String} (hs : s ≠ "") :
    Printer.step w ⟨out, level, true⟩ (.text s) =
      ⟨out ++ String.ofList (List.replicate (level * w) ' ') ++ s, level, false⟩ := by
  have : s.isEmpty = false := String.isEmpty_eq_false_iff.2 hs
  simp [Printer.step, Printer.write, this]

@[simp] theorem step_newline (w : Nat) (out : String) (level : Nat) (b : Bool) :
    Printer.step w ⟨out, level, b⟩ .newline = ⟨out ++ "\n", level, true⟩ := by
  simp [Printer.step, String.push_eq_append]

@[simp] theorem step_indent (w : Nat) (out : String) (level : Nat) (b : Bool) :
    Printer.step w ⟨out, level, b⟩ .indent = ⟨out, level + 1, b⟩ := rfl

@[simp] theorem step_dedent (w : Nat) (out : String) (level : Nat) (b : Bool) :
    Printer.step w ⟨out, level, b⟩ .dedent = ⟨out, level - 1, b⟩ := rfl

end LangFront.Layout.Printer

namespace LangFront

open Layout Printer

theorem Expr.fold_layout (w : Nat) (out : String) (level : Nat) (e : Expr) :
    e.layout.foldl (Printer.step w) ⟨out, level, false⟩ = ⟨out ++ e.render, level, false⟩ := by
  induction e generalizing out with
  | lit n => simp [Expr.layout, Expr.render]
  | var x => simp [Expr.layout, Expr.render]
  | bin op l r ihl ihr =>
    simp only [Expr.layout, Expr.render, List.foldl_append]
    cases hl : l.isBin <;> cases hr : r.isBin <;>
      simp [parenthesize, ihl, ihr, ← String.append_assoc]

theorem Stmt.fold_layout (w : Nat) (out : String) (st : Stmt) :
    st.layout.foldl (Printer.step w) ⟨out, 1, true⟩ =
      ⟨out ++ (String.ofList (List.replicate w ' ') ++ st.render ++ "\n"), 1, true⟩ := by
  cases st with
  | decl x t init =>
    cases init with
    | none =>
      simp [Stmt.layout, Stmt.render, step_text_lineStart, String.append_assoc]
    | some e =>
      simp [Stmt.layout, Stmt.render, step_text_lineStart, List.foldl_append, Expr.fold_layout,
        String.append_assoc]
  | ret e =>
    simp [Stmt.layout, Stmt.render, step_text_lineStart, List.foldl_append, Expr.fold_layout,
      String.append_assoc]

theorem Stmt.fold_layouts (w : Nat) (out : String) (sts : List Stmt) :
    (sts.flatMap Stmt.layout).foldl (Printer.step w) ⟨out, 1, true⟩ =
      ⟨out ++ String.join (sts.map fun s =>
        String.ofList (List.replicate w ' ') ++ s.render ++ "\n"), 1, true⟩ := by
  induction sts generalizing out with
  | nil => simp
  | cons st sts ih =>
    rw [List.flatMap_cons, List.foldl_append, Stmt.fold_layout, ih]
    simp [String.join_cons, String.append_assoc]

theorem Param.fold_layouts (w : Nat) (out : String) (level : Nat) (ps : List Param) :
    (joinWith [.text ", "] (ps.map Param.layout)).foldl (Printer.step w) ⟨out, level, false⟩ =
      ⟨out ++ ", ".intercalate (ps.map fun p => p.name ++ ": " ++ p.type), level, false⟩ := by
  induction ps generalizing out with
  | nil => simp [joinWith]
  | cons p ps ih =>
    cases ps with
    | nil => simp [joinWith, Param.layout, String.append_assoc]
    | cons q qs =>
      rw [List.map_cons, List.map_cons, joinWith, ← List.map_cons, List.foldl_append,
        List.foldl_append]
      · simp only [Param.layout, List.foldl_cons, List.foldl_nil, step_text]
        rw [ih]
        simp [String.append_assoc]
      · simp

theorem FunctionDef.fold_layout (w : Nat) (out : String) (f : FunctionDef) :
    f.layout.foldl (Printer.step w) ⟨out, 0, true⟩ = ⟨out ++ f.render w, 0, true⟩ := by
  simp only [FunctionDef.layout, List.foldl_append, List.foldl_cons, List.foldl_nil]
  rw [step_text_lineStart w out 0 (by decide)]
  simp only [step_text, Param.fold_layouts, step_newline, step_indent, Nat.zero_add,
    Stmt.fold_layouts, step_dedent, Nat.sub_self]
  rw [step_text_lineStart _ _ 0 (by decide)]
  unfold FunctionDef.render
  simp [String.append_assoc]

theorem FunctionDef.fold_layouts (w : Nat) (out : String) (fs : List FunctionDef) :
    (joinWith [.newline] (fs.map FunctionDef.layout)).foldl (Printer.step w) ⟨out, 0, true⟩ =
      ⟨out ++ "\n".intercalate (fs.map (FunctionDef.render w)), 0, true⟩ := by
  induction fs generalizing out with
  | nil => simp [joinWith]
  | cons f fs ih =>
    cases fs with
    | nil => simp [joinWith, FunctionDef.fold_layout]
    | cons g gs =>
      rw [List.map_cons, List.map_cons, joinWith, ← List.map_cons, List.foldl_append,
        List.foldl_append, FunctionDef.fold_layout, List.foldl_cons, List.foldl_nil,
        step_newline, ih]
      · simp [String.append_assoc]
      · simp

/-- Printing the layout of a program gives its rendering. -/
theorem Program.format_eq_render (opts : FormatOptions) (t : Program) :
    t.format opts = t.render opts.indentWidth := by
  have h := FunctionDef.fold_layouts opts.indentWidth "" t.functions
  simp only [String.empty_append] at h
  simp only [Program.format, print, Program.layout, Program.render]
  rw [show ({} : Printer) = ⟨"", 0, true⟩ from rfl, h]

end LangFront

namespace LangFront.Formatter

theorem format_new (opts : FormatOptions) (t : Program) :
    (Formatter.new opts).format t = (t.render opts.indentWidth, Formatter.new opts) := by
  rw [← Program.format_eq_render]
  rfl

theorem formatAll_new (opts : FormatOptions) (ts : List Program) :
    (Formatter.new opts).formatAll ts = ts.map (Program.render opts.indentWidth) := by
  induction ts with
  | nil => rfl
  | cons t ts ih => simp only [formatAll, format_new, List.map_cons, ih]

/-- The formatter is the pure rendering: a new formatter with indentation width `w` formats a
program to its rendering, and one formatter reused on any programs in turn formats each to its
rendering. -/
theorem format_is_render (w : Nat) (t : Program) (ts : List Program) :
    ((Formatter.new ⟨w⟩).format t).1 = t.render w ∧
      (Formatter.new ⟨w⟩).formatAll ts = ts.map (Program.render w) :=
  ⟨congrArg Prod.fst (format_new ⟨w⟩ t), formatAll_new ⟨w⟩ ts⟩

end LangFront.Formatter
