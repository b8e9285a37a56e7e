import LangFront.Syntax.Parse.Expr
/-!
# Reading programs

A program is read function by function until the stream ends. A function is the keyword
`function`, a name, parameters in parentheses separated by commas, a colon with the result type,
and a body in braces. A body holds declarations `var name: type = expression;` and returns
`return expression;`.

`Program.ofTokens` reads a list of tokens up to its first end token; the first token that cannot
continue the program stops the reading with an error.
-/

namespace LangFront

namespace Parse

open Token

/-- A phrase read from the front of `s` that took at least one token: the rest is shorter. -/
abbrev Taken (s : Stream) := { s' : Stream // s'.size < s.size }

/-- Read a parameter `name: type` if a name stands next. -/
def param? (s : Stream) : Except ParseError (Option (Param × Rest s)) :=
  match name? s with
  | .error e => .error e
  | .ok none => .ok none
  | .ok (some (x, ⟨s1, h1⟩)) =>
    match expect .colon .colon s1 with
    | .error e => .error e
    | .ok ⟨s2, h2⟩ =>
      match expectName .typeName s2 with
      | .error e => .error e
      | .ok (t, ⟨s3, h3⟩) => .ok (some (⟨x, t⟩, ⟨s3, by omega⟩))

/-- Read the parameters after the first one, each after a comma. -/
def moreParams (s : Stream) : Except ParseError (List Param × Rest s) :=
  match hc : s.accept? .comma with
  | none => .ok ([], Rest.self s)
  | some (_, s1) =>
    have h1 : s1.size < s.size := Stream.size_lt_of_accept? hc (by decide)
    match param? s1 with
    | .error e => .error e
    | .ok none => .error (stuck .parameter s1)
    | .ok (some (p, ⟨s2, h2⟩)) =>
      match moreParams s2 with
      | .error e => .error e
      | .ok (ps, ⟨s3, h3⟩) => .ok (p :: ps, ⟨s3, by omega⟩)
termination_by s.size

/-- Read a parameter list in parentheses. -/
def params (s : Stream) : Except ParseError (List Param × Rest s) :=
  match expect .openParen .openParen s with
  | .error e => .error e
  | .ok ⟨s1, h1⟩ =>
    let list : Except ParseError (List Param × Rest s1) :=
      match param? s1 with
      | .error e => .error e
      | .ok none => .ok ([], Rest.self s1)
      | .ok (some (p, ⟨s2, h2⟩)) =>
        match moreParams s2 with
        | .error e => .error e
        | .ok (ps, ⟨s3, h3⟩) => .ok (p :: ps, ⟨s3, by omega⟩)
    match list with
    | .error e => .error e
    | .ok (ps, ⟨s2, h2⟩) =>
      match expect .closeParen .closeParen s2 with
      | .error e => .error e
      | .ok ⟨s3, h3⟩ => .ok (ps, ⟨s3, by omega⟩)

/-- Read `var name: type = expression;` after the keyword `var`. -/
def declRest (s : Stream) : Except ParseError (Stmt × Rest s) :=
  match expectName .variableName s with
  | .error e => .error e
  | .ok (x, ⟨s1, h1⟩) =>
    match expect .colon .colon s1 with
    | .error e => .error e
    | .ok ⟨s2, h2⟩ =>
      match expectName .typeName s2 with
      | .error e => .error e
      | .ok (t, ⟨s3, h3⟩) =>
        match expect .equals .equalsSign s3 with
        | .error e => .error e
        | .ok ⟨s4, h4⟩ =>
          match expectExpr .expression s4 with
          | .error e => .error e
          | .ok (v, ⟨s5, h5⟩) =>
            match expect .semicolon .semicolon s5 with
            | .error e => .error e
            | .ok ⟨s6, h6⟩ =>
              .ok (.decl x t (some v), ⟨s6, Nat.le_trans h6 <| Nat.le_trans h5 <|
                Nat.le_trans h4 <| Nat.le_trans h3 <| Nat.le_trans h2 h1⟩)

/-- Read `return expression;` after the keyword `return`. -/
def retRest (s : Stream) : Except ParseError (Stmt × Rest s) :=
  match expectExpr .expression s with
  | .error e => .error e
  | .ok (v, r1) =>
    match expect .semicolon .semicolon r1.val with
    | .error e => .error e
    | .ok ⟨s2, h2⟩ => .ok (.ret v, ⟨s2, Nat.le_trans h2 r1.property⟩)

/-- Read a statement: a declaration or a return. -/
def stmt (s : Stream) : Except ParseError (Stmt × Taken s) :=
  match hv : s.accept? .kwVar with
  | some (_, s1) =>
    have h1 : s1.size < s.size := Stream.size_lt_of_accept? hv (by decide)
    match declRest s1 with
    | .error e => .error e
    | .ok (st, ⟨s2, h2⟩) => .ok (st, ⟨s2, Nat.lt_of_le_of_lt h2 h1⟩)
  | none =>
    match hr : s.accept? .kwReturn with
    | some (_, s1) =>
      have h1 : s1.size < s.size := Stream.size_lt_of_accept? hr (by decide)
      match retRest s1 with
      | .error e => .error e
      | .ok (st, ⟨s2, h2⟩) => .ok (st, ⟨s2, Nat.lt_of_le_of_lt h2 h1⟩)
    | none => .error (stuck .statement s)

/-- Read statements up to and with the closing brace. -/
def stmts (s : Stream) : Except ParseError (List Stmt × Rest s) :=
  match hc : s.accept? .closeBrace with
  | some (_, s1) => .ok ([], ⟨s1, Stream.size_le_of_accept? hc⟩)
  | none =>
    if s.hasEnded then .error (stuck .closeBrace s)
    else
      match stmt s with
      | .error e => .error e
      | .ok (st, ⟨s1, h1⟩) =>
        match stmts s1 with
        | .error e => .error e
        | .ok (sts, ⟨s2, h2⟩) => .ok (st :: sts, ⟨s2, by omega⟩)
termination_by s.size

/-- Read a body in braces. -/
def body (s : Stream) : Except ParseError (List Stmt × Rest s) :=
  match expect .openBrace .openBrace s with
  | .error e => .error e
  | .ok r1 =>
    match stmts r1.val with
    | .error e => .error e
    | .ok (sts, ⟨s2, h2⟩) => .ok (sts, ⟨s2, Nat.le_trans h2 r1.property⟩)

/-- Read a function definition after the keyword `function`. -/
def functionRest (s : Stream) : Except ParseError (FunctionDef × Rest s) :=
  match expectName .functionName s with
  | .error e => .error e
  | .ok (x, ⟨s1, h1⟩) =>
    match params s1 with
    | .error e => .error e
    | .ok (ps, ⟨s2, h2⟩) =>
      match expect .colon .colon s2 with
      | .error e => .error e
      | .ok ⟨s3, h3⟩ =>
        match expectName .returnType s3 with
        | .error e => .error e
        | .ok (t, ⟨s4, h4⟩) =>
          match body s4 with
          | .error e => .error e
          | .ok (sts, ⟨s5, h5⟩) => .ok (⟨x, ps, t, sts⟩, ⟨s5, by omega⟩)

/-- Read function definitions until the stream ends. -/
def functions (s : Stream) : Except ParseError (List FunctionDef) :=
  if s.hasEnded then .ok []
  else
    match hf : s.accept? .kwFunction with
    | none => .error (stuck .functionDefinition s)
    | some (_, s1) =>
      have h1 : s1.size < s.size := Stream.size_lt_of_accept? hf (by decide)
      match functionRest s1 with
      | .error e => .error e
      | .ok (f, ⟨s2, h2⟩) =>
        match functions s2 with
        | .error e => .error e
        | .ok fs => .ok (f :: fs)
termination_by s.size

end Parse

/-- Read a program from a stream of tokens. -/
def Program.ofStream (s : Token.Stream) : Except ParseError Program :=
  (Parse.functions s).map Program.mk

/-- Read a program from a list of tokens, up to its first end token. -/
def Program.ofTokens (ts : List Token) : Except ParseError Program :=
  Program.ofStream (Token.Stream.ofList ts)

end LangFront
