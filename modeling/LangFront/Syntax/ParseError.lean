import LangFront.Token.Basic
/-!
# Parse errors

The parser stops at the first token that cannot continue the program. The error names what was
expected there (`Reason`) and keeps that token, which has not been read: the error's location is
the token's location, and its message names the token by its display.
-/

namespace LangFront

/-- What the parser expected, or why it gave up, at the token where it stopped. -/
inductive Reason where
  | functionDefinition
  | functionName
  | openParen
  | closeParen
  | parameter
  | colon
  | typeName
  | returnType
  | openBrace
  | closeBrace
  | statement
  | variableName
  | equalsSign
  | expression
  | rightOperand
  | semicolon
  /-- An expression nested or grown beyond the parser's bounds. -/
  | tooDeep
  /-- A name token that carries no name. -/
  | nameMissing
  /-- A number token that carries no number. -/
  | valueMissing
deriving DecidableEq, Repr

/-- The words that report a reason. -/
def Reason.text : Reason → String
  | .functionDefinition => "expected a function definition"
  | .functionName => "expected a function name"
  | .openParen => "expected an open parenthesis"
  | .closeParen => "expected a close parenthesis"
  | .parameter => "expected a parameter"
  | .colon => "expected a colon"
  | .typeName => "expected a type"
  | .returnType => "expected a return type"
  | .openBrace => "expected an open brace"
  | .closeBrace => "expected a close brace"
  | .statement => "expected a statement"
  | .variableName => "expected a variable name"
  | .equalsSign => "expected an equals sign"
  | .expression => "expected an expression"
  | .rightOperand => "expected right operand"
  | .semicolon => "expected a semicolon"
  | .tooDeep => "expression nested too deeply"
  | .nameMissing => "identifier token has no name"
  | .valueMissing => "number token has no value"

/-- Why a list of tokens is no program, and the token where the parser stopped. -/
structure ParseError where
  reason : Reason
  found : Token
deriving DecidableEq, Repr

namespace ParseError

/-- Where the parser stopped: the location of the token it found there. -/
def location (e : ParseError) : Location := e.found.location

/-- The message that reports the error. -/
def message (e : ParseError) : String :=
  s!"Parse error at line {e.location.line}, column {e.location.column}: {e.reason.text}, found {e.found.display}"

end ParseError

end LangFront
