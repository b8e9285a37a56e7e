/-!
# Token kinds

Every token of the language has one of thirty-four kinds: names, numbers, the end of the text,
punctuation, arithmetic and comparison operators, and six keywords. Names and numbers carry a
payload; the end of the text carries nothing; every other kind has one fixed spelling, its
lexeme.

The main fact here is that a keyword is looked up by its whole spelling
(`Kind.keyword?_lexeme`).
-/

namespace LangFront.Token

/-- The kind of a token. -/
inductive Kind where
  | identifier
  | number
  | endOfFile
  | openParen
  | closeParen
  | openBrace
  | closeBrace
  | openBracket
  | closeBracket
  | colon
  | semicolon
  | comma
  | dot
  | plus
  | minus
  | asterisk
  | slash
  | equals
  | equalsEquals
  | notEquals
  | lessThan
  | lessThanOrEqual
  | greaterThan
  | greaterThanOrEqual
  | ampersand
  | pipe
  | ampersandAmpersand
  | pipePipe
  | kwFunction
  | kwVar
  | kwIf
  | kwElse
  | kwFor
  | kwReturn
deriving DecidableEq, Repr, Inhabited

namespace Kind

/-- The fixed spelling of a kind; names, numbers and the end of the text have none. -/
def lexeme? : Kind → Option String
  | .identifier | .number | .endOfFile => none
  | .openParen => some "("
  | .closeParen => some ")"
  | .openBrace => some "\x7b"
  | .closeBrace => some "\x7d"
  | .openBracket => some "["
  | .closeBracket => some "]"
  | .colon => some ":"
  | .semicolon => some ";"
  | .comma => some ","
  | .dot => some "."
  | .plus => some "+"
  | .minus => some "-"
  | .asterisk => some "*"
  | .slash => some "/"
  | .equals => some "="
  | .equalsEquals => some "=="
  | .notEquals => some "!="
  | .lessThan => some "<"
  | .lessThanOrEqual => some "<="
  | .greaterThan => some ">"
  | .greaterThanOrEqual => some ">="
  | .ampersand => some "&"
  | .pipe => some "|"
  | .ampersandAmpersand => some "&&"
  | .pipePipe => some "||"
  | .kwFunction => some "function"
  | .kwVar => some "var"
  | .kwIf => some "if"
  | .kwElse => some "else"
  | .kwFor => some "for"
  | .kwReturn => some "return"

/-- The keywords with their spellings, in the order in which a name is looked up. -/
def keywords : List (String × Kind) :=
  [("function", .kwFunction), ("var", .kwVar), ("if", .kwIf), ("else", .kwElse),
   ("for", .kwFor), ("return", .kwReturn)]

/-- The keyword spelt exactly `s`, if there is one. -/
def keyword? (s : String) : Option Kind :=
  (keywords.find? fun p => p.1 = s).map Prod.snd

/-- Is this kind one of the six keywords? -/
def isKeyword (k : Kind) : Bool :=
  keywords.any fun p => p.2 = k

/-- The spelling of a keyword kind, for keywords only. -/
def keywordSpelling? (k : Kind) : Option String :=
  if k.isKeyword then k.lexeme? else none

/-- How a kind is named in messages: its lexeme in single quotes, or a word for the three
kinds without one. -/
def display : Kind → String
  | .identifier => "identifier"
  | .number => "number"
  | .endOfFile => "end of file"
  | k => "'" ++ (k.lexeme?.getD "") ++ "'"

/-- Every kind, in declaration order. -/
def all : List Kind :=
  [.identifier, .number, .endOfFile, .openParen, .closeParen, .openBrace, .closeBrace,
   .openBracket, .closeBracket, .colon, .semicolon, .comma, .dot, .plus, .minus, .asterisk,
   .slash, .equals, .equalsEquals, .notEquals, .lessThan, .lessThanOrEqual, .greaterThan,
   .greaterThanOrEqual, .ampersand, .pipe, .ampersandAmpersand, .pipePipe, .kwFunction,
   .kwVar, .kwIf, .kwElse, .kwFor, .kwReturn]

theorem mem_all (k : Kind) : k ∈ all := by
  cases k <;> decide

/-- A keyword is found by its own spelling. -/
theorem keyword?_lexeme {k : Kind} (h : k.isKeyword = true) :
    ∃ s, k.lexeme? = some s ∧ keyword? s = some k := by
  cases k <;> simp_all [isKeyword, keywords, keyword?, lexeme?]

end Kind

end LangFront.Token
