import LangFront.Token.Scan
import LangFront.Syntax.Parse.Program
import LangFront.Layout.Program
/-!
# Programs from source text

A source text is scanned whole before it is parsed, so a character that no token can start
stops the reading even when a parse error would come earlier in the text. `Program.ofSource`
gives the program or the first error, of either kind.

`Program.reread` reads a formatted text back and says whether the program, and its text under
the default options, came back unchanged.
-/

namespace LangFront

/-- Why a source text is no program: it cannot be scanned, or its tokens cannot be parsed. -/
inductive Error where
  | scan (e : Token.ScanError)
  | parse (e : ParseError)
deriving DecidableEq, Repr

namespace Error

/-- Where the error stands in the text. -/
def location : Error → Location
  | .scan e => e.location
  | .parse e => e.location

/-- The message that reports the error. -/
def message : Error → String
  | .scan e => e.message
  | .parse e => e.message

end Error

/-- Read a program from source text: scan it whole, then parse its tokens. -/
def Program.ofSource (s : String) : Except Error Program :=
  match Token.scan s with
  | .error e => .error (.scan e)
  | .ok ts =>
    match Program.ofTokens ts with
    | .error e => .error (.parse e)
    | .ok t => .ok t

/-- What reading a formatted text back gives: whether the program came back, and whether its
text under the default options came back. -/
structure Reread where
  sameProgram : Bool
  sameText : Bool
deriving DecidableEq, Repr

/-- Read `text`, the formatted text of `t`, back and compare with `t`. -/
def Program.reread (t : Program) (text : String) : Except Error Reread :=
  match Program.ofSource text with
  | .error e => .error e
  | .ok t' => .ok ⟨t' = t, t'.format {} = t.format {}⟩

end LangFront
