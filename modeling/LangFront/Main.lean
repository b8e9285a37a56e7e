import LangFront.Source
import LangFront.Syntax.Dump
/-!
# Command line

    langfront FILE [--emit tokens|ast|format] [--indent N]

Reads a source file and prints its tokens (one per line, as `line:column` and the token's
display, separated by a tab), a dump of its syntax tree (`Program.dump`), or its canonical text
(the default, indented by four blanks unless `--indent` says otherwise). An error is printed on
standard error and the exit code is 1.
-/

namespace LangFront.Cli

/-- What the command prints. -/
inductive Emit where
  | tokens
  | ast
  | format
deriving DecidableEq, Repr

/-- The command's options. -/
structure Options where
  file : Option String := none
  emit : Emit := .format
  indent : Nat := 4
deriving DecidableEq, Repr

/-- Read the arguments into options. -/
def parseArgs : List String → Options → Except String Options
  | [], o =>
    match o.file with
    | some _ => .ok o
    | none => .error "missing source file"
  | "--emit" :: v :: rest, o =>
    match v with
    | "tokens" => parseArgs rest { o with emit := .tokens }
    | "ast" => parseArgs rest { o with emit := .ast }
    | "format" => parseArgs rest { o with emit := .format }
    | _ => .error ("unknown value for --emit: " ++ v)
  | "--indent" :: v :: rest, o =>
    match v.toNat? with
    | some n => parseArgs rest { o with indent := n }
    | none => .error ("not a width: " ++ v)
  | a :: rest, o =>
    match o.file with
    | none => parseArgs rest { o with file := some a }
    | some _ => .error ("unexpected argument: " ++ a)

/-- One line per token: its line and column, a tab, and its display. -/
def tokenLines (ts : List Token) : String :=
  String.join (ts.map fun t =>
    toString t.location.line ++ ":" ++ toString t.location.column ++ "\t" ++ t.display ++ "\n")

/-- What the command prints for a source text, or the error it reports. -/
def run (o : Options) (source : String) : Except String String :=
  match o.emit with
  | .tokens =>
    match Token.scan source with
    | .ok ts => .ok (tokenLines ts)
    | .error e => .error e.message
  | .ast =>
    match Program.ofSource source with
    | .ok t => .ok (t.dump.render ++ "\n")
    | .error e => .error e.message
  | .format =>
    match Program.ofSource source with
    | .ok t => .ok (t.format ⟨o.indent⟩)
    | .error e => .error e.message

end LangFront.Cli

open LangFront.Cli in
/-- Read the file named on the command line and print what was asked for. -/
def main (args : List String) : IO UInt32 := do
  match parseArgs args {} with
  | .error msg =>
    IO.eprintln ("Error: " ++ msg)
    return 1
  | .ok o =>
    let file := o.file.getD ""
    let source ← try IO.FS.readFile file catch e => do
      IO.eprintln ("Error: cannot read '" ++ file ++ "': " ++ toString e)
      return 1
    match run o source with
    | .ok text =>
      IO.print text
      return 0
    | .error msg =>
      IO.eprintln msg
      return 1
