import LangFront.Text.Location
import LangFront.Text.CharClass
import LangFront.Text.Escape
import LangFront.Token.Kind
import LangFront.Token.Basic
import LangFront.Token.Scan
import LangFront.Token.Stream
import LangFront.Syntax.Tree
import LangFront.Syntax.ParseError
import LangFront.Syntax.Parse.Basic
import LangFront.Syntax.Parse.Expr
import LangFront.Syntax.Parse.Program
import LangFront.Layout.Piece
import LangFront.Layout.Program
import LangFront.Source
import LangFront.Syntax.Node
import LangFront.Syntax.Dump
import LangFront.Main
import LangFront.Layout.Render
import LangFront.Syntax.WellFormed
import LangFront.Syntax.Parse.Layered
import LangFront.Proofs.Stream
import LangFront.Proofs.Grammar
import LangFront.Proofs.ExprParse
import LangFront.Proofs.ProgramParse
import LangFront.Proofs.Printing
import LangFront.Proofs.Lexing
import LangFront.Proofs.Rendering
import LangFront.Proofs.Invariants
import LangFront.Proofs.RoundTrip
import LangFront.Proofs.Lookahead
import LangFront.Proofs.ExprFailure
import LangFront.Proofs.ProgramFailure
import LangFront.Proofs.Cursor
import LangFront.Proofs.Walk
import LangFront.Token.Munch
import LangFront.Proofs.MaximalMunch
import LangFront.Proofs.Locations
import LangFront.Proofs.Leaves
import LangFront.Proofs.Climbing
import LangFront.Proofs.Nesting
import LangFront.Proofs.PrintedNesting
import LangFront.Loop
import LangFront.Proofs.Termination
