import Scriptlet.Command.Files
import Scriptlet.Command.Run
import Scriptlet.Diagnostic.Basic
import Scriptlet.Expr.Basic
import Scriptlet.Expr.Level
import Scriptlet.Expr.Parse
import Scriptlet.Expr.Written
import Scriptlet.Main
import Scriptlet.Number.Decimal
import Scriptlet.Number.Double
import Scriptlet.Number.Written
import Scriptlet.Outline.Diagnostic
import Scriptlet.Outline.Program
import Scriptlet.Program.Basic
import Scriptlet.Program.Detection
import Scriptlet.Program.Parse
import Scriptlet.Program.Written
import Scriptlet.Proofs.Command.Answer
import Scriptlet.Proofs.Command.Arguments
import Scriptlet.Proofs.Diagnostic.Report
import Scriptlet.Proofs.Expr.Complete
import Scriptlet.Proofs.Expr.Essence
import Scriptlet.Proofs.Expr.Failure
import Scriptlet.Proofs.Expr.Forward
import Scriptlet.Proofs.Expr.Grammar
import Scriptlet.Proofs.Expr.Ladder
import Scriptlet.Proofs.Expr.Legible
import Scriptlet.Proofs.Expr.Lockstep
import Scriptlet.Proofs.Expr.Minimal
import Scriptlet.Proofs.Expr.Parts
import Scriptlet.Proofs.Expr.Reach
import Scriptlet.Proofs.Expr.ReadBack
import Scriptlet.Proofs.Expr.Sound
import Scriptlet.Proofs.Expr.Surface
import Scriptlet.Proofs.Expr.Terminals
import Scriptlet.Proofs.Number.Rank
import Scriptlet.Proofs.Number.ReadBack
import Scriptlet.Proofs.Parse.Failure
import Scriptlet.Proofs.Parse.Forward
import Scriptlet.Proofs.Parse.Lockstep
import Scriptlet.Proofs.Parse.Passing
import Scriptlet.Proofs.Program.Caret
import Scriptlet.Proofs.Program.Complete
import Scriptlet.Proofs.Program.Division
import Scriptlet.Proofs.Program.Echo
import Scriptlet.Proofs.Program.Essence
import Scriptlet.Proofs.Program.Failure
import Scriptlet.Proofs.Program.Forward
import Scriptlet.Proofs.Program.Grammar
import Scriptlet.Proofs.Program.Indentation
import Scriptlet.Proofs.Program.Joined
import Scriptlet.Proofs.Program.Layout
import Scriptlet.Proofs.Program.Lockstep
import Scriptlet.Proofs.Program.Lookahead
import Scriptlet.Proofs.Program.Minimal
import Scriptlet.Proofs.Program.Modes
import Scriptlet.Proofs.Program.Nesting
import Scriptlet.Proofs.Program.Numbers
import Scriptlet.Proofs.Program.ReadBack
import Scriptlet.Proofs.Program.Segments
import Scriptlet.Proofs.Program.Shape
import Scriptlet.Proofs.Program.Shown
import Scriptlet.Proofs.Program.Sound
import Scriptlet.Proofs.Program.Source
import Scriptlet.Proofs.Program.Terminals
import Scriptlet.Proofs.Program.WellFormed
import Scriptlet.Proofs.Scan.Pattern
import Scriptlet.Proofs.Scan.Scanner
import Scriptlet.Proofs.Scan.Table
import Scriptlet.Proofs.Source.Line
import Scriptlet.Proofs.Text.Lines
import Scriptlet.Proofs.Token.Boundary
import Scriptlet.Proofs.Token.Failure
import Scriptlet.Proofs.Token.Joined
import Scriptlet.Proofs.Token.Legible
import Scriptlet.Proofs.Token.Literal
import Scriptlet.Proofs.Token.Lossless
import Scriptlet.Proofs.Token.Relaid
import Scriptlet.Proofs.Token.Spelling
import Scriptlet.Proofs.Token.Unbroken
import Scriptlet.Proofs.Token.Unescape
import Scriptlet.Proofs.Walk.Basic
import Scriptlet.Proofs.Walk.Expr
import Scriptlet.Proofs.Walk.Program
import Scriptlet.Proofs.Walk.Progress
import Scriptlet.Proofs.Walk.Session
import Scriptlet.Source.Reader
import Scriptlet.Text.Basic
import Scriptlet.Text.Quoted
import Scriptlet.Token.Basic
import Scriptlet.Token.Cursor
import Scriptlet.Token.Escape
import Scriptlet.Token.Lexeme
