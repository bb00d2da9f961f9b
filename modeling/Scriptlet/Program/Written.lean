import Scriptlet.Expr.Written
import Scriptlet.Program.Basic
import Scriptlet.Program.Detection
import Scriptlet.Text.Basic
import Scriptlet.Token.Lexeme

/-!
# Written programs

A program is written with one statement after another, each on lines of its
own, and with the lines of a body two spaces further in.

What follows an expression can make it look like a declaration.  So statements
are written from the last to the first, each with the terminals of all that will
follow it at hand, and an expression that would be taken for a declaration is
put in parentheses.  For a body the closing brace and what follows the
declaration come next.
-/

namespace Scriptlet

namespace Stmt

/-- The text of a binding. -/
def bindingText (name : String) (constant : Bool) (value : Option Expr) : String :=
  let word := if constant then "const " else "let "
  match value with
  | some value => word ++ name ++ " = " ++ value.written
  | none => word ++ name

/-- A text two spaces further in, each line closed. -/
def indented (text : String) : List Char :=
  (Text.lines text.toList).flatMap fun line => [' ', ' '] ++ Text.chomp line ++ ['\n']

/-- The text of a function declaration, given the texts of the statements in
its body. -/
def functionText (name : String) (parameters : List String) (isAsync : Bool)
    (body : List String) : String :=
  let header := (if isAsync then "async " else "") ++ name ++ "(" ++
    ", ".intercalate parameters ++ ") \x7b"
  match body with
  | [] => header ++ "\x7d"
  | _ => header ++ "\n" ++ String.ofList (body.flatMap indented) ++ "\x7d"

mutual

/-- The text of a statement on its own, whatever may follow it. -/
def written : Stmt → String
  | .binding name constant value => bindingText name constant value
  | .function name parameters isAsync body =>
      functionText name parameters isAsync (writtenBody body)
  | .expression expr => expr.written

/-- The texts of some statements on their own. -/
def writtenBody : List Stmt → List String
  | [] => []
  | s :: ss => written s :: writtenBody ss

end

/-- The terminals of a text, without the end mark.  A text that cannot be split
has none. -/
def terminalsOf (text : String) : List Terminal :=
  match Token.ofSource Position.unnamed text with
  | .ok tokens => tokens.dropLast.map Token.terminal
  | .error _ => []

/-- The text of an expression that some terminals will follow. -/
def expressionText (mode : Detection) (following : List Terminal) (expr : Expr) : String :=
  enclosedIf (mode.recognises (terminalsOf expr.written ++ following)) expr.written

mutual

/-- The text of a statement that some terminals will follow. -/
def writtenBefore (mode : Detection) (following : List Terminal) : Stmt → String
  | .binding name constant value => bindingText name constant value
  | .function name parameters isAsync body =>
      functionText name parameters isAsync
        (writtenBodyBefore mode (terminalsOf "\x7d" ++ following) body).1
  | .expression expr => expressionText mode following expr

/-- The texts of some statements that some terminals will follow, and the
terminals from the first of these texts on. -/
def writtenBodyBefore (mode : Detection) (following : List Terminal) :
    List Stmt → List String × List Terminal
  | [] => ([], following)
  | s :: ss =>
      let later := writtenBodyBefore mode following ss
      let text := writtenBefore mode later.2 s
      (text :: later.1, terminalsOf text ++ later.2)

end

end Stmt

namespace Program

/-- A program as a text that reads back as the same program. -/
def written (mode : Detection) (p : Program) : String :=
  String.join ((Stmt.writtenBodyBefore mode [] p.body).1.map (· ++ "\n"))

end Program

end Scriptlet
