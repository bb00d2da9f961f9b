import Scriptlet.Expr.Basic

/-!
# Programs

A program is a list of statements.  There are three: a name bound to a value, a
function declaration and a bare expression.  In a parsed program only a binding
that ends the source has no value, and it is not constant.
-/

namespace Scriptlet

/-- A statement. -/
inductive Stmt where
  /-- `let name`, `let name = value` or `const name = value`. -/
  | binding (name : String) (constant : Bool) (value : Option Expr)
  /-- `name(parameters) { body }`, after the word `async` if it is one. -/
  | function (name : String) (parameters : List String) (isAsync : Bool) (body : List Stmt)
  /-- A bare expression. -/
  | expression (expr : Expr)

/-- A program. -/
structure Program where
  /-- Its statements in the order of the source. -/
  body : List Stmt

/-- The form of a statement. -/
inductive Stmt.Form where
  /-- A binding. -/
  | binding
  /-- A function declaration. -/
  | function
  /-- A bare expression. -/
  | expression
  deriving DecidableEq, Repr

/-- The name of a form of statement. -/
def Stmt.Form.name : Form → String
  | .binding => "VarDeclaration"
  | .function => "FunctionDeclaration"
  | .expression => "ExpressionStmt"

namespace Stmt

/-- The form of a statement. -/
def form : Stmt → Form
  | .binding .. => .binding
  | .function .. => .function
  | .expression .. => .expression

/-- Whether two optional values are equal. -/
def sameInitial : Option Expr → Option Expr → Bool
  | none, none => true
  | some e, some e' => e.sameValue e'
  | _, _ => false

mutual

/-- Whether two statements are equal as values. -/
def sameValue : Stmt → Stmt → Bool
  | .binding n c v, .binding n' c' v' => n == n' && c == c' && sameInitial v v'
  | .function n ps a b, .function n' ps' a' b' =>
      n == n' && ps == ps' && a == a' && sameBody b b'
  | .expression e, .expression e' => e.sameValue e'
  | _, _ => false

/-- Whether two lists of statements are equal as values. -/
def sameBody : List Stmt → List Stmt → Bool
  | [], [] => true
  | s :: ss, s' :: ss' => sameValue s s' && sameBody ss ss'
  | _, _ => false

end

end Stmt

/-- Whether two programs are equal as values. -/
def Program.sameValue (p q : Program) : Bool := Stmt.sameBody p.body q.body

end Scriptlet
