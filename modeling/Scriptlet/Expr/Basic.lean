import Scriptlet.Expr.Level
import Scriptlet.Number.Double

/-!
# Expressions

An expression is one of eight forms.  Parentheses leave no trace in it: where
they are needed follows from the levels of the forms.

Any expression may stand on the left of an assignment.  The property of a plain
member access is a name in every expression that was parsed, though not in one
that was made by hand.
-/

namespace Scriptlet

mutual

/-- An expression. -/
inductive Expr where
  /-- `target = value` -/
  | assignment (target value : Expr)
  /-- `left + right`, and the like. -/
  | binary (op : BinaryOp) (left right : Expr)
  /-- `{ key, key: value }` -/
  | object (properties : List Property)
  /-- `callee(argument, argument)` -/
  | call (callee : Expr) (arguments : List Expr)
  /-- `owner.property`, or `owner[property}` when computed. -/
  | member (owner property : Expr) (computed : Bool)
  /-- A name. -/
  | identifier (name : String)
  /-- A number. -/
  | number (value : Double)
  /-- A string, by what it denotes. -/
  | string (value : String)

/-- A property of an object literal. -/
inductive Property where
  /-- A key that names its own value. -/
  | shorthand (key : String)
  /-- A key and its value. -/
  | entry (key : String) (value : Expr)

end

/-- The form of an expression. -/
inductive Expr.Form where
  /-- An assignment. -/
  | assignment
  /-- A binary operation. -/
  | binary
  /-- An object literal. -/
  | object
  /-- A call. -/
  | call
  /-- A member access. -/
  | member
  /-- A name. -/
  | identifier
  /-- A number. -/
  | number
  /-- A string. -/
  | string
  deriving DecidableEq, Repr

namespace Expr.Form

/-- Every form. -/
def all : List Form :=
  [.assignment, .binary, .object, .call, .member, .identifier, .number, .string]

/-- The name of a form. -/
def name : Form → String
  | .assignment => "AssignmentExpr"
  | .binary => "BinaryExpr"
  | .object => "ObjectLiteral"
  | .call => "CallExpr"
  | .member => "MemberExpr"
  | .identifier => "Identifier"
  | .number => "NumericLiteral"
  | .string => "StringLiteral"

end Expr.Form

/-- The key of a property. -/
def Property.key : Property → String
  | .shorthand key => key
  | .entry key _ => key

namespace Expr

/-- The form of an expression. -/
def form : Expr → Form
  | .assignment .. => .assignment
  | .binary .. => .binary
  | .object .. => .object
  | .call .. => .call
  | .member .. => .member
  | .identifier .. => .identifier
  | .number .. => .number
  | .string .. => .string

/-- The level of an expression. -/
def level : Expr → Level
  | .assignment .. => .assignment
  | .binary op .. => op.level
  | .object .. => .object
  | .call .. => .call
  | .member .. => .member
  | .identifier .. | .number .. | .string .. => .primary

/-- The name, if the expression is just a name. -/
def name? : Expr → Option String
  | .identifier name => some name
  | _ => none

/-! ## Equality of values

Two expressions have the same value if they differ in nothing but the sign of a
zero.  An expression that holds a not-a-number differs from every expression,
itself included. -/

mutual

/-- Whether two expressions are equal as values. -/
def sameValue : Expr → Expr → Bool
  | .assignment t v, .assignment t' v' => sameValue t t' && sameValue v v'
  | .binary op l r, .binary op' l' r' => op == op' && sameValue l l' && sameValue r r'
  | .object ps, .object ps' => sameProperties ps ps'
  | .call f as, .call f' as' => sameValue f f' && sameValues as as'
  | .member o p c, .member o' p' c' => sameValue o o' && sameValue p p' && c == c'
  | .identifier n, .identifier n' => n == n'
  | .number d, .number d' => d.sameValue d'
  | .string s, .string s' => s == s'
  | _, _ => false

/-- Whether two lists of expressions are equal as values. -/
def sameValues : List Expr → List Expr → Bool
  | [], [] => true
  | e :: es, e' :: es' => sameValue e e' && sameValues es es'
  | _, _ => false

/-- Whether two properties are equal as values. -/
def sameProperty : Property → Property → Bool
  | .shorthand k, .shorthand k' => k == k'
  | .entry k v, .entry k' v' => k == k' && sameValue v v'
  | _, _ => false

/-- Whether two lists of properties are equal as values. -/
def sameProperties : List Property → List Property → Bool
  | [], [] => true
  | p :: ps, p' :: ps' => sameProperty p p' && sameProperties ps ps'
  | _, _ => false

end

end Expr

end Scriptlet
