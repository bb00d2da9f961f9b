import Scriptlet.Expr.Basic
import Scriptlet.Number.Written
import Scriptlet.Token.Escape

/-!
# Written expressions

An expression is written with a pair of parentheses around every operand that
binds looser than its place allows, and no others.  Operators lean to the left,
so only a right operand is enclosed at their own level.  A call may be called
again as it stands, while a member access needs parentheses around a call.
-/

namespace Scriptlet

/-- Text in parentheses if they are needed. -/
def enclosedIf (needed : Bool) (text : String) : String :=
  if needed then "(" ++ text ++ ")" else text

/-- A string literal. -/
def literal (value : String) : String :=
  "\"" ++ String.ofList (Escape.escape value.toList) ++ "\""

namespace Expr

mutual

/-- The text of an expression. -/
def written : Expr → String
  | .assignment target value =>
      enclosedIf (target.level < .object) (written target) ++ " = " ++ written value
  | .binary op left right =>
      enclosedIf (left.level < op.level) (written left) ++ " " ++ op.symbol ++ " " ++
        enclosedIf (right.level < op.level.tighter) (written right)
  | .object [] => "\x7b\x7d"
  | .object (p :: ps) => "\x7b " ++ ", ".intercalate (writtenProperties (p :: ps)) ++ " \x7d"
  | .call callee arguments =>
      enclosedIf (callee.level < .call) (written callee) ++
        "(" ++ ", ".intercalate (writtenList arguments) ++ ")"
  | .member owner property computed =>
      enclosedIf (owner.level < .member) (written owner) ++
        if computed then "[" ++ written property ++ "\x7d" else "." ++ written property
  | .identifier name => name
  | .number value => String.ofList (value.written .program)
  | .string value => literal value

/-- The texts of some expressions. -/
def writtenList : List Expr → List String
  | [] => []
  | e :: es => written e :: writtenList es

/-- The text of a property. -/
def writtenProperty : Property → String
  | .shorthand key => key
  | .entry key value => key ++ ": " ++ written value

/-- The texts of some properties. -/
def writtenProperties : List Property → List String
  | [] => []
  | p :: ps => writtenProperty p :: writtenProperties ps

end

/-- The texts of a list are those of its members. -/
theorem writtenList_eq_map (es : List Expr) : writtenList es = es.map written := by
  induction es with
  | nil => rfl
  | cons e es ih => rw [writtenList, ih, List.map_cons]

/-- The texts of a list of properties are those of its members. -/
theorem writtenProperties_eq_map (ps : List Property) :
    writtenProperties ps = ps.map writtenProperty := by
  induction ps with
  | nil => rfl
  | cons p ps ih => rw [writtenProperties, ih, List.map_cons]

end Expr

end Scriptlet
