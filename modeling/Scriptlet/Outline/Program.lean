import Scriptlet.Number.Written
import Scriptlet.Program.Basic
import Scriptlet.Text.Quoted

/-!
# Outlines of programs

An outline shows how a value is built: which constructor made it, and of which
parts.  It is laid out on one line, or with every part on a line of its own,
four spaces further in than the whole.

In the outline of a program every statement and every expression is named twice,
once as the case it is and once as what that case holds.
-/

namespace Scriptlet

/-- How a value is built. -/
inductive Outline where
  /-- A value without parts. -/
  | leaf (text : String)
  /-- A constructor with parts that have no names. -/
  | tuple (name : String) (parts : List Outline)
  /-- A constructor with named parts. -/
  | record (name : String) (fields : List (String × Outline))
  /-- A list. -/
  | list (items : List Outline)

namespace Outline

/-! ## On one line -/

mutual

/-- An outline on one line. -/
def compact : Outline → String
  | .leaf text => text
  | .tuple name parts => name ++ "(" ++ ", ".intercalate (compactList parts) ++ ")"
  | .record name fields =>
      name ++ " \x7b " ++ ", ".intercalate (compactFields fields) ++ " \x7d"
  | .list items => "[" ++ ", ".intercalate (compactList items) ++ "]"

/-- Some outlines on one line each. -/
def compactList : List Outline → List String
  | [] => []
  | o :: os => compact o :: compactList os

/-- Some named parts on one line each. -/
def compactFields : List (String × Outline) → List String
  | [] => []
  | (name, o) :: fields => (name ++ ": " ++ compact o) :: compactFields fields

end

/-! ## On many lines -/

/-- The blanks before a line at some depth. -/
def margin (depth : Nat) : String := String.ofList (List.replicate (4 * depth) ' ')

mutual

/-- An outline on many lines.  The first line is not set in. -/
def pretty (depth : Nat) : Outline → String
  | .leaf text => text
  | .tuple name parts => name ++ "(\n" ++ prettyList (depth + 1) parts ++ margin depth ++ ")"
  | .record name fields =>
      name ++ " \x7b\n" ++ prettyFields (depth + 1) fields ++ margin depth ++ "\x7d"
  | .list [] => "[]"
  | .list (o :: os) => "[\n" ++ prettyList (depth + 1) (o :: os) ++ margin depth ++ "]"

/-- The lines of some outlines. -/
def prettyList (depth : Nat) : List Outline → String
  | [] => ""
  | o :: os => margin depth ++ pretty depth o ++ ",\n" ++ prettyList depth os

/-- The lines of some named parts. -/
def prettyFields (depth : Nat) : List (String × Outline) → String
  | [] => ""
  | (name, o) :: fields =>
      margin depth ++ name ++ ": " ++ pretty depth o ++ ",\n" ++ prettyFields depth fields

end

/-! ## Common parts -/

/-- The outline of a truth value. -/
def ofBool (b : Bool) : Outline := .leaf (if b then "true" else "false")

/-- The outline of a part that may be missing. -/
def ofOption : Option Outline → Outline
  | none => .leaf "None"
  | some o => .tuple "Some" [o]

end Outline

/-! ## Programs -/

/-- The outline of a text. -/
def Outline.ofText (text : String) : Outline := .leaf (Text.quoted text)

/-- The outline of a number. -/
def Double.outline (d : Double) : Outline := .leaf (String.ofList (d.written .outline))

/-- The outline of a case that holds a record. -/
def Outline.ofCase (name content : String) (fields : List (String × Outline)) : Outline :=
  .tuple name [.record content fields]

/-- The outline of a property. -/
def Property.outlineOf (key : String) (value : Option Outline) : Outline :=
  .record "Property" [("key", .ofText key), ("value", .ofOption value)]

namespace Expr

mutual

/-- The outline of an expression. -/
def outline : Expr → Outline
  | .assignment target value =>
      .ofCase "Assignment" "AssignmentExpr"
        [("assignee", outline target), ("value", outline value)]
  | .binary op left right =>
      .ofCase "Binary" "BinaryExpr"
        [("left", outline left), ("right", outline right), ("operator", .leaf op.name)]
  | .object properties =>
      .ofCase "Object" "ObjectLiteral" [("properties", .list (outlineProperties properties))]
  | .call callee arguments =>
      .ofCase "Call" "CallExpr"
        [("callee", outline callee), ("arguments", .list (outlineList arguments))]
  | .member owner property computed =>
      .ofCase "Member" "MemberExpr"
        [("object", outline owner), ("property", outline property),
         ("computed", .ofBool computed)]
  | .identifier name => .ofCase "Identifier" "Identifier" [("name", .ofText name)]
  | .number value => .ofCase "Numeric" "NumericLiteral" [("value", value.outline)]
  | .string value => .ofCase "String" "StringLiteral" [("value", .ofText value)]

/-- The outlines of some expressions. -/
def outlineList : List Expr → List Outline
  | [] => []
  | e :: es => outline e :: outlineList es

/-- The outline of a property. -/
def outlineProperty : Property → Outline
  | .shorthand key => Property.outlineOf key none
  | .entry key value => Property.outlineOf key (some (outline value))

/-- The outlines of some properties. -/
def outlineProperties : List Property → List Outline
  | [] => []
  | p :: ps => outlineProperty p :: outlineProperties ps

end

end Expr

namespace Stmt

mutual

/-- The outline of a statement. -/
def outline : Stmt → Outline
  | .binding name constant value =>
      .ofCase "VarDeclaration" "VarDeclaration"
        [("identifier", .ofText name), ("constant", .ofBool constant),
         ("value", .ofOption (value.map Expr.outline))]
  | .function name parameters isAsync body =>
      .ofCase "FunctionDeclaration" "FunctionDeclaration"
        [("name", .ofText name), ("parameters", .list (parameters.map Outline.ofText)),
         ("body", .list (outlineBody body)), ("is_async", .ofBool isAsync)]
  | .expression expr => .tuple "Expression" [expr.outline]

/-- The outlines of some statements. -/
def outlineBody : List Stmt → List Outline
  | [] => []
  | s :: ss => outline s :: outlineBody ss

end

end Stmt

/-- The outline of a program. -/
def Program.outline (p : Program) : Outline :=
  .record "Program" [("body", .list (Stmt.outlineBody p.body))]

end Scriptlet
