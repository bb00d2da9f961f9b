/-!
# Binding levels

Expressions are read on a ladder of levels, from assignments, which bind
loosest, to primary expressions.  An expression that stands where a tighter
level is wanted has to be put in parentheses.
-/

namespace Scriptlet

/-- A level of the ladder, loosest first. -/
inductive Level where
  /-- Assignments. -/
  | assignment
  /-- Object literals. -/
  | object
  /-- Sums and differences. -/
  | additive
  /-- Products, quotients and remainders. -/
  | multiplicative
  /-- Calls. -/
  | call
  /-- Member accesses. -/
  | member
  /-- Names, numbers, strings and parentheses. -/
  | primary
  deriving DecidableEq, Repr

namespace Level

/-- Every level, loosest first. -/
def all : List Level :=
  [.assignment, .object, .additive, .multiplicative, .call, .member, .primary]

/-- The place of a level on the ladder. -/
def rung : Level → Nat
  | .assignment => 0
  | .object => 1
  | .additive => 2
  | .multiplicative => 3
  | .call => 4
  | .member => 5
  | .primary => 6

/-- A level is below the tighter ones. -/
instance : LT Level := ⟨fun a b => a.rung < b.rung⟩

instance (a b : Level) : Decidable (a < b) := inferInstanceAs (Decidable (a.rung < b.rung))

/-- The next tighter level.  Nothing is tighter than a primary expression. -/
def tighter : Level → Level
  | .assignment => .object
  | .object => .additive
  | .additive => .multiplicative
  | .multiplicative => .call
  | .call => .member
  | .member | .primary => .primary

/-- The tighter levels of a level, loosest first. -/
def looserThan (level : Level) : List Level := all.filter (level < ·)

/-- The name of a level. -/
def name : Level → String
  | .assignment => "Assignment"
  | .object => "Object"
  | .additive => "Additive"
  | .multiplicative => "Multiplicative"
  | .call => "Call"
  | .member => "Member"
  | .primary => "Primary"

end Level

/-- A binary operator. -/
inductive BinaryOp where
  /-- `+` -/
  | add
  /-- `-` -/
  | subtract
  /-- `*` -/
  | multiply
  /-- `/` -/
  | divide
  /-- `%` -/
  | modulo
  deriving DecidableEq, Repr

namespace BinaryOp

/-- Every operator. -/
def all : List BinaryOp := [.add, .subtract, .multiply, .divide, .modulo]

/-- The level of an operator. -/
def level : BinaryOp → Level
  | .add | .subtract => .additive
  | .multiply | .divide | .modulo => .multiplicative

/-- The text of an operator. -/
def symbol : BinaryOp → String
  | .add => "+"
  | .subtract => "-"
  | .multiply => "*"
  | .divide => "/"
  | .modulo => "%"

/-- The name of an operator. -/
def name : BinaryOp → String
  | .add => "Add"
  | .subtract => "Subtract"
  | .multiply => "Multiply"
  | .divide => "Divide"
  | .modulo => "Modulo"

end BinaryOp

end Scriptlet
