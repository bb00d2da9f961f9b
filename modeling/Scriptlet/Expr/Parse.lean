import Scriptlet.Number.Decimal
import Scriptlet.Token.Cursor

/-!
# Reading expressions

Every level of the ladder is read by a function of its own.  Where an
expression may stand inside another one, such as between parentheses, the
function calls the parser it is given for nested expressions.  A level also
takes a bound for its loops.

Before a level reads a nested expression, or goes round a loop, it consumes at
least one token.  So the count of tokens left bounds all of them:
`exprWithin n` reads any expression that has at most `n` tokens before it, and
`expression` takes for `n` the count of tokens left.

A failure leaves the cursor where it happened.
-/

namespace Scriptlet

/-- A reader of a part of a token list.  The cursor is kept in a failure, too. -/
abbrev Parser := EStateM Diagnostic Cursor

namespace Parser

/-! ## Single tokens -/

/-- The current token. -/
def current : Parser Token := fun c => .ok c.current c

/-- The kind of the current token. -/
def kind : Parser Token.Kind := fun c => .ok c.kind c

/-- The current token, which is consumed. -/
def advance : Parser Token := fun c => .ok c.current c.advance

/-- Ends with a failure. -/
def fail {α : Type} (cause : Cause) (position : Position) : Parser α :=
  fun c => .error ⟨cause, position⟩ c

/-- Consumes a token of the given kind, or fails with the message. -/
def expect (expected : Token.Kind) (message : String) : Parser Token := do
  let token ← current
  if token.kind = expected then advance
  else fail (.unexpectedToken expected token.describe message) token.span.start

/-- Fails since no expression starts here. -/
def refuse {α : Type} : Parser α := do
  let token ← current
  fail (.unrecognisedPrimary token.describe) token.span.start

/-! ## The levels -/

/-- A name, a number, a string or an expression in parentheses. -/
def primary (nested : Parser Expr) : Parser Expr := do
  let token ← current
  match token.kind with
  | .identifier =>
      let _ ← advance
      return .identifier token.value
  | .number =>
      let _ ← advance
      match Numeral.read? token.value.toList with
      | some value => return .number value
      | none => fail (.numberParse token.value) token.span.start
  | .string =>
      let _ ← advance
      return .string token.value
  | .openParen =>
      let _ ← advance
      let inner ← nested
      let _ ← expect .closeParen "unexpected token found inside the parentheses"
      return inner
  | _ => refuse

/-- The accesses that follow an owner. -/
def memberTail (nested : Parser Expr) : Nat → Expr → Parser Expr
  | 0, owner => return owner
  | bound + 1, owner => do
      match ← kind with
      | .dot =>
          let _ ← advance
          let token ← current
          let property ← primary nested
          match property.name? with
          | some _ => memberTail nested bound (.member owner property false)
          | none => fail (.nonIdentifierMember property.form) token.span.start
      | .openBracket =>
          let _ ← advance
          let property ← nested
          let _ ← expect .closeCurly "expected `\x7d` to close the computed member access"
          memberTail nested bound (.member owner property true)
      | _ => return owner

/-- A primary expression and the accesses that follow it. -/
def member (bound : Nat) (nested : Parser Expr) : Parser Expr := do
  let owner ← primary nested
  memberTail nested bound owner

/-- The arguments that follow the first one. -/
def argumentsTail (nested : Parser Expr) : Nat → Parser (List Expr)
  | 0 => return []
  | bound + 1 => do
      match ← kind with
      | .comma =>
          let _ ← advance
          let argument ← nested
          let others ← argumentsTail nested bound
          return argument :: others
      | _ => return []

/-- The arguments before a closing parenthesis. -/
def argumentsOpen (bound : Nat) (nested : Parser Expr) : Parser (List Expr) := do
  match ← kind with
  | .closeParen => return []
  | _ =>
      let argument ← nested
      let others ← argumentsTail nested bound
      return argument :: others

/-- Arguments in parentheses. -/
def arguments (bound : Nat) (nested : Parser Expr) : Parser (List Expr) := do
  let _ ← expect .openParen "missing `(`"
  let arguments ← argumentsOpen bound nested
  let _ ← expect .closeParen "missing `)`"
  return arguments

/-- The calls that follow a callee. -/
def callTail (nested : Parser Expr) : Nat → Expr → Parser Expr
  | 0, callee => return callee
  | bound + 1, callee => do
      match ← kind with
      | .openParen =>
          let arguments ← arguments bound nested
          callTail nested bound (.call callee arguments)
      | _ => return callee

/-- A call of a callee, and the calls that follow it. -/
def callOf (callee : Expr) (bound : Nat) (nested : Parser Expr) : Parser Expr := do
  let arguments ← arguments bound nested
  callTail nested bound (.call callee arguments)

/-- A member access and the calls that follow it. -/
def call (bound : Nat) (nested : Parser Expr) : Parser Expr := do
  let callee ← member bound nested
  callTail nested bound callee

/-- The operations of one level that follow a left operand. -/
def binaryTail (op? : Token.Kind → Option BinaryOp) (operand : Parser Expr) :
    Nat → Expr → Parser Expr
  | 0, left => return left
  | bound + 1, left => do
      match op? (← kind) with
      | some op =>
          let _ ← advance
          let right ← operand
          binaryTail op? operand bound (.binary op left right)
      | none => return left

/-- The operators of products. -/
def productOp? : Token.Kind → Option BinaryOp
  | .star => some .multiply
  | .slash => some .divide
  | .percent => some .modulo
  | _ => none

/-- The operators of sums. -/
def sumOp? : Token.Kind → Option BinaryOp
  | .plus => some .add
  | .dash => some .subtract
  | _ => none

/-- Calls joined by product operators. -/
def multiplicative (bound : Nat) (nested : Parser Expr) : Parser Expr := do
  let left ← call bound nested
  binaryTail productOp? (call bound nested) bound left

/-- Products joined by sum operators. -/
def additive (bound : Nat) (nested : Parser Expr) : Parser Expr := do
  let left ← multiplicative bound nested
  binaryTail sumOp? (multiplicative bound nested) bound left

/-- The properties before a closing brace.  A key that a comma or the closing
brace follows names its own value. -/
def properties (nested : Parser Expr) : Nat → Parser (List Property)
  | 0 => return []
  | bound + 1 => do
      match ← kind with
      | .closeCurly | .endOfInput => return []
      | _ =>
          let key ← expect .identifier "expected a property name inside the object"
          match ← kind with
          | .comma =>
              let _ ← advance
              let others ← properties nested bound
              return .shorthand key.value :: others
          | .closeCurly => return [.shorthand key.value]
          | _ =>
              let _ ← expect .colon ("expected `:` after `" ++ key.value ++ "`")
              let value ← nested
              match ← kind with
              | .closeCurly => return [.entry key.value value]
              | _ =>
                  let _ ← expect .comma "expected `,` or a closing `\x7d` after the property"
                  let others ← properties nested bound
                  return .entry key.value value :: others

/-- An object literal, or else a sum. -/
def object (bound : Nat) (nested : Parser Expr) : Parser Expr := do
  match ← kind with
  | .openCurly =>
      let _ ← advance
      let properties ← properties nested bound
      let _ ← expect .closeCurly "the object is never closed"
      return .object properties
  | _ => additive bound nested

/-- An object literal or a sum, and what is assigned to it.  Any expression may
be assigned to, and assignments lean to the right. -/
def assignment (bound : Nat) (nested : Parser Expr) : Parser Expr := do
  let target ← object bound nested
  match ← kind with
  | .assignment =>
      let _ ← advance
      let value ← nested
      return .assignment target value
  | _ => return target

/-! ## Closing the recursion -/

/-- An expression, where at most `bound` tokens are left. -/
def exprWithin : Nat → Parser Expr
  | 0 => refuse
  | bound + 1 => assignment bound (exprWithin bound)

/-- A level bounded by the count of tokens left. -/
def bounded {α : Type} (level : Nat → Parser Expr → Parser α) : Parser α :=
  fun c => level c.rest.length (exprWithin c.rest.length) c

/-- An expression. -/
def expression : Parser Expr := bounded assignment

end Parser

end Scriptlet
