import Scriptlet.Expr.Parse
import Scriptlet.Program.Basic
import Scriptlet.Program.Detection
import Scriptlet.Token.Lexeme

/-!
# Reading programs

Nothing separates one statement from the next.  A statement ends where its
reader stops, and the next one starts there.

As for expressions, a body is read by the parser of statements it is given, and
the count of tokens left bounds the depth of bodies and the length of each.
-/

namespace Scriptlet

namespace Parser

/-- Whether the current token starts a function declaration. -/
def startsFunction (mode : Detection) : Parser Bool :=
  fun c => .ok (mode.detects c.remaining) c

/-- A name bound to a value.  The first token is consumed whatever it is. -/
def binding : Parser Stmt := do
  let word ← advance
  let name ← expect .identifier ("expected a name after `" ++ word.value ++ "`")
  let next ← current
  match next.kind, word.kind with
  | .endOfInput, .constWord => fail (.missingConstInitializer name.value) next.span.start
  | .endOfInput, _ => return .binding name.value false none
  | _, wordKind =>
      let _ ← expect .assignment ("expected `=` after `" ++ name.value ++ "`")
      let value ← expression
      return .binding name.value (wordKind = .constWord) (some value)

/-- The statements up to a token that ends them. -/
def statements (ends : Token.Kind → Bool) (statement : Parser Stmt) : Nat → Parser (List Stmt)
  | 0 => return []
  | bound + 1 => do
      if ends (← kind) then return []
      else
        let first ← statement
        let others ← statements ends statement bound
        return first :: others

/-- What ends a program. -/
def endsProgram (kind : Token.Kind) : Bool := kind = .endOfInput

/-- What ends a body. -/
def endsBody (kind : Token.Kind) : Bool := kind = .closeCurly || kind = .endOfInput

/-- The names of parameters, or the form of the first one that is no name. -/
def parameterNames : List Expr → Except Expr.Form (List String)
  | [] => .ok []
  | e :: es =>
      match e.name? with
      | some name => (parameterNames es).map (name :: ·)
      | none => .error e.form

/-- The word `async`, if it comes first. -/
def asyncModifier : Parser Bool := do
  let first ← current
  if Detection.isAsyncWord first.terminal then
    let _ ← advance
    return true
  else return false

/-- What stands before the body of a function declaration. -/
structure Heading where
  /-- Whether the word `async` comes first. -/
  isAsync : Bool
  /-- The name. -/
  name : String
  /-- The names of the parameters. -/
  parameters : List String

/-- The part of a function declaration up to the brace that opens its body. -/
def heading : Parser Heading := do
  let isAsync ← asyncModifier
  let name ← expect .identifier
    "expected a function name, shaped like name(parameters) \x7b ... \x7d"
  let opening ← current
  let parameters ← bounded arguments
  match parameterNames parameters with
  | .error form => fail (.nonIdentifierParameter name.value form) opening.span.start
  | .ok parameters =>
      let _ ← expect .openCurly ("expected `\x7b` to open the body of `" ++ name.value ++ "`")
      return ⟨isAsync, name.value, parameters⟩

/-- A function declaration whose body has at most `bound` statements. -/
def function (bound : Nat) (statement : Parser Stmt) : Parser Stmt := do
  let head ← heading
  let body ← statements endsBody statement bound
  let _ ← expect .closeCurly ("expected `\x7d` to close the body of `" ++ head.name ++ "`")
  return .function head.name head.parameters head.isAsync body

/-- A statement whose bodies are read by the given parser. -/
def statementOver (mode : Detection) (bound : Nat) (inner : Parser Stmt) : Parser Stmt := do
  if ← startsFunction mode then function bound inner
  else
    match ← kind with
    | .letWord | .constWord => binding
    | _ =>
        let expr ← expression
        return .expression expr

/-- A statement, where at most `bound` tokens are left. -/
def statementWithin (mode : Detection) : Nat → Parser Stmt
  | 0 => refuse
  | bound + 1 => statementOver mode bound (statementWithin mode bound)

/-- A part of a program bounded by the count of tokens left. -/
def boundedOver {α : Type} (mode : Detection) (part : Nat → Parser Stmt → Parser α) : Parser α :=
  fun c => part c.rest.length (statementWithin mode c.rest.length) c

/-- A statement. -/
def statement (mode : Detection) : Parser Stmt := boundedOver mode (statementOver mode)

/-- A function declaration. -/
def declaration (mode : Detection) : Parser Stmt := boundedOver mode function

/-- A whole program. -/
def program (mode : Detection) : Parser Program := do
  let body ← boundedOver mode fun bound statement => statements endsProgram statement bound
  return ⟨body⟩

/-- What a parser makes of the tokens before a cursor. -/
def outcome {α : Type} (parser : Parser α) (c : Cursor) : Except Diagnostic α :=
  match parser c with
  | .ok value _ => .ok value
  | .error diagnostic _ => .error diagnostic

end Parser

namespace Program

/-- The program of a token list. -/
def ofTokens (mode : Detection) (tokens : List Token) : Except Diagnostic Program := do
  let cursor ← Cursor.ofTokens tokens
  (Parser.program mode).outcome cursor

/-- The program of a source. -/
def ofSource (mode : Detection) (file source : String) : Except Diagnostic Program := do
  let tokens ← Token.ofSource file source
  ofTokens mode tokens

end Program

end Scriptlet
