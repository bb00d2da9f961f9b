import Scriptlet.Token.Basic

/-!
# Telling declarations from calls

The language has no word that starts a function declaration.  A declaration is
told from a call by the tokens that follow, in one of two ways.

* The *forward scan* asks whether the statement starts with a name, and
  whether somewhere up to the end of the source there is a `(` and there is a
  `)` right before a `{`.  A later declaration thus makes every earlier
  statement that starts with a name look like one.
* The *anchored* way asks whether the statement itself has the shape
  `[async] name ( ... ) {`, where the parenthesis is the one that matches.
-/

namespace Scriptlet

/-- How a function declaration is recognised. -/
inductive Detection where
  /-- By anything further on in the source. -/
  | forwardScan
  /-- By the shape of the statement. -/
  | anchored
  deriving DecidableEq, Repr

namespace Detection

/-- The name of a way of recognising declarations. -/
def name : Detection → String
  | .forwardScan => "ForwardScan"
  | .anchored => "Anchored"

/-- Whether a terminal is the word `async`. -/
def isAsyncWord (t : Terminal) : Bool := t.kind = .identifier && t.value = "async"

/-- Whether a `)` stands right before a `{` somewhere. -/
def opensBody : List Terminal → Bool
  | first :: second :: rest =>
      (first.kind = .closeParen && second.kind = .openCurly) || opensBody (second :: rest)
  | _ => false

/-- Recognition by anything further on. -/
def scansForward (terminals : List Terminal) : Bool :=
  match terminals with
  | [] => false
  | first :: _ =>
      first.kind = .identifier && terminals.any (·.kind = .openParen) && opensBody terminals

/-- Whether the parenthesis that is open, with some more open inside it, is
closed right before a `{`. -/
def closesBeforeBody : Nat → List Terminal → Bool
  | _, [] => false
  | inner, t :: rest =>
      match t.kind, inner with
      | .openParen, inner => closesBeforeBody (inner + 1) rest
      | .closeParen, 0 => (rest.head?.map (·.kind)) = some .openCurly
      | .closeParen, inner + 1 => closesBeforeBody inner rest
      | .endOfInput, _ => false
      | _, inner => closesBeforeBody inner rest

/-- The terminals after the word `async`, if it comes first. -/
def afterAsync : List Terminal → List Terminal
  | [] => []
  | t :: rest => if isAsyncWord t then rest else t :: rest

/-- Whether a name comes first, and then a parenthesis that is closed right
before a `{`. -/
def opensDeclaration : List Terminal → Bool
  | name :: paren :: rest =>
      name.kind = .identifier && paren.kind = .openParen && closesBeforeBody 0 rest
  | _ => false

/-- Recognition by the shape of the statement.  The word `async` is always taken
for the modifier, never for the name. -/
def hasShape (terminals : List Terminal) : Bool := opensDeclaration (afterAsync terminals)

/-- Whether a statement that starts with these terminals is a function
declaration. -/
def recognises : Detection → List Terminal → Bool
  | .forwardScan, terminals => scansForward terminals
  | .anchored, terminals => hasShape terminals

/-- Whether a statement that starts with these tokens is a function
declaration.  Where the tokens stand plays no part. -/
def detects (mode : Detection) (tokens : List Token) : Bool :=
  mode.recognises (tokens.map Token.terminal)

end Detection

end Scriptlet
