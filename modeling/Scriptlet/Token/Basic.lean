import Scriptlet.Source.Reader

/-!
# Tokens

A token has a kind, a value and the stretch of source it came from.  The value
of a string token is what the string denotes, and of any other token its text.
Tokens can also be made by hand, so kind and value need not agree.

Every token list that can be parsed is closed by an end mark, a token of the
kind `endOfInput`.
-/

namespace Scriptlet

/-- What a token is. -/
inductive Token.Kind where
  /-- The end mark. -/
  | endOfInput
  /-- A number. -/
  | number
  /-- A string. -/
  | string
  /-- A name. -/
  | identifier
  /-- `[` -/
  | openBracket
  /-- `]` -/
  | closeBracket
  /-- `{` -/
  | openCurly
  /-- `}` -/
  | closeCurly
  /-- `(` -/
  | openParen
  /-- `)` -/
  | closeParen
  /-- `=` -/
  | assignment
  /-- `.` -/
  | dot
  /-- `:` -/
  | colon
  /-- `,` -/
  | comma
  /-- `+` -/
  | plus
  /-- `-` -/
  | dash
  /-- `/` -/
  | slash
  /-- `*` -/
  | star
  /-- `%` -/
  | percent
  /-- The word `let`. -/
  | letWord
  /-- The word `const`. -/
  | constWord
  deriving DecidableEq, Repr

namespace Token.Kind

/-- Every kind. -/
def all : List Kind :=
  [.endOfInput, .number, .string, .identifier, .openBracket, .closeBracket, .openCurly,
   .closeCurly, .openParen, .closeParen, .assignment, .dot, .colon, .comma, .plus, .dash,
   .slash, .star, .percent, .letWord, .constWord]

/-- The name of a kind. -/
def name : Kind → String
  | .endOfInput => "EOF"
  | .number => "Number"
  | .string => "String"
  | .identifier => "Identifier"
  | .openBracket => "OpenBracket"
  | .closeBracket => "CloseBracket"
  | .openCurly => "OpenCurly"
  | .closeCurly => "CloseCurly"
  | .openParen => "OpenParen"
  | .closeParen => "CloseParen"
  | .assignment => "Assignment"
  | .dot => "Dot"
  | .colon => "Colon"
  | .comma => "Comma"
  | .plus => "Plus"
  | .dash => "Dash"
  | .slash => "Slash"
  | .star => "Star"
  | .percent => "Percent"
  | .letWord => "Let"
  | .constWord => "Const"

/-- The text of a kind whose tokens are all written alike. -/
def lexeme? : Kind → Option String
  | .openBracket => some "["
  | .closeBracket => some "]"
  | .openCurly => some "\x7b"
  | .closeCurly => some "\x7d"
  | .openParen => some "("
  | .closeParen => some ")"
  | .assignment => some "="
  | .dot => some "."
  | .colon => some ":"
  | .comma => some ","
  | .plus => some "+"
  | .dash => some "-"
  | .slash => some "/"
  | .star => some "*"
  | .percent => some "%"
  | .letWord => some "let"
  | .constWord => some "const"
  | .endOfInput | .number | .string | .identifier => none

/-- A kind in a message: its text if it has one, else its name. -/
def shown (kind : Kind) : String :=
  match kind.lexeme? with
  | some text => "`" ++ text ++ "`"
  | none => kind.name

end Token.Kind

/-- What a token says, without the place where it stands.  The grammar of the
language is made of these. -/
structure Terminal where
  /-- What it is. -/
  kind : Token.Kind
  /-- What it says. -/
  value : String
  deriving DecidableEq, Repr

/-- A unit of source text. -/
structure Token where
  /-- What it is. -/
  kind : Token.Kind
  /-- What it says. -/
  value : String
  /-- Where it stands. -/
  span : Span
  deriving DecidableEq, Repr

namespace Token

/-- A token without its place. -/
def terminal (t : Token) : Terminal := ⟨t.kind, t.value⟩

@[simp] theorem terminal_kind (t : Token) : t.terminal.kind = t.kind := rfl

@[simp] theorem terminal_value (t : Token) : t.terminal.value = t.value := rfl

/-- The value of an end mark. -/
def endValue : String := "EOF"

/-- The end mark after a source of some size. -/
def endMark (file : String) (offset : Nat) : Token := ⟨.endOfInput, endValue, .ofSize file offset 0⟩

/-- Whether a token is of one of the given kinds. -/
def isOneOf (t : Token) (kinds : List Kind) : Bool := kinds.contains t.kind

/-- A token in a complaint. -/
def describe (t : Token) : String :=
  match t.kind with
  | .string | .identifier | .number => t.kind.shown ++ " (" ++ t.value ++ ")"
  | .endOfInput => "end of input"
  | _ => t.value

/-- A token as text, one field a line. -/
def shown (t : Token) : String :=
  "Token \x7b\nkind: " ++ t.kind.shown ++ ",\nvalue: " ++ t.value ++ "\x7d"

end Token

end Scriptlet
