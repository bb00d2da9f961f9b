import Scriptlet.Expr.Basic
import Scriptlet.Source.Reader
import Scriptlet.Text.Quoted
import Scriptlet.Token.Basic

/-!
# Diagnostics

A diagnostic is the cause of a failure and the place where it showed.  Each
cause belongs to one of four broad kinds, has a message that says what
happened, and mostly also a tip for whoever wrote the source.  The first
failure ends the work on a source.

A report shows a diagnostic to whoever wrote the source: the name of the cause
with its tip, the name of the source, and the line with a caret below the place.

```text
Error: UnrecognisedToken
-> notes
  |
7 | let total = @
  | ------------^
```

The line is shown without the spaces before it and the blanks behind it.  The
dashes before the caret are counted in bytes.  A place that the source does not
reach is reported without a line.

Columns are counted with 16 bits.  If there are more of them before a bar or up
to the caret, the program is stopped, and no report is made.
-/

namespace Scriptlet

/-! ## Causes -/

/-- Why a source was refused. -/
inductive Cause where
  /-- No token starts with this character. -/
  | unrecognisedToken (token : String)
  /-- An `\x` escape without its two digits. -/
  | invalidEscape (sequence : String)
  /-- Another kind of token was wanted here. -/
  | unexpectedToken (expected : Token.Kind) (found message : String)
  /-- The last token is no end mark. -/
  | missingEndOfInput
  /-- An end mark stands before the last token. -/
  | misplacedEndOfInput
  /-- A number token that is no numeral. -/
  | numberParse (token : String)
  /-- A parameter that is no plain name. -/
  | nonIdentifierParameter (function : String) (found : Expr.Form)
  /-- A member access whose right side is no plain name. -/
  | nonIdentifierMember (found : Expr.Form)
  /-- A constant without a value. -/
  | missingConstInitializer (identifier : String)
  /-- This token starts no expression. -/
  | unrecognisedPrimary (token : String)
  deriving DecidableEq, Repr

/-- The broad kind of a failure. -/
inductive Cause.Kind where
  /-- The source cannot be split into tokens. -/
  | lexical
  /-- A required token is missing or of the wrong kind. -/
  | unexpectedToken
  /-- Well-formed tokens in an invalid construct. -/
  | malformedConstruct
  /-- A token that starts no expression. -/
  | unrecognisedPrimary
  deriving DecidableEq, Repr

/-- The name of a broad kind. -/
def Cause.Kind.name : Kind → String
  | .lexical => "Lexical"
  | .unexpectedToken => "UnexpectedToken"
  | .malformedConstruct => "MalformedConstruct"
  | .unrecognisedPrimary => "UnrecognisedPrimary"

namespace Cause

/-- The broad kind of a cause. -/
def kind : Cause → Kind
  | .unrecognisedToken .. | .invalidEscape .. => .lexical
  | .unexpectedToken .. | .missingEndOfInput | .misplacedEndOfInput => .unexpectedToken
  | .numberParse .. | .nonIdentifierParameter .. | .nonIdentifierMember ..
  | .missingConstInitializer .. => .malformedConstruct
  | .unrecognisedPrimary .. => .unrecognisedPrimary

/-- The name of a cause. -/
def name : Cause → String
  | .unrecognisedToken .. => "UnrecognisedToken"
  | .invalidEscape .. => "InvalidEscape"
  | .unexpectedToken .. => "UnexpectedToken"
  | .missingEndOfInput => "MissingEndOfInput"
  | .misplacedEndOfInput => "MisplacedEndOfInput"
  | .numberParse .. => "NumberParseError"
  | .nonIdentifierParameter .. => "NonIdentifierParameter"
  | .nonIdentifierMember .. => "NonIdentifierMember"
  | .missingConstInitializer .. => "MissingConstInitializer"
  | .unrecognisedPrimary .. => "UnrecognisedPrimary"

/-- What happened. -/
def message : Cause → String
  | .unrecognisedToken token => "unrecognised token: " ++ Text.quoted token
  | .invalidEscape sequence => "invalid escape sequence: " ++ Text.quoted sequence
  | .unexpectedToken expected found message =>
      "unexpected token (" ++ message ++ "): expected " ++ expected.shown ++
        ", found " ++ Text.quoted found
  | .missingEndOfInput => "token stream does not end with EOF"
  | .misplacedEndOfInput => "EOF appears before the last token"
  | .numberParse token => "error parsing number: " ++ Text.quoted token
  | .nonIdentifierParameter function found =>
      "parameters of function " ++ Text.quoted function ++ " must be identifiers, found " ++
        found.name
  | .nonIdentifierMember found =>
      "right side of `.` must be an identifier, found " ++ found.name
  | .missingConstInitializer identifier =>
      "constant " ++ Text.quoted identifier ++ " declared without a value"
  | .unrecognisedPrimary token => "unexpected token found: " ++ Text.quoted token

/-- How to mend it, where there is something to say. -/
def tip? : Cause → Option String
  | .unrecognisedToken _ => none
  | .invalidEscape sequence =>
      some ("Invalid escape `" ++ sequence ++ "`, `\\x` takes exactly two hex digits")
  | .unexpectedToken expected found message =>
      some (message ++ ": expected " ++ expected.shown ++ ", found `" ++ found ++ "`")
  | .missingEndOfInput => none
  | .misplacedEndOfInput =>
      some "Only the last token may be `EOF`, tokens after it would be dropped"
  | .numberParse token => some ("Invalid number: `" ++ token ++ "`")
  | .nonIdentifierParameter function found =>
      some ("Parameters of `" ++ function ++ "` must be plain names, found " ++ found.name)
  | .nonIdentifierMember found =>
      some ("The right side of `.` must be a name, found " ++ found.name)
  | .missingConstInitializer identifier =>
      some ("Constant `" ++ identifier ++ "` must be given a value, e.g. `const " ++
        identifier ++ " = ...`")
  | .unrecognisedPrimary token => some ("`" ++ token ++ "` cannot start an expression")

end Cause

/-- A failure with its place. -/
structure Diagnostic where
  /-- Why the source was refused. -/
  cause : Cause
  /-- Where this showed. -/
  position : Position
  deriving DecidableEq, Repr

/-- What happened, and where. -/
def Diagnostic.message (d : Diagnostic) : String :=
  d.cause.message ++ " at " ++ d.position.shown

/-! ## Reports -/

namespace Diagnostic

/-- The line that says what is wrong. -/
def headline (cause : Cause) : String :=
  match cause.tip? with
  | none => "Error: " ++ cause.name ++ "\n"
  | some tip => "Error: " ++ cause.name ++ " (" ++ tip ++ ")\n"

/-- A text set right in some columns, if they can be counted with 16 bits. -/
def alignedRight? (fill : Char) (width : Nat) (text : String) : Option String :=
  if width < 65536 then some (String.ofList (List.replicate (width - text.length) fill) ++ text)
  else none

/-- The lines that show a place, if they can be set. -/
def excerpt? (place : LinePlace) : Option String := do
  let number := toString place.number
  let text := place.text.dropWhile (· = ' ')
  let removed := place.text.length - text.length
  let bar ← alignedRight? ' ' (number.length + 2) "|"
  let caret ← alignedRight? '-' (place.column - removed + 1) "^"
  return bar ++ "\n" ++
    number ++ " | " ++ String.ofList (Text.dropBlanksRight text) ++ "\n" ++
    bar ++ " " ++ caret ++ "\n"

/-- The report of a diagnostic on a source, if it can be made. -/
def report? (d : Diagnostic) (source : String) : Option String := do
  let heading := headline d.cause ++ "-> " ++ d.position.file ++ "\n"
  match LinePlace.find? source.toList d.position.offset with
  | none => return heading
  | some place => return heading ++ (← excerpt? place)

/-- What is said of a diagnostic: its report, or nothing where none can be
made. -/
def report (d : Diagnostic) (source : String) : String := (d.report? source).getD ""

end Diagnostic

end Scriptlet
