import Scriptlet.Diagnostic.Basic
import Scriptlet.Outline.Program

/-!
# Outlines of tokens and diagnostics
-/

namespace Scriptlet

/-- The outline of a place. -/
def Position.outline (p : Position) : Outline :=
  .tuple "Position" [.leaf (toString p.offset.toNat), .ofText p.file]

/-- The outline of a stretch. -/
def Span.outline (s : Span) : Outline :=
  .record "Span" [("start", s.start.outline), ("end", s.stop.outline)]

/-- The outline of a token. -/
def Token.outline (t : Token) : Outline :=
  .record "Token"
    [("kind", .leaf t.kind.name), ("value", .ofText t.value), ("span", t.span.outline)]

/-- The named parts of a cause. -/
def Cause.fields : Cause → List (String × Outline)
  | .unrecognisedToken token => [("token", .ofText token)]
  | .invalidEscape sequence => [("sequence", .ofText sequence)]
  | .unexpectedToken expected found message =>
      [("expected", .leaf expected.name), ("found", .ofText found), ("message", .ofText message)]
  | .missingEndOfInput | .misplacedEndOfInput => []
  | .numberParse token => [("token", .ofText token)]
  | .nonIdentifierParameter function found =>
      [("function", .ofText function), ("found", .leaf found.name)]
  | .nonIdentifierMember found => [("found", .leaf found.name)]
  | .missingConstInitializer identifier => [("identifier", .ofText identifier)]
  | .unrecognisedPrimary token => [("token", .ofText token)]

/-- The outline of a cause. -/
def Cause.outline (cause : Cause) : Outline :=
  match cause.fields with
  | [] => .leaf cause.name
  | fields => .record cause.name fields

/-- The outline of a diagnostic. -/
def Diagnostic.outline (d : Diagnostic) : Outline :=
  .record "Error" [("internal_error", d.cause.outline), ("position", d.position.outline)]

end Scriptlet
