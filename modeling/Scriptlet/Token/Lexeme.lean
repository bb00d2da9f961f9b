import Scriptlet.Diagnostic.Basic
import Scriptlet.Text.Basic
import Scriptlet.Token.Basic
import Scriptlet.Token.Escape

/-!
# Lexemes and the tokens of a source

A lexeme is what stands at the front of a text: a word, a number, a gap of
blanks or a comment, a string literal, or a punctuation mark.  The first
character decides which, but for `/`, where the second tells a comment from a
mark.  Words, numbers and gaps run as far as they can.

A string literal ends at the first quote that no backslash precedes.  It may
run over several lines, though a backslash may not stand at the end of one.

A lexeme is given by the characters after the first, so it is never empty.

A source is read lexeme by lexeme.  Gaps leave no token, and the end mark
stands behind the last one.  The first character that starts no lexeme ends the
reading, as does the first string literal with a bad escape.
-/

namespace Scriptlet

open Token (Kind)

/-- What a lexeme says. -/
inductive Lexeme.Content where
  /-- Nothing. -/
  | gap
  /-- A token. -/
  | token (kind : Kind) (value : String)
  /-- A string literal with an `\x` escape that has too few digits. -/
  | badEscape (sequence : String)
  deriving DecidableEq, Repr

/-- What stands at the front of a text. -/
structure Lexeme where
  /-- Its characters after the first. -/
  tail : List Char
  /-- What it says. -/
  content : Lexeme.Content
  deriving DecidableEq, Repr

namespace Lexeme

/-- Whether a word may start with a character. -/
def isWordStart (c : Char) : Bool := c.isAlpha || c == '_'

/-- Whether a word may go on with a character. -/
def isWordChar (c : Char) : Bool := c.isAlphanum || c == '_'

/-- The kind of a word: one of the two reserved words, or a name. -/
def wordKind (word : List Char) : Kind :=
  if word = ['l', 'e', 't'] then .letWord
  else if word = ['c', 'o', 'n', 's', 't'] then .constWord
  else .identifier

/-- The kind of a punctuation mark. -/
def punctuation? : Char → Option Kind
  | '[' => some .openBracket
  | ']' => some .closeBracket
  | '{' => some .openCurly
  | '}' => some .closeCurly
  | '(' => some .openParen
  | ')' => some .closeParen
  | '=' => some .assignment
  | '.' => some .dot
  | ':' => some .colon
  | ',' => some .comma
  | '+' => some .plus
  | '-' => some .dash
  | '/' => some .slash
  | '*' => some .star
  | '%' => some .percent
  | _ => none

/-- A mark is written as the text of its kind. -/
theorem lexeme?_of_punctuation? {c : Char} {kind : Kind} (h : punctuation? c = some kind) :
    kind.lexeme? = some (String.singleton c) := by
  unfold punctuation? at h
  split at h <;> first | (cases h; decide) | exact absurd h (by simp)

/-- The point and the digits after it, if both are there. -/
def fractionPart : List Char → List Char
  | '.' :: d :: rest => if d.isDigit then '.' :: d :: rest.takeWhile Char.isDigit else []
  | _ => []

/-- How a number goes on after its first digit. -/
def numberTail (text : List Char) : List Char :=
  text.takeWhile Char.isDigit ++ fractionPart (text.dropWhile Char.isDigit)

/-- How a string literal goes on after its first quote, up to the last one, if
there is one. -/
def stringTail? : List Char → Option (List Char)
  | [] => none
  | '"' :: _ => some ['"']
  | ['\\'] => none
  | '\\' :: c :: rest => if c = '\n' then none else (stringTail? rest).map ('\\' :: c :: ·)
  | c :: rest => (stringTail? rest).map (c :: ·)

/-- What the literal says whose characters after the first are given. -/
def stringContent (tail : List Char) : Content :=
  match Escape.unescape tail.dropLast with
  | .ok value => .token .string (String.ofList value)
  | .error sequence => .badEscape (String.ofList sequence)

/-- The lexeme at the front of a text, given by its first character and the
rest. -/
def next? (c : Char) (rest : List Char) : Option Lexeme :=
  if isWordStart c then
    let tail := rest.takeWhile isWordChar
    some ⟨tail, .token (wordKind (c :: tail)) (String.ofList (c :: tail))⟩
  else if c.isDigit then
    let tail := numberTail rest
    some ⟨tail, .token .number (String.ofList (c :: tail))⟩
  else if Text.isBlank c then
    some ⟨rest.takeWhile Text.isBlank, .gap⟩
  else if c = '"' then
    (stringTail? rest).map fun tail => ⟨tail, stringContent tail⟩
  else if c = '/' ∧ rest.head? = some '/' then
    some ⟨rest.takeWhile (· ≠ '\n'), .gap⟩
  else
    (punctuation? c).map fun kind => ⟨[], .token kind (String.singleton c)⟩

end Lexeme

/-! ## The tokens of a source -/

namespace Token

/-- The tokens of a text that starts at some offset. -/
def ofText (file : String) (offset : Nat) : List Char → Except Diagnostic (List Token)
  | [] => .ok [endMark file offset]
  | c :: rest =>
      let place := Position.ofNat file offset
      match Lexeme.next? c rest with
      | none => .error ⟨.unrecognisedToken (String.singleton c), place⟩
      | some ⟨tail, content⟩ =>
          let size := Text.byteSize (c :: tail)
          let others := rest.drop tail.length
          match content with
          | .gap => ofText file (offset + size) others
          | .badEscape sequence => .error ⟨.invalidEscape sequence, place⟩
          | .token kind value =>
              (ofText file (offset + size) others).map
                (⟨kind, value, .ofSize file offset size⟩ :: ·)
termination_by text => text.length
decreasing_by all_goals simp only [List.length_drop, List.length_cons]; omega

/-- The tokens of a source. -/
def ofSource (file source : String) : Except Diagnostic (List Token) :=
  ofText file 0 source.toList

end Token

end Scriptlet
