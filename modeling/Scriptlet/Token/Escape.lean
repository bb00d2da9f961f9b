/-!
# Escapes in string literals

Between its quotes a string literal is a sequence of plain characters and
escapes.  A backslash before one of six letters stands for one character, `\x`
takes exactly two hexadecimal digits, and a backslash before anything else
stands for itself.

`unescape` reads the inside of a literal and `escape` writes one.  Writing uses
the six letters only, and `unescape_escape` says that it reads back.
-/

namespace Scriptlet.Escape

/-- The character a letter stands for after a backslash. -/
def letter? : Char → Option Char
  | 'n' => some '\n'
  | 't' => some '\t'
  | 'r' => some '\r'
  | '\\' => some '\\'
  | '"' => some '"'
  | '0' => some '\x00'
  | _ => none

/-- Whether a character is a hexadecimal digit. -/
def isHexDigit (c : Char) : Bool :=
  c.isDigit || ('a' ≤ c && c ≤ 'f') || ('A' ≤ c && c ≤ 'F')

/-- The value of a hexadecimal digit. -/
def hexValue (c : Char) : Nat :=
  if c.isDigit then c.toNat - 48
  else if 'a' ≤ c then c.toNat - 87
  else c.toNat - 55

/-- The text an `\x` escape takes up when its two digits are not there. -/
def deficient (rest : List Char) : List Char :=
  '\\' :: 'x' :: (rest.take 2).takeWhile isHexDigit

/-- What the inside of a literal denotes, or its first `\x` escape without two
digits. -/
def unescape : List Char → Except (List Char) (List Char)
  | [] => .ok []
  | '\\' :: 'x' :: high :: low :: rest =>
      if isHexDigit high && isHexDigit low then
        (unescape rest).map (Char.ofNat (16 * hexValue high + hexValue low) :: ·)
      else .error (deficient [high, low])
  | '\\' :: 'x' :: rest => .error (deficient rest)
  | '\\' :: c :: rest =>
      match letter? c with
      | some plain => (unescape rest).map (plain :: ·)
      | none => (unescape rest).map ('\\' :: c :: ·)
  | c :: rest => (unescape rest).map (c :: ·)

/-- A character inside a literal. -/
def escapeChar : Char → List Char
  | '"' => ['\\', '"']
  | '\\' => ['\\', '\\']
  | '\n' => ['\\', 'n']
  | '\t' => ['\\', 't']
  | '\r' => ['\\', 'r']
  | '\x00' => ['\\', '0']
  | c => [c]

/-- A text as the inside of a literal. -/
def escape (text : List Char) : List Char := text.flatMap escapeChar

/-- A character other than a backslash is read as itself. -/
theorem unescape_cons (c : Char) (rest : List Char) (h : c ≠ '\\') :
    unescape (c :: rest) = (unescape rest).map (c :: ·) := by
  rw [unescape] <;> simp_all

/-- What is written for a character is read as that character. -/
theorem unescape_escapeChar_append (c : Char) (rest : List Char) :
    unescape (escapeChar c ++ rest) = (unescape rest).map (c :: ·) := by
  unfold escapeChar
  split <;> first | rfl | skip
  rename_i h _ _ _ _
  exact unescape_cons c rest h

/-- A text written inside a literal reads back. -/
theorem unescape_escape (text : List Char) : unescape (escape text) = .ok text := by
  induction text with
  | nil => rfl
  | cons c text ih =>
    rw [escape, List.flatMap_cons, unescape_escapeChar_append]
    rw [escape] at ih
    rw [ih]
    rfl

end Scriptlet.Escape
