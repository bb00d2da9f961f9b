import Scriptlet.Text.Basic

/-!
# Places in a source

A place is the name of a source and a byte offset into it.  Offsets are kept in
32 bits, so a place past four gigabytes wraps around.

An offset belongs to the line whose bytes include it.  The offset just past the
end of a source belongs to the last line, or to an empty line of its own if the
last line is ended by a newline.  What lies past four gigabytes belongs to no
line.

A reader is a source with a byte offset into it.  The offset may be moved to
anywhere in 64 bits.  Only at the start of a character, or at the very end, is
there a remainder to look at.
-/

namespace Scriptlet

/-! ## Places -/

/-- A place in a source. -/
structure Position where
  /-- The byte offset, modulo `2 ^ 32`. -/
  offset : UInt32
  /-- The name of the source. -/
  file : String
  deriving DecidableEq, Repr

namespace Position

/-- The name of a source that was given none. -/
def unnamed : String := "shell"

/-- The place at an offset. -/
def ofNat (file : String) (offset : Nat) : Position := ⟨UInt32.ofNat offset, file⟩

/-- The place of what belongs to no source. -/
def nowhere : Position := ⟨0, "<null>"⟩

/-- A place as text. -/
def shown (p : Position) : String := p.file ++ ":" ++ toString p.offset.toNat

end Position

/-- A stretch of a source. -/
structure Span where
  /-- The place of its first byte. -/
  start : Position
  /-- The place just after its last byte. -/
  stop : Position
  deriving DecidableEq, Repr

/-- The stretch of some bytes from an offset on. -/
def Span.ofSize (file : String) (offset size : Nat) : Span :=
  ⟨.ofNat file offset, .ofNat file (offset + size)⟩

/-! ## Lines -/

/-- A line of a source, and a place on it. -/
structure LinePlace where
  /-- The number of the line, from 1. -/
  number : Nat
  /-- The line, with its newline. -/
  text : List Char
  /-- The byte offset from the start of the line. -/
  column : Nat
  deriving DecidableEq, Repr

namespace LinePlace

/-- The place of an offset among numbered lines.  An offset past them all is
taken for the one just after them. -/
def among (number : Nat) : Nat → List (List Char) → LinePlace
  | _, [] => ⟨number, [], 0⟩
  | offset, [line] =>
      if offset < Text.byteSize line then ⟨number, line, offset⟩
      else if Text.isEnded line then ⟨number + 1, [], 0⟩
      else ⟨number, line, Text.byteSize line⟩
  | offset, line :: others =>
      if offset < Text.byteSize line then ⟨number, line, offset⟩
      else among (number + 1) (offset - Text.byteSize line) others

/-- The line and column of an offset, if the source is that long. -/
def find? (source : List Char) (offset : UInt32) : Option LinePlace :=
  if Text.byteSize source < offset.toNat then none
  else some (among 1 offset.toNat (Text.lines source))

end LinePlace

/-! ## Readers -/

/-- A source and how far it has been read. -/
structure Reader where
  /-- The name of the source. -/
  file : String
  /-- The text of the source. -/
  source : String
  /-- The byte offset, modulo `2 ^ 64`. -/
  offset : UInt64
  deriving DecidableEq, Repr

namespace Reader

/-- A reader at the start of a source. -/
def ofSource (file source : String) : Reader := ⟨file, source, 0⟩

/-- The reader some bytes further on. -/
def advance (r : Reader) (count : Nat) : Reader :=
  { r with offset := r.offset + UInt64.ofNat count }

/-- The text still to be read, if the offset is a place where the source can be
cut. -/
def remainder? (r : Reader) : Option (List Char) :=
  Text.dropBytes? r.offset.toNat r.source.toList

/-- Whether no byte is left. -/
def isAtEnd (r : Reader) : Bool := Text.byteSize r.source.toList ≤ r.offset.toNat

/-- The place of the next byte. -/
def position (r : Reader) : Position := .ofNat r.file r.offset.toNat

/-- The stretch of the next bytes. -/
def span (r : Reader) (size : Nat) : Span := .ofSize r.file r.offset.toNat size

end Reader

end Scriptlet
