/-!
# Characters, bytes and lines of a text

A class of characters is a list of closed ranges of code points in rising
order.  The blank ones are the ASCII white space from tab to carriage return,
the plain space, the next-line control, and the spaces and separators beyond
ASCII.

Places in a text are byte offsets into its UTF-8 form.  `byteSize` is the
length of that form, and `dropBytes?` cuts a text at an offset.  An offset
inside a character, or past the end, is not a place where a text can be cut.

A line runs up to and including its newline.  Only the last line may have
none, and a text that ends in a newline has no empty line after it.
-/

namespace Scriptlet.Text

/-! ## Classes of characters -/

/-- Whether a code point lies in one of the ranges, both ends included. -/
def inRanges (ranges : List (Nat × Nat)) (code : Nat) : Bool :=
  ranges.any fun (low, high) => low ≤ code && code ≤ high

/-- The white space characters. -/
def blankRanges : List (Nat × Nat) :=
  [(0x9, 0xd), (0x20, 0x20), (0x85, 0x85), (0xa0, 0xa0), (0x1680, 0x1680), (0x2000, 0x200a),
   (0x2028, 0x2029), (0x202f, 0x202f), (0x205f, 0x205f), (0x3000, 0x3000)]

/-- Whether a character is white space. -/
def isBlank (c : Char) : Bool := inRanges blankRanges c.toNat

/-- The newline is blank. -/
theorem isBlank_newline : isBlank '\n' = true := by decide

/-- The plain space is blank. -/
theorem isBlank_space : isBlank ' ' = true := by decide

/-- A text without the blanks at its end. -/
def dropBlanksRight (text : List Char) : List Char :=
  (text.reverse.dropWhile isBlank).reverse

/-! ## Bytes -/

/-- The number of UTF-8 bytes of a text. -/
def byteSize : List Char → Nat
  | [] => 0
  | c :: text => c.utf8Size + byteSize text

@[simp] theorem byteSize_nil : byteSize [] = 0 := rfl

@[simp] theorem byteSize_cons (c : Char) (text : List Char) :
    byteSize (c :: text) = c.utf8Size + byteSize text := rfl

@[simp] theorem byteSize_append (left right : List Char) :
    byteSize (left ++ right) = byteSize left + byteSize right := by
  induction left with
  | nil => simp
  | cons c left ih => simp [ih, Nat.add_assoc]

/-- What is left of a text after some bytes, or nothing if the cut would fall
inside a character or past the end. -/
def dropBytes? : Nat → List Char → Option (List Char)
  | 0, text => some text
  | _ + 1, [] => none
  | count + 1, c :: text =>
      if c.utf8Size ≤ count + 1 then dropBytes? (count + 1 - c.utf8Size) text else none
termination_by structural _ text => text

@[simp] theorem dropBytes?_zero (text : List Char) : dropBytes? 0 text = some text := by
  cases text <;> rfl

/-- A text is cut behind any of its leading parts. -/
theorem dropBytes?_byteSize (left right : List Char) :
    dropBytes? (byteSize left) (left ++ right) = some right := by
  induction left with
  | nil => simp
  | cons c left ih =>
    obtain ⟨k, hk⟩ : ∃ k, c.utf8Size = k + 1 := ⟨c.utf8Size - 1, by have := c.utf8Size_pos; omega⟩
    have hsum : byteSize (c :: left) = (k + byteSize left) + 1 := by rw [byteSize_cons, hk]; omega
    rw [hsum, List.cons_append, dropBytes?, if_pos (by omega), ← ih]
    congr 1
    omega

/-! ## Lines -/

/-- The lines of a text, each with its newline. -/
def lines : List Char → List (List Char)
  | [] => []
  | c :: rest =>
      if c = '\n' then [c] :: lines rest
      else match lines rest with
        | [] => [[c]]
        | line :: others => (c :: line) :: others

/-- A line without its newline, and without a carriage return just before it. -/
def chomp : List Char → List Char
  | [] => []
  | ['\n'] => []
  | ['\r', '\n'] => []
  | c :: rest => c :: chomp rest

/-- Whether a line is ended by a newline. -/
def isEnded (line : List Char) : Bool := line.getLast? == some '\n'

/-- The lines of a text are the text. -/
theorem flatten_lines (text : List Char) : (lines text).flatten = text := by
  induction text with
  | nil => rfl
  | cons c rest ih =>
    rw [lines]
    split
    · simp [ih]
    · split
      · rename_i h
        rw [h] at ih
        simp_all
      · rename_i h
        rw [h] at ih
        simpa using ih

end Scriptlet.Text
