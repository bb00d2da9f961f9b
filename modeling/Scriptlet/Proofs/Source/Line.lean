import Scriptlet.Proofs.Text.Lines
import Scriptlet.Source.Reader

/-!
# The line of an offset

The line of an offset is looked for among the lines of a source, and the places at its end are
cases of their own.  What is found is one of the lines, or the empty line behind them
(`LinePlace.among_text`), and the column is on it (`LinePlace.among_column_le`).

All cases agree with what the bytes of the source say (`LinePlace.find?_exactly`): the newlines
before the offset give the number of the line, the last of them says where it starts, and the next
one ends it.  No other place says the same (`LinePlace.find?_eq_some_iff`).

The offset may fall inside a character, so the lines are compared byte by byte.  Two facts do
this: a newline behind some bytes starts the count anew (`lineStart_append_newline`), and no
newline inside a line can be met before its end.
-/

namespace Scriptlet

namespace Text

/-- Where the last line of some bytes starts: just behind their last newline, or with the first
of them. -/
def lineStart (before : List UInt8) : Nat := before.length - before.reverse.idxOf newlineByte

/-- The first of some bytes, up to and including a newline. -/
def firstLine (source : List UInt8) : List UInt8 := source.take (source.idxOf newlineByte + 1)

theorem lineStart_of_notMem {before : List UInt8} (h : newlineByte ∉ before) :
    lineStart before = 0 := by
  rw [lineStart, List.idxOf_eq_length (by simpa using h), List.length_reverse, Nat.sub_self]

theorem lineStart_append_newline (front before : List UInt8) :
    lineStart (front ++ newlineByte :: before) = front.length + 1 + lineStart before := by
  have hreverse : (front ++ newlineByte :: before).reverse =
      before.reverse ++ newlineByte :: front.reverse := by simp
  rw [lineStart, hreverse, List.idxOf_append, List.idxOf_cons_self]
  split
  next hmem =>
    have hlt := List.idxOf_lt_length_of_mem hmem
    rw [List.length_reverse] at hlt
    simp only [lineStart, List.length_append, List.length_cons]
    omega
  next hmem =>
    rw [lineStart_of_notMem (by simpa using hmem)]
    simp only [List.length_append, List.length_cons, List.length_reverse]
    omega

theorem firstLine_of_ended {line : List UInt8} (h : newlineByte ∉ line) (rest : List UInt8) :
    firstLine (line ++ newlineByte :: rest) = line ++ [newlineByte] := by
  rw [firstLine, List.idxOf_append, if_neg h, List.idxOf_cons_self, Nat.zero_add,
    List.take_length_add_append, List.take_succ_cons, List.take_zero]

theorem firstLine_of_unended {line : List UInt8} (h : newlineByte ∉ line) :
    firstLine line = line := by
  rw [firstLine, List.idxOf_eq_length h, List.take_of_length_le (Nat.le_succ _)]

end Text

open Text

namespace LinePlace

/-! ## Among the lines -/

theorem among_text (number offset : Nat) (lines : List (List Char)) :
    (among number offset lines).text = [] ∨ (among number offset lines).text ∈ lines := by
  fun_induction among number offset lines with
  | case1 | case3 => exact .inl rfl
  | case2 | case4 | case5 => exact .inr (.head _)
  | case6 number offset line others hne hlt ih => exact ih.imp_right (.tail line)

theorem among_column_le (number offset : Nat) (lines : List (List Char)) :
    (among number offset lines).column ≤ byteSize (among number offset lines).text := by
  fun_induction among number offset lines with
  | case1 | case3 => exact Nat.le_refl 0
  | case2 _ _ _ hlt | case5 _ _ _ _ _ hlt => exact Nat.le_of_lt hlt
  | case4 => exact Nat.le_refl _
  | case6 number offset line others hne hlt ih => exact ih

/-! ## Among the bytes -/

/-- A place is the one of an offset into some bytes, and the lines are numbered from a number. -/
structure Locates (place : LinePlace) (number : Nat) (source : List UInt8) (offset : Nat) :
    Prop where
  /-- The newlines before the offset are counted. -/
  number : place.number = number + (source.take offset).count newlineByte
  /-- The line goes from behind the last of them to the next one. -/
  text : bytes place.text = firstLine (source.drop (lineStart (source.take offset)))
  /-- The column leads from there to the offset. -/
  column : place.column = offset - lineStart (source.take offset)

theorem Locates.unique {place place' : LinePlace} {number offset : Nat} {source : List UInt8}
    (h : place.Locates number source offset) (h' : place'.Locates number source offset) :
    place = place' := by
  obtain ⟨n, text, column⟩ := place
  obtain ⟨n', text', column'⟩ := place'
  obtain rfl : n = n' := h.number.trans h'.number.symm
  obtain rfl : text = text' := bytes_injective (h.text.trans h'.text.symm)
  obtain rfl : column = column' := h.column.trans h'.column.symm
  rfl

/-- The number of a line is at most by one larger than an offset on it. -/
theorem Locates.number_le {place : LinePlace} {number offset : Nat} {source : List UInt8}
    (h : place.Locates number source offset) : place.number ≤ number + offset := by
  have hcount : (source.take offset).count newlineByte ≤ (source.take offset).length :=
    List.count_le_length
  have hlength : (source.take offset).length ≤ offset := List.length_take_le offset source
  rw [h.number]
  omega

/-- On a line without a newline before it the offset is the column. -/
theorem locates_first {number offset : Nat} {line text : List Char} {rest : List UInt8}
    (h : '\n' ∉ line) (hoffset : offset ≤ byteSize line)
    (htext : bytes text = firstLine (bytes line ++ rest)) :
    Locates ⟨number, text, offset⟩ number (bytes line ++ rest) offset := by
  have hbefore : newlineByte ∉ (bytes line ++ rest).take offset := by
    rw [List.take_append_of_le_length (by rwa [length_bytes])]
    exact fun hmem => newlineByte_notMem_bytes h (List.mem_of_mem_take hmem)
  have hstart := lineStart_of_notMem hbefore
  refine ⟨?_, ?_, ?_⟩
  · rw [List.count_eq_zero.2 hbefore, Nat.add_zero]
  · rw [hstart, List.drop_zero, htext]
  · rw [hstart, Nat.sub_zero]

/-- A line more before the others moves the offset by its size. -/
theorem Locates.behind {place : LinePlace} {number offset : Nat} {source : List UInt8}
    (h : place.Locates (number + 1) source offset) {line : List Char} (hline : '\n' ∉ line) :
    place.Locates number (bytes (line ++ ['\n']) ++ source)
      (byteSize (line ++ ['\n']) + offset) := by
  have hsize : (bytes (line ++ ['\n'])).length = byteSize (line ++ ['\n']) := length_bytes _
  have htake : (bytes (line ++ ['\n']) ++ source).take (byteSize (line ++ ['\n']) + offset) =
      bytes line ++ newlineByte :: source.take offset := by
    rw [← hsize, List.take_length_add_append, bytes_append, bytes_newline, List.append_assoc]
    rfl
  have hstart : lineStart (bytes line ++ newlineByte :: source.take offset) =
      byteSize (line ++ ['\n']) + lineStart (source.take offset) := by
    rw [lineStart_append_newline, ← hsize, bytes_append, bytes_newline, List.length_append]
    rfl
  refine ⟨?_, ?_, ?_⟩
  · rw [htake, List.count_append, List.count_cons_self, h.number,
      List.count_eq_zero.2 (newlineByte_notMem_bytes hline)]
    omega
  · rw [htake, hstart, ← hsize, List.drop_length_add_append, h.text]
  · rw [htake, hstart, h.column, Nat.add_sub_add_left]

/-- Behind a line that is ended the search goes on among the others. -/
theorem among_of_ended (number offset : Nat) (line : List Char) (others : List (List Char)) :
    among number (byteSize (line ++ ['\n']) + offset) ((line ++ ['\n']) :: others) =
      among (number + 1) offset others := by
  have hbehind : ¬ byteSize (line ++ ['\n']) + offset < byteSize (line ++ ['\n']) := by omega
  cases others with
  | nil =>
    rw [among, among, if_neg hbehind, if_pos (by simp [isEnded])]
  | cons other others =>
    rw [among, if_neg hbehind, Nat.add_sub_cancel_left]
    exact List.cons_ne_nil _ _

/-- On the first line the offset is the column. -/
theorem among_of_lt {number offset : Nat} {line : List Char} (others : List (List Char))
    (h : offset < byteSize line) :
    among number offset (line :: others) = ⟨number, line, offset⟩ := by
  cases others <;> rw [among, if_pos h]
  exact List.cons_ne_nil _ _

/-- Among the lines of a text every offset up to its end is found where the bytes say. -/
theorem among_locates (number : Nat) {offset : Nat} {text : List Char}
    (h : offset ≤ byteSize text) :
    (among number offset (lines text)).Locates number (bytes text) offset := by
  induction text using lines_induction generalizing number offset with
  | empty =>
    obtain rfl : offset = 0 := Nat.le_zero.1 h
    exact ⟨rfl, rfl, rfl⟩
  | @unended line hne hline =>
    have hplace : among number offset [line] = ⟨number, line, offset⟩ := by
      by_cases hlt : offset < byteSize line
      · exact among_of_lt [] hlt
      · have hended : ¬ isEnded line := fun hlast =>
          hline (List.mem_of_getLast? (beq_iff_eq.1 hlast))
        rw [among, if_neg hlt, if_neg hended, Nat.le_antisymm h (Nat.le_of_not_lt hlt)]
    rw [lines_of_unended hne hline, hplace, ← List.append_nil (bytes line)]
    refine locates_first hline h ?_
    rw [List.append_nil, firstLine_of_unended (newlineByte_notMem_bytes hline)]
  | @ended line rest hline ih =>
    have hsize : byteSize (line ++ ['\n']) = byteSize line + 1 := byteSize_append line ['\n']
    have hsplit : bytes (line ++ '\n' :: rest) = bytes (line ++ ['\n']) ++ bytes rest := by
      rw [← bytes_append, List.append_assoc]
      rfl
    rw [lines_of_ended hline, hsplit]
    by_cases hlt : offset < byteSize (line ++ ['\n'])
    · rw [among_of_lt _ hlt, bytes_append, bytes_newline, List.append_assoc]
      refine locates_first hline (by omega) ?_
      rw [List.singleton_append, firstLine_of_ended (newlineByte_notMem_bytes hline),
        bytes_append, bytes_newline]
    · obtain ⟨further, rfl⟩ := Nat.exists_eq_add_of_le (Nat.le_of_not_lt hlt)
      rw [among_of_ended]
      refine (ih (number + 1) ?_).behind hline
      have hwhole : byteSize (line ++ '\n' :: rest) = byteSize line + (1 + byteSize rest) :=
        byteSize_append line ('\n' :: rest)
      omega

/-- A place is found just when it is the one that the bytes of the source say. -/
theorem find?_eq_some_iff {source : List Char} {offset : UInt32} {place : LinePlace} :
    find? source offset = some place ↔
      offset.toNat ≤ byteSize source ∧ place.Locates 1 (bytes source) offset.toNat := by
  rw [find?]
  split
  next hbehind => exact ⟨fun h => (by cases h), fun h => absurd h.1 (Nat.not_le.2 hbehind)⟩
  next hless =>
    have hle := Nat.le_of_not_lt hless
    have hlocates := among_locates 1 hle
    rw [Option.some.injEq]
    constructor
    · rintro rfl
      exact ⟨hle, hlocates⟩
    · rintro ⟨_, h⟩
      exact hlocates.unique h

/-- An offset that lies behind the end of a source is on no line.  For any other one the line and
the column are what the bytes say: the number of the line counts the newlines before the offset,
the line goes from behind the last of these, or from the start of the source, up to and including
the next newline, or to the end of the source, and the column leads from the start of the line to
the offset. -/
theorem find?_exactly (source : String) (offset : UInt32) :
    (find? source.toList offset).map
        (fun place => (place.number, bytes place.text, place.column)) =
      if source.utf8ByteSize < offset.toNat then none
      else
        let before := (bytes source.toList).take offset.toNat
        some (1 + before.count newlineByte,
          firstLine ((bytes source.toList).drop (lineStart before)),
          offset.toNat - lineStart before) := by
  rw [find?, byteSize_toList]
  split
  next => rfl
  next hless =>
    have hle : offset.toNat ≤ byteSize source.toList := by
      rw [byteSize_toList]
      exact Nat.le_of_not_lt hless
    have hlocates := among_locates 1 hle
    rw [Option.map_some, hlocates.number, hlocates.text, hlocates.column]

/-- An offset inside a character has a column of its own. -/
example : find? "é\nü".toList 4 = some ⟨2, ['ü'], 1⟩ := by decide

end LinePlace

end Scriptlet
