import Mathlib
import Scriptlet.Proofs.Program.Shown

/-!
# Where the caret of a report stands

A report ends in three lines with a bar each, and the three bars stand in the same column
(`Diagnostic.EndsInExcerpt`).  Behind the last bar come dashes and a caret, as many dashes as the
line has *bytes* before the offset, without the spaces that are not shown.

A reader of the report counts characters.  So the caret stands under the offset just when a report
is made and each of the characters before the offset takes up one byte
(`Program.caret_stands_under_iff`).
-/

namespace Scriptlet

/-! ## Characters before an offset -/

/-- How many characters of a text come before a byte offset. -/
def Text.charsBefore : Nat → List Char → Nat
  | _, [] => 0
  | offset, c :: text =>
      if c.utf8Size ≤ offset then charsBefore (offset - c.utf8Size) text + 1 else 0

namespace Text

theorem charsBefore_le (offset : Nat) (text : List Char) : charsBefore offset text ≤ offset := by
  induction text generalizing offset with
  | nil => exact Nat.zero_le _
  | cons c text ih =>
    rw [charsBefore]
    split
    next hsize =>
      have hpositive := c.utf8Size_pos
      have hrest := ih (offset - c.utf8Size)
      omega
    next => exact Nat.zero_le _

theorem charsBefore_le_length (offset : Nat) (text : List Char) :
    charsBefore offset text ≤ text.length := by
  induction text generalizing offset with
  | nil => exact Nat.le_refl 0
  | cons c text ih =>
    rw [charsBefore, List.length_cons]
    split
    next => exact Nat.succ_le_succ (ih _)
    next => exact Nat.zero_le _

/-- There are as many characters before an offset as bytes, if each of them is one byte. -/
theorem charsBefore_eq_iff {offset : Nat} {text : List Char} (h : offset ≤ byteSize text) :
    charsBefore offset text = offset ↔ ∀ c ∈ text.take offset, c.utf8Size = 1 := by
  induction text generalizing offset with
  | nil =>
    obtain rfl : offset = 0 := Nat.le_zero.1 h
    exact ⟨fun _ _ hc => absurd hc List.not_mem_nil, fun _ => rfl⟩
  | cons c text ih =>
    have hpositive := c.utf8Size_pos
    obtain _ | offset := offset
    · refine ⟨fun _ _ hc => absurd hc List.not_mem_nil, fun _ => ?_⟩
      rw [charsBefore, if_neg (by omega)]
    · rw [List.take_succ_cons, List.forall_mem_cons, charsBefore]
      by_cases hone : c.utf8Size = 1
      · rw [byteSize_cons] at h
        rw [if_pos (by omega), hone, Nat.add_sub_cancel, Nat.add_right_cancel_iff, ih (by omega)]
        exact (and_iff_right rfl).symm
      · have hless := charsBefore_le (offset + 1 - c.utf8Size) text
        refine ⟨fun hcount => absurd hcount ?_, fun hall => absurd hall.1 hone⟩
        split <;> omega

end Text

/-! ## The line that is shown -/

namespace LinePlace

/-- The offset is at most at the end of the line. -/
theorem reach_le {place : LinePlace} (h : place.column ≤ Text.byteSize place.text) :
    place.reach ≤ Text.byteSize place.shown := by
  have hspaces : Text.byteSize (place.text.takeWhile (· = ' ')) =
      (place.text.takeWhile (· = ' ')).length := by
    rw [Text.takeWhile_space, Text.byteSize_replicate, List.length_replicate]
    exact Nat.mul_one _
  have hsplit : Text.byteSize place.text =
      (place.text.takeWhile (· = ' ')).length + Text.byteSize place.shown := by
    rw [← hspaces, shown, ← Text.byteSize_append, List.takeWhile_append_dropWhile]
  rw [reach]
  omega

/-- On a line of characters of one byte each, the offset is no further out than the line is
long. -/
theorem reach_le_length {place : LinePlace} (h : place.column ≤ Text.byteSize place.text)
    (hone : ∀ c ∈ place.shown.take place.reach, c.utf8Size = 1) :
    place.reach ≤ place.text.length := by
  have hcount := (Text.charsBefore_eq_iff (reach_le h)).2 hone
  calc place.reach = Text.charsBefore place.reach place.shown := hcount.symm
    _ ≤ place.shown.length := Text.charsBefore_le_length _ _
    _ ≤ place.text.length := (List.dropWhile_sublist _).length_le

end LinePlace

/-- The blanks at the end of a text are dropped one by one. -/
theorem Text.dropBlanksRight_concat {c : Char} (h : isBlank c) (text : List Char) :
    dropBlanksRight (text ++ [c]) = dropBlanksRight text := by
  rw [dropBlanksRight, List.reverse_append, List.reverse_singleton, List.singleton_append,
    List.dropWhile_cons_of_pos h, dropBlanksRight]

theorem Text.mem_of_mem_dropBlanksRight {c : Char} {text : List Char}
    (h : c ∈ dropBlanksRight text) : c ∈ text := by
  rw [dropBlanksRight, List.mem_reverse] at h
  exact List.mem_reverse.1 ((List.dropWhile_suffix _).mem h)

/-- A line has no newline but at its end. -/
theorem Text.exists_of_mem_lines {line text : List Char} (h : line ∈ lines text) :
    ∃ body, '\n' ∉ body ∧ (line = body ∨ line = body ++ ['\n']) := by
  induction text using lines_induction with
  | empty => cases h
  | unended hne hline =>
    rw [lines_of_unended hne hline] at h
    exact ⟨_, hline, .inl (List.mem_singleton.1 h)⟩
  | ended hline ih =>
    rw [lines_of_ended hline] at h
    rcases List.mem_cons.1 h with rfl | h
    · exact ⟨_, hline, .inr rfl⟩
    · exact ih h

namespace LinePlace

variable {place : LinePlace} {source : List Char} {offset : UInt32}

theorem eq_among_of_find? (h : find? source offset = some place) :
    place = among 1 offset.toNat (Text.lines source) := by
  rw [find?] at h
  split at h
  next => cases h
  next => exact (Option.some.inj h).symm

theorem column_le_of_find? (h : find? source offset = some place) :
    place.column ≤ Text.byteSize place.text := by
  rw [eq_among_of_find? h]
  exact among_column_le _ _ _

/-- What is shown of a line is on one line. -/
theorem newline_notMem_of_find? (h : find? source offset = some place) :
    '\n' ∉ Text.dropBlanksRight place.shown := by
  have hplain {body : List Char} (hbody : '\n' ∉ body) :
      '\n' ∉ Text.dropBlanksRight (body.dropWhile (· = ' ')) :=
    fun hmem => hbody ((List.dropWhile_suffix _).mem (Text.mem_of_mem_dropBlanksRight hmem))
  have hline : place.text = [] ∨ place.text ∈ Text.lines source := by
    rw [eq_among_of_find? h]
    exact among_text _ _ _
  rw [shown]
  rcases hline with hnil | hline
  · rw [hnil]
    exact hplain List.not_mem_nil
  · obtain ⟨body, hbody, rfl | htext⟩ := Text.exists_of_mem_lines hline
    · exact hplain hbody
    · have hdrop : place.text.dropWhile (· = ' ') = body.dropWhile (· = ' ') ++ ['\n'] := by
        rw [htext, List.dropWhile_append]
        split
        next hspaces =>
          rw [List.isEmpty_iff.1 hspaces]
          rfl
        next => rfl
      rw [hdrop, Text.dropBlanksRight_concat Text.isBlank_newline]
      exact hplain hbody

end LinePlace

/-! ## The end of a report -/

namespace Diagnostic

/-- A report ends in three lines.  The first is a bar.  The second is a number and a text on the
two sides of a bar, with a space before the text.  The third is a bar and a space, and then some
dashes and a caret.  The bars stand in the same column. -/
def EndsInExcerpt (report : String) (text : List Char) (dashes : Nat) : Prop :=
  ∃ heading margin number : List Char,
    report.toList = heading ++ '\n' :: (margin ++ ['|', '\n'] ++
      (number ++ ['|', ' '] ++ text ++ ['\n']) ++
      (margin ++ ['|', ' '] ++ List.replicate dashes '-' ++ ['^', '\n'])) ∧
    number.length = margin.length ∧ '\n' ∉ margin ∧ '|' ∉ margin ∧
    '\n' ∉ number ∧ '|' ∉ number ∧ '\n' ∉ text

/-- The dashes can be counted from the end of a report. -/
theorem EndsInExcerpt.dashes_eq {report : String} {text text' : List Char} {dashes dashes' : Nat}
    (h : EndsInExcerpt report text dashes) (h' : EndsInExcerpt report text' dashes') :
    dashes = dashes' := by
  have hcount {text : List Char} {dashes : Nat} (h : EndsInExcerpt report text dashes) :
      ((report.toList.reverse.drop 2).takeWhile (· = '-')).length = dashes := by
    obtain ⟨heading, margin, number, hreport, _⟩ := h
    rw [hreport]
    simp
  exact (hcount h).symm.trans (hcount h')

/-- A report shows the line of its place, and the dashes lead as far as the bytes before it. -/
theorem IsReport.endsInExcerpt {d : Diagnostic} {place : LinePlace} {report : String}
    (h : d.IsReport place report) (htext : '\n' ∉ Text.dropBlanksRight place.shown) :
    EndsInExcerpt report (Text.dropBlanksRight place.shown) place.reach := by
  obtain ⟨indent, visible, htrims, hreport⟩ := h
  obtain ⟨rfl, rfl⟩ := Text.trims_iff.1 htrims
  have hdigits : ∀ c ∈ (toString place.number).toList, c.isDigit := by
    intro c hc
    rw [Nat.toString_eq_repr, Nat.toList_repr] at hc
    exact Nat.isDigit_of_mem_toDigits (by decide) (by decide) hc
  generalize toString place.number = number at hreport hdigits
  have hmargin (c : Char) (hc : c ≠ ' ') : c ∉ List.replicate (number.length + 1) ' ' :=
    fun hmem => hc (List.eq_of_mem_replicate hmem)
  have hnumber (c : Char) (hc : c ≠ ' ') (hdigit : c.isDigit = false) :
      c ∉ number.toList ++ [' '] := by
    intro hmem
    rcases List.mem_append.1 hmem with hmem | hmem
    · exact absurd (hdigits c hmem) (by rw [hdigit]; decide)
    · exact hc (List.mem_singleton.1 hmem)
  refine ⟨("Error: " ++ d.cause.name ++ (d.cause.tip?.elim "" fun tip => " (" ++ tip ++ ")") ++
      "\n" ++ "-> " ++ d.position.file).toList,
    List.replicate (number.length + 1) ' ', number.toList ++ [' '], ?_, ?_,
    hmargin _ (by decide), hmargin _ (by decide), hnumber _ (by decide) (by decide),
    hnumber _ (by decide) (by decide), htext⟩
  · rw [hreport]
    simp [LinePlace.shown, LinePlace.reach]
  · rw [List.length_append, List.length_replicate, String.length_toList, List.length_singleton]

end Diagnostic

namespace Program

variable {mode : Detection} {file source : String} {d : Diagnostic}

/-- A source that is no program is reported unless the caret would be too far out.  The report ends
in three lines, which show the line of the failure.  The dashes before the caret are counted in
bytes, from the first character that is shown.  So the caret stands under the offset, with a dash
for each character before it, just when the caret is not too far out and all these characters take
up one byte each.  On a line of fewer than 65535 characters the second of these is enough. -/
theorem caret_stands_under_iff (h : ofSource mode file source = .error d) :
    ∃ place, LinePlace.find? source.toList d.position.offset = some place ∧
      (d.report? source = none ↔ 65535 ≤ place.reach) ∧
      (∀ report, d.report? source = some report →
        Diagnostic.EndsInExcerpt report (Text.dropBlanksRight place.shown) place.reach) ∧
      ((∃ report, d.report? source = some report ∧
          Diagnostic.EndsInExcerpt report (Text.dropBlanksRight place.shown)
            (Text.charsBefore place.reach place.shown)) ↔
        place.reach < 65535 ∧ ∀ c ∈ place.shown.take place.reach, c.utf8Size = 1) ∧
      (place.text.length < 65535 → (∀ c ∈ place.shown.take place.reach, c.utf8Size = 1) →
        place.reach < 65535) := by
  obtain ⟨place, hplace, _⟩ := exists_locates_of_error h
  have hcolumn := LinePlace.column_le_of_find? hplace
  have htext := LinePlace.newline_notMem_of_find? hplace
  have hends {report : String} (hreport : d.report? source = some report) :
      Diagnostic.EndsInExcerpt report (Text.dropBlanksRight place.shown) place.reach :=
    ((Diagnostic.report?_eq_some_iff hplace).1 hreport).2.endsInExcerpt htext
  refine ⟨place, hplace, Diagnostic.report?_eq_none_iff hplace, fun _ => hends, ?_, ?_⟩
  · rw [← Text.charsBefore_eq_iff (LinePlace.reach_le hcolumn)]
    constructor
    · rintro ⟨report, hreport, hcaret⟩
      exact ⟨((Diagnostic.report?_eq_some_iff hplace).1 hreport).1,
        hcaret.dashes_eq (hends hreport)⟩
    · rintro ⟨hreach, hcount⟩
      obtain ⟨report, hreport, _⟩ := Diagnostic.report?_of_lt hplace hreach
      exact ⟨report, hreport, hcount.symm ▸ hends hreport⟩
  · intro hlength hone
    exact Nat.lt_of_le_of_lt (LinePlace.reach_le_length hcolumn hone) hlength

/-- On an indented line the caret stands under the sign behind `let`, as far in as the four
characters before it.  The characters of two bytes on the line before and further on do not
matter. -/
theorem caret_stands_under_iff_indented : ∃ (d : Diagnostic) (report : String),
    ofSource .forwardScan "shell" "\"é\"\n  let = \"é\"" = .error d ∧
      d.position.offset.toNat = 11 ∧
      LinePlace.find? "\"é\"\n  let = \"é\"".toList d.position.offset =
        some ⟨2, "  let = \"é\"".toList, 6⟩ ∧
      d.report? "\"é\"\n  let = \"é\"" = some report ∧
      Diagnostic.EndsInExcerpt report "let = \"é\"".toList 4 := by
  have hfails : ∃ d : Diagnostic, ofSource .forwardScan "shell" "\"é\"\n  let = \"é\"" = .error d ∧
      d.position.offset.toNat = 11 ∧
      LinePlace.find? "\"é\"\n  let = \"é\"".toList d.position.offset =
        some ⟨2, "  let = \"é\"".toList, 6⟩ := ⟨_, by cbv, by cbv, by cbv⟩
  obtain ⟨d, hfails, hoffset, hline⟩ := hfails
  obtain ⟨place, hplace, _, _, hcaret, _⟩ := caret_stands_under_iff hfails
  obtain rfl := Option.some.inj (hplace.symm.trans hline)
  have htext : Text.dropBlanksRight (LinePlace.shown ⟨2, "  let = \"é\"".toList, 6⟩) =
      "let = \"é\"".toList := by decide
  have hcount : Text.charsBefore (LinePlace.reach ⟨2, "  let = \"é\"".toList, 6⟩)
      (LinePlace.shown ⟨2, "  let = \"é\"".toList, 6⟩) = 4 := by decide
  rw [htext, hcount] at hcaret
  obtain ⟨report, hreport, hends⟩ := hcaret.2 ⟨by decide, List.all_iff_forall_prop.1 rfl⟩
  exact ⟨d, report, hfails, hoffset, hline, hreport, hends⟩

/-- Behind a character of two bytes the caret stands one column too far.  Four characters come
before the parenthesis, and the report has five dashes. -/
theorem caret_behind_wide_character : ∃ (d : Diagnostic) (place : LinePlace) (report : String),
    ofSource .forwardScan "shell" "\"é\" )" = .error d ∧
      LinePlace.find? "\"é\" )".toList d.position.offset = some place ∧
      place.text = "\"é\" )".toList ∧ Text.charsBefore place.reach place.shown = 4 ∧
      d.report? "\"é\" )" = some report ∧
      Diagnostic.EndsInExcerpt report "\"é\" )".toList 5 ∧
      ∀ text, ¬ Diagnostic.EndsInExcerpt report text 4 := by
  have hfails : ∃ d : Diagnostic, ofSource .forwardScan "shell" "\"é\" )" = .error d ∧
      LinePlace.find? "\"é\" )".toList d.position.offset = some ⟨1, "\"é\" )".toList, 5⟩ :=
    ⟨_, by cbv, by cbv⟩
  obtain ⟨d, hfails, hline⟩ := hfails
  obtain ⟨report, hreport, hsays⟩ := Diagnostic.report?_of_lt hline (by decide)
  have hends := hsays.endsInExcerpt (by decide)
  refine ⟨d, _, report, hfails, hline, rfl, by decide, hreport, hends, fun text hfour => ?_⟩
  exact absurd (hfour.dashes_eq hends) (by decide)

end Program

end Scriptlet
