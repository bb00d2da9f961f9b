import Mathlib
import Scriptlet.Diagnostic.Basic
import Scriptlet.Proofs.Source.Line

/-!
# What a report says

A report says what is wrong, with the tip if there is one, names the source, and shows a line of
it below a bar and above a caret (`Diagnostic.IsReport`).  Of the line the spaces before it and the
blanks behind it are left out (`Text.Trims`), and the dashes before the caret are as many as the
bytes between these spaces and the place.

The columns up to the caret are counted with 16 bits.  So a report is made where the caret is not
too far out (`Diagnostic.report?_eq_some_iff`), and else the program is stopped
(`Diagnostic.report?_eq_none_iff`).
-/

namespace Scriptlet

/-! ## The part of a line that is shown -/

namespace Text

/-- A line consists of spaces, of a text that neither starts with a space nor ends in a blank, and
of blanks. -/
structure Trims (line : List Char) (indent : Nat) (visible : List Char) : Prop where
  /-- The spaces are all that stand before the text, and the blanks all that stand behind it. -/
  line : ∃ blanks, line = List.replicate indent ' ' ++ (visible ++ blanks) ∧
    (∀ c ∈ (visible ++ blanks).head?, c ≠ ' ') ∧ ∀ c ∈ blanks, isBlank c
  /-- The text ends in no blank. -/
  last : ∀ c ∈ visible.getLast?, ¬ isBlank c

theorem takeWhile_space (line : List Char) :
    line.takeWhile (· = ' ') = List.replicate (line.takeWhile (· = ' ')).length ' ' :=
  List.eq_replicate_of_mem fun c hc => by simpa using List.mem_takeWhile_imp hc

theorem dropBlanksRight_append {visible blanks : List Char}
    (hlast : ∀ c ∈ visible.getLast?, ¬ isBlank c) (hblanks : ∀ c ∈ blanks, isBlank c) :
    dropBlanksRight (visible ++ blanks) = visible := by
  rw [← List.head?_reverse] at hlast
  rw [dropBlanksRight, List.reverse_append, (takeWhile_append_of_head
    (fun c hc => hblanks c (List.mem_reverse.1 hc)) hlast).2, List.reverse_reverse]

/-- Every line has such a part. -/
theorem trims_dropBlanksRight (line : List Char) : Trims line
    (line.takeWhile (· = ' ')).length (dropBlanksRight (line.dropWhile (· = ' '))) := by
  let text := line.dropWhile (· = ' ')
  have hblanks : dropBlanksRight text ++ (text.reverse.takeWhile isBlank).reverse = text := by
    rw [dropBlanksRight, ← List.reverse_append, List.takeWhile_append_dropWhile,
      List.reverse_reverse]
  refine ⟨⟨(text.reverse.takeWhile isBlank).reverse, ?_, ?_, ?_⟩, ?_⟩
  · rw [hblanks, ← takeWhile_space, List.takeWhile_append_dropWhile]
  · rw [hblanks]
    exact fun c hc => by simpa using not_of_mem_head?_dropWhile c hc
  · exact fun c hc => List.mem_takeWhile_imp (List.mem_reverse.1 hc)
  · rw [dropBlanksRight, List.getLast?_reverse]
    exact not_of_mem_head?_dropWhile

/-- It has no other one. -/
theorem trims_iff {line visible : List Char} {indent : Nat} : Trims line indent visible ↔
    indent = (line.takeWhile (· = ' ')).length ∧
      visible = dropBlanksRight (line.dropWhile (· = ' ')) := by
  constructor
  · rintro ⟨⟨blanks, rfl, hhead, hblanks⟩, hlast⟩
    obtain ⟨hspaces, htext⟩ := takeWhile_append_of_head (p := (· = ' '))
      (fun c hc => decide_eq_true (List.eq_of_mem_replicate hc))
      (fun c hc => by simpa using hhead c hc)
    rw [hspaces, htext, List.length_replicate, dropBlanksRight_append hlast hblanks]
    exact ⟨rfl, rfl⟩
  · rintro ⟨rfl, rfl⟩
    exact trims_dropBlanksRight line

end Text

namespace LinePlace

/-- The line of a place without the spaces before it. -/
def shown (place : LinePlace) : List Char := place.text.dropWhile (· = ' ')

/-- How far behind those spaces the offset is, in bytes. -/
def reach (place : LinePlace) : Nat :=
  place.column - (place.text.takeWhile (· = ' ')).length

end LinePlace

/-! ## Reports -/

namespace Diagnostic

/-- A text is the report of a diagnostic at a place. -/
def IsReport (d : Diagnostic) (place : LinePlace) (report : String) : Prop :=
  ∃ (indent : Nat) (visible : List Char), Text.Trims place.text indent visible ∧
    let number := toString place.number
    let margin := String.ofList (List.replicate (number.length + 1) ' ')
    let dashes := String.ofList (List.replicate (place.column - indent) '-')
    report =
      "Error: " ++ d.cause.name ++ (d.cause.tip?.elim "" fun tip => " (" ++ tip ++ ")") ++ "\n" ++
        "-> " ++ d.position.file ++ "\n" ++
        margin ++ "|\n" ++
        number ++ " | " ++ String.ofList visible ++ "\n" ++
        margin ++ "| " ++ dashes ++ "^\n"

variable {d : Diagnostic} {place : LinePlace} {source report : String}

/-- A diagnostic has one report at a place. -/
theorem IsReport.unique {report' : String} (h : d.IsReport place report)
    (h' : d.IsReport place report') : report' = report := by
  obtain ⟨_, _, htrims, rfl⟩ := h
  obtain ⟨_, _, htrims', rfl⟩ := h'
  obtain ⟨rfl, rfl⟩ := Text.trims_iff.1 htrims
  obtain ⟨rfl, rfl⟩ := Text.trims_iff.1 htrims'
  rfl

theorem headline_eq (cause : Cause) : headline cause =
    "Error: " ++ cause.name ++ (cause.tip?.elim "" fun tip => " (" ++ tip ++ ")") ++ "\n" := by
  rw [headline]
  cases cause.tip? with
  | none => simp
  | some tip => simp [String.append_assoc]

/-- The columns up to the caret are one more than the dashes. -/
theorem caret_width (place : LinePlace) :
    place.column - (place.text.length - (place.text.dropWhile (· = ' ')).length) + 1 =
      place.reach + 1 := by
  have hlength := congrArg List.length
    (List.takeWhile_append_dropWhile (p := (· = ' ')) (l := place.text))
  rw [List.length_append] at hlength
  have hremoved : place.text.length - (place.text.dropWhile (· = ' ')).length =
      (place.text.takeWhile (· = ' ')).length := Nat.sub_eq_of_eq_add hlength.symm
  rw [hremoved, LinePlace.reach]

theorem alignedRight?_of_lt (fill : Char) {width : Nat} (text : String) (h : width < 65536) :
    alignedRight? fill width text =
      some (String.ofList (List.replicate (width - text.length) fill) ++ text) := if_pos h

theorem alignedRight?_of_le (fill : Char) {width : Nat} (text : String) (h : 65536 ≤ width) :
    alignedRight? fill width text = none := if_neg (Nat.not_lt.2 h)

theorem report?_of_find? (h : LinePlace.find? source.toList d.position.offset = some place) :
    d.report? source =
      (excerpt? place).map (headline d.cause ++ "-> " ++ d.position.file ++ "\n" ++ ·) := by
  simp only [report?, h]
  cases excerpt? place <;> rfl

/-- Where the caret is too far out no report is made. -/
theorem report?_of_le (h : LinePlace.find? source.toList d.position.offset = some place)
    (hreach : 65535 ≤ place.reach) : d.report? source = none := by
  have hcaret := alignedRight?_of_le '-' "^" (Nat.succ_le_succ hreach)
  rw [report?_of_find? h, excerpt?, caret_width, hcaret]
  cases alignedRight? ' ' ((toString place.number).length + 2) "|" <;> rfl

/-- Where it is not, one is made. -/
theorem report?_of_lt (h : LinePlace.find? source.toList d.position.offset = some place)
    (hreach : place.reach < 65535) :
    ∃ report, d.report? source = some report ∧ d.IsReport place report := by
  have hnumber : (toString place.number).length ≤ 10 := by
    have hle := (LinePlace.find?_eq_some_iff.1 h).2.number_le
    have hlt := d.position.offset.toNat_lt
    exact Nat.repr_length _ 10 (by decide) (by omega)
  have hwidth : (toString place.number).length + 2 < 65536 := by omega
  have hbar := alignedRight?_of_lt ' ' "|" hwidth
  have hcaret := alignedRight?_of_lt '-' "^" (Nat.succ_lt_succ hreach)
  rw [report?_of_find? h, excerpt?, caret_width, hbar, hcaret]
  refine ⟨_, rfl, _, _, Text.trims_iff.2 ⟨rfl, rfl⟩, ?_⟩
  have hended : "|\n" = "|" ++ "\n" := rfl
  have hspaced : "| " = "|" ++ " " := rfl
  have hcaret : "^\n" = "^" ++ "\n" := rfl
  rw [headline_eq, hended, hspaced, hcaret]
  simp only [String.append_assoc]
  rfl

theorem report?_eq_some_iff (h : LinePlace.find? source.toList d.position.offset = some place) :
    d.report? source = some report ↔ place.reach < 65535 ∧ d.IsReport place report := by
  by_cases hreach : place.reach < 65535
  · obtain ⟨made, hmade, hreport⟩ := report?_of_lt h hreach
    rw [hmade, Option.some.injEq, and_iff_right hreach]
    constructor
    · rintro rfl
      exact hreport
    · exact fun hother => hother.unique hreport
  · rw [report?_of_le h (Nat.le_of_not_lt hreach)]
    exact ⟨fun hnone => (by cases hnone), fun hother => absurd hother.1 hreach⟩

theorem report?_eq_none_iff (h : LinePlace.find? source.toList d.position.offset = some place) :
    d.report? source = none ↔ 65535 ≤ place.reach := by
  refine ⟨fun hnone => Nat.le_of_not_lt fun hreach => ?_, report?_of_le h⟩
  obtain ⟨report, hreport, _⟩ := report?_of_lt h hreach
  rw [hnone] at hreport
  cases hreport

end Diagnostic

end Scriptlet
