import Mathlib
import Scriptlet.Command.Run
import Scriptlet.Proofs.Command.Arguments
import Scriptlet.Proofs.Diagnostic.Report
import Scriptlet.Proofs.Program.Forward
import Scriptlet.Proofs.Program.Shown

/-!
# What a command line is answered

A command line that makes no sense is answered without a look at any file.  Any other is answered
from its file, by the one thing that goes wrong (`Fails`) or by the program that the file holds
(`Holds`).  A failure that is too far out on its line has no report, and then the command stops
without an answer (`Stops`).  `observed` notes which files are read on the way.

`observed_exactly` says which answer is given when, and that flags may stand anywhere.
-/

namespace Scriptlet.Command

/-- The answer to a command line, and the paths of the files that are read for it. -/
def observed (read : String → Except ReadFailure String) (arguments : List String) :
    Response × List String :=
  let noted (path : String) : StateM (List String) (Except ReadFailure String) := do
    modify (· ++ [path])
    return read path
  Id.run ((runWith noted arguments).run [])

/-- A text in a file cannot be split into tokens, or the tokens are no program. -/
inductive Refuses (mode : Detection) (path source : String) (d : Diagnostic) : Prop where
  /-- The text cannot be split. -/
  | splitting (hd : Token.ofSource (fileName path) source = .error d) : Refuses mode path source d
  /-- The tokens are no program. -/
  | parsing {tokens : List Token} (htokens : Token.ofSource (fileName path) source = .ok tokens)
      (hd : Program.ofTokens mode tokens = .error d) : Refuses mode path source d

/-- A file cannot be read, or its text is refused.  What is said of it is given. -/
inductive Fails (read : String → Except ReadFailure String) (mode : Detection) (path : String) :
    String → Prop where
  /-- The file cannot be read. -/
  | reading {failure : ReadFailure} (h : read path = .error failure) :
      Fails read mode path ("Failed to read " ++ path ++ ": " ++ failure.message ++ "\n")
  /-- The text is refused, and this is the report of it. -/
  | refusing {source report : String} {d : Diagnostic} {place : LinePlace}
      (h : read path = .ok source) (hd : Refuses mode path source d)
      (hplace : place.Locates 1 (Text.bytes source.toList) d.position.offset.toNat)
      (hreach : place.reach < 65535) (hreport : d.IsReport place report) :
      Fails read mode path report

/-- The text of a file is refused for something that is too far out to be reported. -/
def Stops (read : String → Except ReadFailure String) (mode : Detection) (path : String) : Prop :=
  ∃ source d, ∃ place : LinePlace, read path = .ok source ∧ Refuses mode path source d ∧
    place.Locates 1 (Text.bytes source.toList) d.position.offset.toNat ∧ 65535 ≤ place.reach

/-- A file can be read and split into tokens, and these are a program. -/
def Holds (read : String → Except ReadFailure String) (mode : Detection) (path : String)
    (program : Program) : Prop :=
  ∃ source tokens, read path = .ok source ∧ Token.ofSource (fileName path) source = .ok tokens ∧
    Program.ofTokens mode tokens = .ok program

section

variable {read : String → Except ReadFailure String} {arguments : List String}
  {path source text : String} {d : Diagnostic} {place : LinePlace} {e : UsageError}
  {mode : Detection} {program : Program}

theorem observed_of_complaint (h : Complaint arguments e) :
    observed read arguments = (⟨"", e.message ++ "\n" ++ usage ++ "\n", 2⟩, []) := by
  simp only [observed, runWith, Request.ofArguments_of_complaint h]
  rfl

theorem observed_of_asks (h : Asks arguments path) :
    observed read arguments = (Request.response
      ⟨path, wantedMode arguments, "--print" ∈ arguments⟩ (read path), [path]) := by
  simp only [observed, runWith, Request.ofArguments_of_asks h]
  rfl

theorem Asks.not_complaint (h : Asks arguments path) (e : UsageError) :
    ¬ Complaint arguments e := by
  intro hcomplaint
  have hboth := Request.ofArguments_of_complaint hcomplaint
  rw [Request.ofArguments_of_asks h] at hboth
  cases hboth

theorem not_misused_of_asks (h : Asks arguments path) :
    ¬ ((∃ a ∈ arguments, IsUnknownFlag a) ∨ (files arguments).length ≠ 1) :=
  fun hmisused => absurd ((exists_complaint_iff arguments).2 hmisused)
    (not_exists.2 h.not_complaint)

theorem Asks.unique {path' : String} (h : Asks arguments path) (h' : Asks arguments path') :
    path' = path := by
  have hfiles := h'.files
  rw [h.files] at hfiles
  exact (List.cons.inj hfiles).1.symm

theorem Refuses.ofSource (h : Refuses mode path source d) :
    Program.ofSource mode (fileName path) source = .error d := by
  cases h with
  | splitting hd =>
    rw [Program.ofSource, hd]
    rfl
  | parsing htokens hd => rw [Program.ofSource_of_tokens htokens, hd]

/-- The place of what is refused is found in the source. -/
theorem Refuses.find? (h : Refuses mode path source d)
    (hplace : place.Locates 1 (Text.bytes source.toList) d.position.offset.toNat) :
    LinePlace.find? source.toList d.position.offset = some place := by
  obtain ⟨found, hfound, hlocates⟩ := Program.exists_locates_of_error h.ofSource
  rw [hfound, hplace.unique hlocates]

/-- Something goes wrong with a file, or the command is stopped, or the file holds a program. -/
theorem fails_or_stops_or_holds (read : String → Except ReadFailure String) (mode : Detection)
    (path : String) : (∃ text, Fails read mode path text) ∨ Stops read mode path ∨
      ∃ program, Holds read mode path program := by
  have hrefused {source : String} {d : Diagnostic} (hread : read path = .ok source)
      (hd : Refuses mode path source d) :
      (∃ text, Fails read mode path text) ∨ Stops read mode path := by
    obtain ⟨place, hfind, hplace⟩ := Program.exists_locates_of_error hd.ofSource
    by_cases hreach : place.reach < 65535
    · obtain ⟨report, _, hreport⟩ := Diagnostic.report?_of_lt hfind hreach
      exact .inl ⟨report, .refusing hread hd hplace hreach hreport⟩
    · exact .inr ⟨source, d, place, hread, hd, hplace, Nat.le_of_not_lt hreach⟩
  cases hread : read path with
  | error failure => exact .inl ⟨_, .reading hread⟩
  | ok source =>
    cases htokens : Token.ofSource (fileName path) source with
    | error d => exact (hrefused hread (.splitting htokens)).imp_right .inl
    | ok tokens =>
      cases hprogram : Program.ofTokens mode tokens with
      | error d => exact (hrefused hread (.parsing htokens hprogram)).imp_right .inl
      | ok program => exact .inr (.inr ⟨program, source, tokens, hread, htokens, hprogram⟩)

namespace Request

variable (writes : Bool)

/-- A failure is answered by what is said of it. -/
theorem response_of_fails (h : Fails read mode path text) :
    response ⟨path, mode, writes⟩ (read path) = ⟨"", text, 1⟩ := by
  cases h with
  | reading hread =>
    rw [hread]
    rfl
  | refusing hread hd hplace hreach hreport =>
    have hmade := (Diagnostic.report?_eq_some_iff (hd.find? hplace)).2 ⟨hreach, hreport⟩
    rw [hread]
    simp only [response, Request.program, hd.ofSource, Diagnostic.report, hmade]
    rfl

/-- Where no report is made, nothing is said. -/
theorem response_of_stops (h : Stops read mode path) :
    response ⟨path, mode, writes⟩ (read path) = ⟨"", "", 101⟩ := by
  obtain ⟨source, d, place, hread, hd, hplace, hreach⟩ := h
  have hnone := (Diagnostic.report?_eq_none_iff (hd.find? hplace)).2 hreach
  rw [hread]
  simp only [response, Request.program, hd.ofSource, Diagnostic.report, hnone]
  rfl

/-- A program is shown. -/
theorem response_of_holds (h : Holds read mode path program) :
    response ⟨path, mode, writes⟩ (read path) = ⟨shown ⟨path, mode, writes⟩ program, "", 0⟩ := by
  obtain ⟨source, tokens, hread, htokens, hprogram⟩ := h
  rw [hread]
  simp only [response, Request.program, Program.ofSource_of_tokens htokens, hprogram]

end Request

/-- Only one thing goes wrong with a file. -/
theorem Fails.unique {text' : String} (h : Fails read mode path text)
    (h' : Fails read mode path text') : text = text' :=
  congrArg Response.complaint
    ((Request.response_of_fails false h).symm.trans (Request.response_of_fails false h'))

/-- Where something goes wrong with a file, the command is not stopped. -/
theorem Fails.not_stops (h : Fails read mode path text) : ¬ Stops read mode path := by
  intro hstops
  have hsame := (Request.response_of_fails false h).symm.trans
    (Request.response_of_stops false hstops)
  exact absurd (congrArg Response.status hsame) (by decide : (1 : UInt8) ≠ 101)

/-- A file in which something goes wrong holds no program. -/
theorem Fails.not_holds (h : Fails read mode path text) (program : Program) :
    ¬ Holds read mode path program := by
  intro hholds
  have hsame := (Request.response_of_fails false h).symm.trans
    (Request.response_of_holds false hholds)
  exact absurd (congrArg Response.status hsame) (by decide : (1 : UInt8) ≠ 0)

theorem Stops.not_holds (h : Stops read mode path) (program : Program) :
    ¬ Holds read mode path program := by
  intro hholds
  have hsame := (Request.response_of_stops false h).symm.trans
    (Request.response_of_holds false hholds)
  exact absurd (congrArg Response.status hsame) (by decide : (101 : UInt8) ≠ 0)

end

/-! ## Answers -/

/-- A command line is answered in this way, and these files are read for it. -/
structure Answered (read : String → Except ReadFailure String) (arguments : List String)
    (response : Response) (opened : List String) : Prop where
  /-- Status 2 stands for a flag that does not exist, or for no file or more than one. -/
  misused : response.status = 2 ↔
    (∃ a ∈ arguments, IsUnknownFlag a) ∨ (files arguments).length ≠ 1
  /-- Then no file is read, and what is wrong is said and how the command is called. -/
  complaint : response.status = 2 → response.output = "" ∧ opened = [] ∧
    ∃ e, Complaint arguments e ∧ response.complaint = e.message ++ "\n" ++ usage ++ "\n"
  /-- Status 1 stands for a file in which something goes wrong. -/
  failed : response.status = 1 ↔ ∃ path, Asks arguments path ∧
    ∃ text, Fails read (wantedMode arguments) path text
  /-- Then the only diagnostic is shown. -/
  diagnostic : response.status = 1 → response.output = "" ∧ ∃ path, Asks arguments path ∧
    opened = [path] ∧
    ∀ text, Fails read (wantedMode arguments) path text ↔ text = response.complaint
  /-- Status 101 stands for a command that is stopped. -/
  stopped : response.status = 101 ↔ ∃ path, Asks arguments path ∧
    Stops read (wantedMode arguments) path
  /-- Then it has read the file and says nothing. -/
  silent : response.status = 101 → response.output = "" ∧ response.complaint = "" ∧
    ∃ path, Asks arguments path ∧ opened = [path]
  /-- Any other status is 0, and the program of the file is shown. -/
  shown : response.status ≠ 2 → response.status ≠ 1 → response.status ≠ 101 →
    response.status = 0 ∧ response.complaint = "" ∧ ∃ path program, Asks arguments path ∧
      opened = [path] ∧ Holds read (wantedMode arguments) path program ∧
      response.output = if "--print" ∈ arguments then program.written (wantedMode arguments)
        else program.outline.pretty 0 ++ "\n"

section

variable {read : String → Except ReadFailure String} {arguments : List String} {path text : String}
  {program : Program} {e : UsageError}

/-- What is wrong with a command line that makes no sense is not in a file. -/
theorem Complaint.not_asks {P : String → Prop} (h : Complaint arguments e) :
    ¬ ∃ path, Asks arguments path ∧ P path := by
  rintro ⟨path, hasks, _⟩
  exact hasks.not_complaint e h

/-- What does not hold of the file that is asked for holds of no such file. -/
theorem Asks.not_exists {P : String → Prop} (h : Asks arguments path) (hnot : ¬ P path) :
    ¬ ∃ path, Asks arguments path ∧ P path := by
  rintro ⟨path', hasks, hp⟩
  obtain rfl := h.unique hasks
  exact hnot hp

theorem answered_of_complaint (h : Complaint arguments e) :
    Answered read arguments ⟨"", e.message ++ "\n" ++ usage ++ "\n", 2⟩ [] where
  misused := iff_of_true rfl ((exists_complaint_iff arguments).1 ⟨e, h⟩)
  complaint _ := ⟨rfl, rfl, e, h, rfl⟩
  failed := iff_of_false (by decide : (2 : UInt8) ≠ 1) h.not_asks
  diagnostic hstatus := absurd hstatus (by decide : (2 : UInt8) ≠ 1)
  stopped := iff_of_false (by decide : (2 : UInt8) ≠ 101) h.not_asks
  silent hstatus := absurd hstatus (by decide : (2 : UInt8) ≠ 101)
  shown hstatus := absurd rfl hstatus

theorem answered_of_fails (h : Asks arguments path)
    (hfails : Fails read (wantedMode arguments) path text) :
    Answered read arguments ⟨"", text, 1⟩ [path] where
  misused := iff_of_false (by decide : (1 : UInt8) ≠ 2) (not_misused_of_asks h)
  complaint hstatus := absurd hstatus (by decide : (1 : UInt8) ≠ 2)
  failed := iff_of_true rfl ⟨path, h, text, hfails⟩
  diagnostic _ := by
    refine ⟨rfl, path, h, rfl, fun text' => ⟨fun hfails' => ?_, ?_⟩⟩
    · exact hfails'.unique hfails
    · rintro rfl
      exact hfails
  stopped := iff_of_false (by decide : (1 : UInt8) ≠ 101) (h.not_exists hfails.not_stops)
  silent hstatus := absurd hstatus (by decide : (1 : UInt8) ≠ 101)
  shown _ hstatus := absurd rfl hstatus

theorem answered_of_stops (h : Asks arguments path)
    (hstops : Stops read (wantedMode arguments) path) :
    Answered read arguments ⟨"", "", 101⟩ [path] where
  misused := iff_of_false (by decide : (101 : UInt8) ≠ 2) (not_misused_of_asks h)
  complaint hstatus := absurd hstatus (by decide : (101 : UInt8) ≠ 2)
  failed := by
    refine iff_of_false (by decide : (101 : UInt8) ≠ 1) (h.not_exists ?_)
    rintro ⟨text, hfails⟩
    exact hfails.not_stops hstops
  diagnostic hstatus := absurd hstatus (by decide : (101 : UInt8) ≠ 1)
  stopped := iff_of_true rfl ⟨path, h, hstops⟩
  silent _ := ⟨rfl, rfl, path, h, rfl⟩
  shown _ _ hstatus := absurd rfl hstatus

theorem answered_of_holds (h : Asks arguments path)
    (hholds : Holds read (wantedMode arguments) path program) :
    Answered read arguments ⟨Request.shown ⟨path, wantedMode arguments, "--print" ∈ arguments⟩
      program, "", 0⟩ [path] where
  misused := iff_of_false (by decide : (0 : UInt8) ≠ 2) (not_misused_of_asks h)
  complaint hstatus := absurd hstatus (by decide : (0 : UInt8) ≠ 2)
  failed := by
    refine iff_of_false (by decide : (0 : UInt8) ≠ 1) (h.not_exists ?_)
    rintro ⟨text, hfails⟩
    exact hfails.not_holds program hholds
  diagnostic hstatus := absurd hstatus (by decide : (0 : UInt8) ≠ 1)
  stopped := iff_of_false (by decide : (0 : UInt8) ≠ 101)
    (h.not_exists fun hstops => hstops.not_holds program hholds)
  silent hstatus := absurd hstatus (by decide : (0 : UInt8) ≠ 101)
  shown _ _ _ := ⟨rfl, rfl, path, program, h, rfl, hholds, by simp [Request.shown]⟩

end

/-- A command line that has a flag that does not exist, or that does not name exactly one file, is
answered with status 2 and what is wrong with it, and no file is read.  Any other is answered from
the one file that it names: with status 1 and the only diagnostic if the file cannot be read or is
no program, and else with status 0 and the program, written in the way that it was read in or
outlined.  Only where a diagnostic is too far out on its line, the status is 101 and nothing is
said.  Where the flags stand, and how often, makes no difference. -/
theorem observed_exactly (read : String → Except ReadFailure String) (arguments : List String) :
    (∃ response opened, observed read arguments = (response, opened) ∧
      Answered read arguments response opened) ∧
    ∀ arguments', SameButForFlags arguments arguments' →
      observed read arguments' = observed read arguments := by
  constructor
  · obtain ⟨path, hasks⟩ | ⟨e, hcomplaint⟩ := asks_or_complaint arguments
    · rw [observed_of_asks hasks]
      obtain ⟨text, hfails⟩ | hstops | ⟨program, hholds⟩ :=
        fails_or_stops_or_holds read (wantedMode arguments) path
      · rw [Request.response_of_fails _ hfails]
        exact ⟨_, _, rfl, answered_of_fails hasks hfails⟩
      · rw [Request.response_of_stops _ hstops]
        exact ⟨_, _, rfl, answered_of_stops hasks hstops⟩
      · rw [Request.response_of_holds _ hholds]
        exact ⟨_, _, rfl, answered_of_holds hasks hholds⟩
    · rw [observed_of_complaint hcomplaint]
      exact ⟨_, _, rfl, answered_of_complaint hcomplaint⟩
  · intro arguments' hsame
    simp only [observed, runWith, Request.ofArguments_congr hsame]

/-- A call before a declaration is a program in the anchored way only.  The flags stand around the
file, and one of them stands there twice. -/
theorem observed_exactly_flags_around :
    let read (path : String) : Except ReadFailure String :=
      if path = "d/s" then .ok "f(x)\ng() \x7b\x7d" else .error .notFound
    let report := "Error: UnexpectedToken (expected `\x7b` to open the body of `f`: expected " ++
      "`\x7b`, found `Identifier (g)`)\n-> s\n  |\n2 | g() \x7b\x7d\n  | ^\n"
    SameButForFlags ["--anchored", "d/s", "--print"] ["--print", "d/s", "--anchored", "--print"] ∧
      observed read ["--print", "d/s", "--anchored", "--print"] =
        (⟨"f(x)\ng() \x7b\x7d\n", "", 0⟩, ["d/s"]) ∧
      observed read ["--print", "d/s"] = (⟨"", report, 1⟩, ["d/s"]) ∧
      (∃ path, Asks ["--print", "d/s"] path ∧ Fails read .forwardScan path report) ∧
      observed read ["d/s", "--no", "e"] =
        (⟨"", "unknown flag `--no`\n" ++ usage ++ "\n", 2⟩, []) := by
  intro read report
  have hsame : SameButForFlags ["--anchored", "d/s", "--print"]
      ["--print", "d/s", "--anchored", "--print"] := ⟨by decide, by decide⟩
  have hanchored : observed read ["--anchored", "d/s", "--print"] =
      (⟨"f(x)\ng() \x7b\x7d\n", "", 0⟩, ["d/s"]) := by decide +kernel
  have hforward : observed read ["--print", "d/s"] = (⟨"", report, 1⟩, ["d/s"]) := by
    decide +kernel
  obtain ⟨⟨response, opened, hresponse, hanswered⟩, _⟩ :=
    observed_exactly read ["--print", "d/s"]
  cases hforward.symm.trans hresponse
  obtain ⟨_, path, hasks, _, honly⟩ := hanswered.diagnostic rfl
  exact ⟨hsame, ((observed_exactly read _).2 _ hsame).trans hanchored, hforward,
    ⟨path, hasks, (honly report).2 rfl⟩, by decide +kernel⟩

/-- Behind 65534 spaces a closing parenthesis is refused, but the status is not 1, and nothing is
said of it. -/
theorem observed_stopped_behind_spaces :
    let read (path : String) : Except ReadFailure String :=
      if path = "s" then .ok (Program.emptyParens 65534) else .error .notFound
    Asks ["s"] "s" ∧ (∃ d, Refuses .forwardScan "s" (Program.emptyParens 65534) d) ∧
      observed read ["s"] = (⟨"", "", 101⟩, ["s"]) := by
  intro read
  have hknown : ¬ IsUnknownFlag "s" := fun h => absurd (isFlag_iff.2 h.1) (by decide)
  have hasks : Asks ["s"] "s" :=
    ⟨List.forall_mem_singleton.2 hknown, files_of_namesFile (by decide)⟩
  have hd := Program.error_emptyParens .forwardScan (fileName "s") 65533
  have htokens := Program.ofSource_emptyParens (fileName "s") 65533
  have hrefuses := Refuses.parsing htokens ((Program.ofSource_of_tokens htokens).symm.trans hd)
  have hplace : LinePlace.find? (Program.emptyParens 65534).toList 65535 =
      some ⟨1, (Program.emptyParens 65534).toList, 65535⟩ := Program.find?_emptyParens rfl
  have hstops : Stops read .forwardScan "s" :=
    ⟨_, _, _, if_pos rfl, hrefuses, (LinePlace.find?_eq_some_iff.1 hplace).2,
      Nat.le_of_eq (Program.reach_emptyParens 65534).symm⟩
  rw [observed_of_asks hasks]
  exact ⟨hasks, ⟨_, hrefuses⟩, congrArg (·, ["s"]) (Request.response_of_stops false hstops)⟩

end Scriptlet.Command
