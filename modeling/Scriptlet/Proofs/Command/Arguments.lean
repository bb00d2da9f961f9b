import Mathlib.Data.List.Induction
import Scriptlet.Command.Run

/-!
# The arguments of a command line

An argument that starts like a flag is one or is at fault, and of the others one may name the
file.  `Complaint` says what is wrong with a command line by its first argument that offends, and
`Asks` what a command line that makes sense looks like.  One of the two holds of every command
line, and the reader of arguments answers accordingly (`Request.ofArguments_of_complaint`,
`Request.ofArguments_of_asks`).

The arguments are read one by one, so the step lemmas speak of what was found in the arguments
before (`Found.after`).  In the end the flags play no part but by being there
(`Request.ofArguments_congr`).
-/

namespace Scriptlet.Command

/-! ## Kinds of arguments -/

/-- The flags that there are. -/
def flags : List String := ["--anchored", "--print"]

/-- An argument starts with two dashes and is none of the flags. -/
def IsUnknownFlag (argument : String) : Prop := (∃ rest, argument = "--" ++ rest) ∧ argument ∉ flags

/-- An argument that does not start with two dashes names a file. -/
def NamesFile (argument : String) : Prop := ¬ ∃ rest, argument = "--" ++ rest

theorem isFlag_iff {argument : String} : isFlag argument ↔ ∃ rest, argument = "--" ++ rest := by
  rw [isFlag, List.isPrefixOf_iff_prefix]
  constructor
  · rintro ⟨rest, hrest⟩
    exact ⟨String.ofList rest, String.toList_inj.1 (by simp [← hrest])⟩
  · rintro ⟨rest, rfl⟩
    exact ⟨rest.toList, by simp⟩

instance : DecidablePred NamesFile := fun argument =>
  decidable_of_iff (¬ isFlag argument) (not_congr isFlag_iff)

theorem not_namesFile_of_mem_flags {argument : String} (h : argument ∈ flags) :
    ¬ NamesFile argument := by
  simp only [flags, List.mem_cons, List.not_mem_nil, or_false] at h
  rcases h with rfl | rfl <;> decide

/-- The arguments that name files. -/
def files (arguments : List String) : List String := arguments.filter NamesFile

/-- The arguments that are no flags. -/
def withoutFlags (arguments : List String) : List String := arguments.filter (· ∉ flags)

/-- How a command line wants declarations to be recognised. -/
def wantedMode (arguments : List String) : Detection :=
  if "--anchored" ∈ arguments then .anchored else .forwardScan

/-! ## Command lines -/

/-- No argument offends: there are only flags and at most one file. -/
structure Fits (arguments : List String) : Prop where
  /-- What starts with two dashes is a flag. -/
  known : ∀ a ∈ arguments, ¬ IsUnknownFlag a
  /-- No second file is named. -/
  single : (files arguments).length ≤ 1

/-- What is wrong with a command line: its first argument that offends, or that it names no
file. -/
inductive Complaint : List String → UsageError → Prop where
  /-- A flag that does not exist. -/
  | unknownFlag {before : List String} {flag : String} (after : List String) (h : Fits before)
      (hflag : IsUnknownFlag flag) : Complaint (before ++ flag :: after) (.unknownFlag flag)
  /-- A second file. -/
  | unexpectedArgument {before : List String} {extra : String} (after : List String)
      (h : Fits before) (hfirst : files before ≠ []) (hextra : NamesFile extra) :
      Complaint (before ++ extra :: after) (.unexpectedArgument extra)
  /-- No file, and nothing that offends. -/
  | noFile {arguments : List String} (h : Fits arguments) (hnone : files arguments = []) :
      Complaint arguments .noFile

/-- A command line makes sense and names a file. -/
structure Asks (arguments : List String) (path : String) : Prop where
  /-- What starts with two dashes is a flag. -/
  known : ∀ a ∈ arguments, ¬ IsUnknownFlag a
  /-- The file is the only one. -/
  files : files arguments = [path]

section

variable {before arguments : List String} {argument path : String} {e : UsageError}

@[simp] theorem files_append (left right : List String) :
    files (left ++ right) = files left ++ files right := List.filter_append _ _

theorem files_of_namesFile (h : NamesFile argument) : files [argument] = [argument] := by
  simp [files, h]

theorem files_of_not (h : ¬ NamesFile argument) : files [argument] = [] := by
  simp [files, h]

/-- The next argument is a flag or the first file, or it offends. -/
theorem fits_concat (h : Fits before) : Fits (before ++ [argument]) ∨ IsUnknownFlag argument ∨
    files before ≠ [] ∧ NamesFile argument := by
  by_cases hflag : IsUnknownFlag argument
  · exact .inr (.inl hflag)
  have hknown : ∀ a ∈ before ++ [argument], ¬ IsUnknownFlag a :=
    List.forall_mem_append.2 ⟨h.known, List.forall_mem_singleton.2 hflag⟩
  by_cases hfile : NamesFile argument
  · by_cases hfirst : files before = []
    · refine .inl ⟨hknown, ?_⟩
      rw [files_append, hfirst, files_of_namesFile hfile]
      exact Nat.le_refl _
    · exact .inr (.inr ⟨hfirst, hfile⟩)
  · refine .inl ⟨hknown, ?_⟩
    rw [files_append, files_of_not hfile, List.append_nil]
    exact h.single

/-- Nothing offends, or something is the first to do so. -/
theorem fits_or_complaint (arguments : List String) :
    Fits arguments ∨ ∃ e, Complaint arguments e := by
  suffices hfirst : Fits arguments ∨ ∃ before argument after,
      arguments = before ++ argument :: after ∧ Fits before ∧
        (IsUnknownFlag argument ∨ files before ≠ [] ∧ NamesFile argument) by
    obtain h | ⟨before, argument, after, rfl, h, hflag | ⟨hfile, hextra⟩⟩ := hfirst
    · exact .inl h
    · exact .inr ⟨_, .unknownFlag after h hflag⟩
    · exact .inr ⟨_, .unexpectedArgument after h hfile hextra⟩
  induction arguments using List.reverseRecOn with
  | nil => exact .inl ⟨List.forall_mem_nil _, Nat.zero_le _⟩
  | append_singleton before argument ih =>
    obtain h | ⟨before, first, after, rfl, h, hoffends⟩ := ih
    · obtain hfits | hoffends := fits_concat h
      · exact .inl hfits
      · exact .inr ⟨before, argument, [], rfl, h, hoffends⟩
    · exact .inr ⟨before, first, after ++ [argument], by simp, h, hoffends⟩

/-- A command line makes sense, or there is something wrong with it. -/
theorem asks_or_complaint (arguments : List String) :
    (∃ path, Asks arguments path) ∨ ∃ e, Complaint arguments e := by
  obtain h | hcomplaint := fits_or_complaint arguments
  · have hsingle := h.single
    rcases hfiles : files arguments with _ | ⟨path, _ | ⟨extra, more⟩⟩
    · exact .inr ⟨_, .noFile h hfiles⟩
    · exact .inl ⟨path, h.known, hfiles⟩
    · rw [hfiles] at hsingle
      simp at hsingle
  · exact .inr hcomplaint

/-! ## Reading the arguments -/

/-- What is found in some arguments. -/
def Found.after (arguments : List String) : Found :=
  ⟨(files arguments).head?, wantedMode arguments, "--print" ∈ arguments⟩

theorem Found.add_of_unknown (found : Found) (h : IsUnknownFlag argument) :
    found.add argument = .error (.unknownFlag argument) := by
  obtain ⟨hdashes, hflag⟩ := h
  simp only [flags, List.mem_cons, List.not_mem_nil, or_false, not_or] at hflag
  rw [add, if_neg hflag.1, if_neg hflag.2, if_pos (isFlag_iff.2 hdashes)]

/-- An argument that names a file is taken, or it is the second one. -/
theorem Found.add_of_namesFile (found : Found) (h : NamesFile argument) :
    (found.path = none → found.add argument = .ok { found with path := some argument }) ∧
      (found.path ≠ none → found.add argument = .error (.unexpectedArgument argument)) := by
  have hne {flag : String} (hmem : flag ∈ flags) : argument ≠ flag := by
    rintro rfl
    exact not_namesFile_of_mem_flags hmem h
  rw [add, if_neg (hne (by decide)), if_neg (hne (by decide)), if_neg (mt isFlag_iff.1 h)]
  constructor
  · intro hnone
    rw [hnone]
  · intro hsome
    obtain ⟨path, hpath⟩ := Option.ne_none_iff_exists'.1 hsome
    rw [hpath]

/-- The file is the last argument that names one. -/
theorem Found.after_concat_of_namesFile (h : NamesFile argument) (hnone : files before = []) :
    after (before ++ [argument]) = { after before with path := some argument } := by
  have hne {flag : String} (hmem : flag ∈ flags) : flag ≠ argument := by
    rintro rfl
    exact not_namesFile_of_mem_flags hmem h
  have hanchored : "--anchored" ≠ argument := hne (by decide)
  have hprint : "--print" ≠ argument := hne (by decide)
  simp [after, wantedMode, files_of_namesFile h, hnone, hanchored, hprint]

/-- What is found in some arguments and in one more that does not offend. -/
theorem Found.add_after (h : Fits (before ++ [argument])) :
    (after before).add argument = .ok (after (before ++ [argument])) := by
  obtain ⟨hknown, hsingle⟩ := h
  by_cases hfile : NamesFile argument
  · have hnone : files before = [] := by
      rw [files_append, files_of_namesFile hfile, List.length_append] at hsingle
      exact List.length_eq_zero_iff.1 (Nat.le_zero.1 (Nat.le_of_succ_le_succ hsingle))
    have hpath : (after before).path = none := by rw [after, hnone, List.head?_nil]
    rw [((after before).add_of_namesFile hfile).1 hpath, after_concat_of_namesFile hfile hnone]
  · have hflag : argument ∈ flags := by
      by_contra hnot
      exact hknown argument (by simp) ⟨not_not.1 hfile, hnot⟩
    have hnone := files_of_not hfile
    simp only [flags, List.mem_cons, List.not_mem_nil, or_false] at hflag
    rcases hflag with rfl | rfl
    · simp [add, after, wantedMode, hnone]
    · simp [add, after, wantedMode, hnone]

/-- Of arguments that do not offend, flags and file are found. -/
theorem foldlM_add_of_fits (h : Fits arguments) :
    arguments.foldlM Found.add {} = .ok (Found.after arguments) := by
  induction arguments using List.reverseRecOn with
  | nil => rfl
  | append_singleton before argument ih =>
    have hbefore : Fits before := by
      refine ⟨fun a ha => h.known a (List.mem_append_left _ ha), ?_⟩
      have hsingle := h.single
      rw [files_append, List.length_append] at hsingle
      exact Nat.le_of_add_right_le hsingle
    rw [List.foldlM_append, ih hbefore]
    show (List.foldlM Found.add (Found.after before) [argument] : Except UsageError Found) = _
    rw [List.foldlM_cons, Found.add_after h]
    rfl

/-- The first argument that offends ends the reading. -/
theorem foldlM_add_of_offends (h : Fits before) (after : List String)
    (hoffends : (Found.after before).add argument = .error e) :
    (before ++ argument :: after).foldlM Found.add {} = .error e := by
  rw [List.foldlM_append, foldlM_add_of_fits h]
  show (List.foldlM Found.add (Found.after before) (argument :: after) :
    Except UsageError Found) = _
  rw [List.foldlM_cons, hoffends]
  rfl

/-! ## What a command line asks for -/

namespace Request

/-- What is wrong with a command line is said. -/
theorem ofArguments_of_complaint (h : Complaint arguments e) :
    ofArguments arguments = .error e := by
  cases h with
  | unknownFlag after hfits hflag =>
    rw [ofArguments, foldlM_add_of_offends hfits after (Found.add_of_unknown _ hflag)]
    rfl
  | @unexpectedArgument before extra after hfits hfirst hextra =>
    have hpath : (Found.after before).path ≠ none := by
      rw [Found.after, Ne, List.head?_eq_none_iff]
      exact hfirst
    rw [ofArguments, foldlM_add_of_offends hfits after
      (((Found.after before).add_of_namesFile hextra).2 hpath)]
    rfl
  | noFile hfits hnone =>
    rw [ofArguments, foldlM_add_of_fits hfits, Found.after, hnone]
    rfl

/-- A command line that makes sense asks for its file, in the way that its flags say. -/
theorem ofArguments_of_asks (h : Asks arguments path) :
    ofArguments arguments = .ok ⟨path, wantedMode arguments, "--print" ∈ arguments⟩ := by
  have hfits : Fits arguments := ⟨h.known, by rw [h.files]; exact Nat.le_refl 1⟩
  rw [ofArguments, foldlM_add_of_fits hfits, Found.after, h.files]
  rfl

end Request

/-! ## Flags anywhere -/

/-- Two command lines differ at most in where their flags stand and in how often they do. -/
structure SameButForFlags (arguments arguments' : List String) : Prop where
  /-- All else is the same, in the same order. -/
  others : withoutFlags arguments' = withoutFlags arguments
  /-- The same flags are there. -/
  present : ∀ flag ∈ flags, flag ∈ arguments' ↔ flag ∈ arguments

theorem files_withoutFlags (arguments : List String) :
    files (withoutFlags arguments) = files arguments := by
  rw [files, withoutFlags, List.filter_filter, files]
  refine List.filter_congr fun a _ => ?_
  by_cases hfile : NamesFile a
  · have hnot : a ∉ flags := fun hmem => not_namesFile_of_mem_flags hmem hfile
    simp [hfile, hnot]
  · simp [hfile]

theorem fits_withoutFlags (h : Fits arguments) : Fits (withoutFlags arguments) :=
  ⟨fun a ha => h.known a ((List.mem_filter.1 ha).1), by
    rw [files_withoutFlags]
    exact h.single⟩

theorem withoutFlags_append_cons (before after : List String) (h : argument ∉ flags) :
    withoutFlags (before ++ argument :: after) =
      withoutFlags before ++ argument :: withoutFlags after := by
  simp [withoutFlags, h]

/-- What is wrong with a command line is wrong with it without its flags. -/
theorem complaint_withoutFlags (h : Complaint arguments e) :
    Complaint (withoutFlags arguments) e := by
  cases h with
  | unknownFlag after hfits hflag =>
    rw [withoutFlags_append_cons _ _ hflag.2]
    exact .unknownFlag _ (fits_withoutFlags hfits) hflag
  | @unexpectedArgument before extra after hfits hfirst hextra =>
    have hnot : extra ∉ flags := fun hmem => not_namesFile_of_mem_flags hmem hextra
    rw [withoutFlags_append_cons _ _ hnot]
    exact .unexpectedArgument _ (fits_withoutFlags hfits) (by rwa [files_withoutFlags]) hextra
  | noFile hfits hnone => exact .noFile (fits_withoutFlags hfits) (by rwa [files_withoutFlags])

namespace Request

theorem ofArguments_withoutFlags (arguments : List String) :
    ofArguments arguments = (ofArguments (withoutFlags arguments)).map fun request =>
      { request with mode := wantedMode arguments, writes := "--print" ∈ arguments } := by
  obtain ⟨path, hasks⟩ | ⟨e, hcomplaint⟩ := asks_or_complaint arguments
  · have hasks' : Asks (withoutFlags arguments) path :=
      ⟨fun a ha => hasks.known a ((List.mem_filter.1 ha).1), by
        rw [files_withoutFlags, hasks.files]⟩
    rw [ofArguments_of_asks hasks, ofArguments_of_asks hasks']
    rfl
  · rw [ofArguments_of_complaint hcomplaint,
      ofArguments_of_complaint (complaint_withoutFlags hcomplaint)]
    rfl

/-- Where the flags of a command line stand, and how often, plays no part. -/
theorem ofArguments_congr {arguments' : List String} (h : SameButForFlags arguments arguments') :
    ofArguments arguments' = ofArguments arguments := by
  have hanchored := h.present "--anchored" (by decide)
  have hprint := h.present "--print" (by decide)
  rw [ofArguments_withoutFlags arguments', ofArguments_withoutFlags arguments, h.others]
  simp only [wantedMode, hanchored, hprint]

end Request

/-- A command line makes no sense just when it has a flag that does not exist or does not name
exactly one file. -/
theorem exists_complaint_iff (arguments : List String) : (∃ e, Complaint arguments e) ↔
    (∃ a ∈ arguments, IsUnknownFlag a) ∨ (files arguments).length ≠ 1 := by
  constructor
  · rintro ⟨e, h⟩
    cases h with
    | @unknownFlag before flag after _ hflag =>
      exact .inl ⟨flag, List.mem_append_right before (.head after), hflag⟩
    | @unexpectedArgument before extra after _ hfirst hextra =>
      have hpositive := List.length_pos_iff.2 hfirst
      refine .inr ?_
      rw [← List.singleton_append, files_append, files_append, files_of_namesFile hextra,
        List.length_append, List.length_append, List.length_singleton]
      omega
    | noFile _ hnone =>
      rw [hnone]
      exact .inr (by decide)
  · intro hwrong
    obtain ⟨path, hasks⟩ | hcomplaint := asks_or_complaint arguments
    · rcases hwrong with ⟨a, ha, hflag⟩ | hcount
      · exact absurd hflag (hasks.known a ha)
      · exact absurd (congrArg List.length hasks.files) hcount
    · exact hcomplaint

end

end Scriptlet.Command
