import Mathlib
import Scriptlet.Proofs.Diagnostic.Report
import Scriptlet.Proofs.Program.Failure
import Scriptlet.Proofs.Program.Forward
import Scriptlet.Proofs.Program.Source
import Scriptlet.Proofs.Token.Failure

/-!
# Failures are shown in the source

A source that is no program fails at a character or at its end, and there the report shows the
line with a caret, unless the caret would be too far out (`Program.error_ofSource_shown`).

The failure stands either where the splitting into tokens stopped or where one of the tokens
starts.  Both are behind some of the characters of the source, so the line is found.  What is left
are the failures that speak of a wrong end mark or of a text that is no number.  No token of a
source gives rise to them.
-/

namespace Scriptlet

open Token (Kind)

/-! ## Where tokens start -/

/-- Every token of a text, the end mark included, starts behind some of its characters. -/
theorem Token.Covers.exists_start {file : String} {offset : Nat} {text : List Char}
    {tokens : List Token} {t : Token} (h : Covers file offset text tokens) (ht : t ∈ tokens) :
    ∃ before after, text = before ++ after ∧
      t.span.start = .ofNat file (offset + Text.byteSize before) := by
  induction h with
  | @endMark offset gap _ =>
    obtain rfl := List.mem_singleton.1 ht
    exact ⟨gap, [], (List.append_nil gap).symm, rfl⟩
  | @token offset gap slice after kind value tokens _ _ _ _ ih =>
    rcases List.mem_cons.1 ht with rfl | ht
    · exact ⟨gap, slice ++ after, rfl, rfl⟩
    · obtain ⟨before, after', rfl, hstart⟩ := ih ht
      refine ⟨gap ++ (slice ++ before), after', by simp only [List.append_assoc], ?_⟩
      rw [hstart, Text.byteSize_append, Text.byteSize_append, Text.byteSize_append, Nat.add_assoc,
        Nat.add_assoc]

/-- A plain text denotes a number. -/
theorem Numeral.Plain.read?_ne_none {text : List Char} (h : Plain text) : read? text ≠ none := by
  rw [read?_of_isDigit h.head_isDigit, magnitude?]
  cases h with
  | whole hne hdigits =>
    rw [decimal?_whole hne hdigits]
    exact Option.some_ne_none _
  | pointed hleft _ hdigits =>
    rw [decimal?_pointed hleft hdigits]
    exact Option.some_ne_none _

/-! ## Failures of sources -/

/-- The causes that no source gives rise to. -/
def Cause.isInternal : Cause → Bool
  | .numberParse _ | .missingEndOfInput | .misplacedEndOfInput => true
  | _ => false

namespace Program

variable {mode : Detection} {file source : String} {d : Diagnostic}

theorem explains_of_error_ofTokens {c : Cursor} (h : ofTokens mode c.remaining = .error d) :
    c.Explains d := by
  obtain ⟨r, c₁, hends⟩ := Parser.exists_ends (Parser.program mode) c
  rw [ofTokens_of_ends hends] at h
  subst h
  cases hends with
  | error hfails => exact Parser.program_explained mode c hfails

/-- A failure of a source stands behind some of its characters, and is about them. -/
theorem exists_of_error_ofSource (h : ofSource mode file source = .error d) :
    d.cause.isInternal = false ∧ ∃ before after, source.toList = before ++ after ∧
      d.position = .ofNat file (Text.byteSize before) := by
  cases htokens : Token.ofSource file source with
  | error d' =>
    have hsame : d' = d := by
      rw [ofSource, htokens] at h
      exact Except.error.inj h
    subst hsame
    obtain ⟨front, c, rest, _, hsource, _, hrefuses, hposition⟩ :=
      Token.ofText_eq_error_iff.1 htokens
    rw [Nat.zero_add] at hposition
    refine ⟨?_, front, c :: rest, hsource, hposition⟩
    obtain ⟨cause, _⟩ := d'
    cases cause with
    | unrecognisedToken | invalidEscape => rfl
    | _ => exact hrefuses.elim
  | ok tokens =>
    obtain ⟨c, rfl, hlexical⟩ := exists_cursor_of_ofSource htokens
    rw [ofSource_of_tokens htokens] at h
    obtain ⟨tokens, t, others, hremaining, hposition, htrue⟩ := explains_of_error_ofTokens h
    have ht : t ∈ c.remaining := by simp [hremaining]
    obtain ⟨before, after, hsource, hstart⟩ := (Token.covers_of_ofText htokens).exists_start ht
    rw [Nat.zero_add] at hstart
    refine ⟨?_, before, after, hsource, hposition.trans hstart⟩
    obtain ⟨cause, _⟩ := d
    cases cause with
    | numberParse text =>
      -- Only a token made by hand could have the kind of numbers and another text.
      obtain ⟨hkind, rfl, hread⟩ := htrue
      have hrest : t ∈ c.rest := by
        rcases List.mem_append.1 ht with hrest | hclosing
        · exact hrest
        · rw [List.mem_singleton.1 hclosing, c.closing_isEnd] at hkind
          cases hkind
      have hplain := (hlexical _ (List.mem_map.2 ⟨t, hrest, rfl⟩)).number hkind
      exact absurd hread hplain.read?_ne_none
    | missingEndOfInput | misplacedEndOfInput => exact htrue.elim
    | _ => rfl

/-- The place of a failure is found, also in a source that is too long for offsets of 32 bits. -/
theorem exists_locates_of_error (h : ofSource mode file source = .error d) :
    ∃ place : LinePlace, LinePlace.find? source.toList d.position.offset = some place ∧
      place.Locates 1 (Text.bytes source.toList) d.position.offset.toNat := by
  obtain ⟨_, before, after, hsource, hposition⟩ := exists_of_error_ofSource h
  have hle : d.position.offset.toNat ≤ Text.byteSize source.toList := by
    rw [hposition, hsource, Text.byteSize_append]
    exact Nat.le_trans (Nat.mod_le _ _) (Nat.le_add_right _ _)
  have hlocates := LinePlace.among_locates 1 hle
  exact ⟨_, LinePlace.find?_eq_some_iff.2 ⟨hle, hlocates⟩, hlocates⟩

/-- A source that is no program, and that is not too long for offsets of 32 bits, fails for a cause
that is no internal one.  The failure names the file, or `shell`, and stands behind some of the
characters of the source.  The offset is found on a line, or behind the last one, so there is a
report with that line and a caret.  Only where the caret would be further out than columns can be
counted, none is made. -/
theorem error_ofSource_shown {file : Option String}
    (hsize : Text.byteSize source.toList < 2 ^ 32)
    (h : ofSource mode (file.getD Position.unnamed) source = .error d) :
    d.cause.isInternal = false ∧ d.position.file = file.getD "shell" ∧
      (∃ before after, source.toList = before ++ after ∧
        Text.byteSize before = d.position.offset.toNat) ∧
      d.position.offset.toNat ≤ Text.byteSize source.toList ∧
      ∃ place : LinePlace, LinePlace.find? source.toList d.position.offset = some place ∧
        place.Locates 1 (Text.bytes source.toList) d.position.offset.toNat ∧
        (place.reach < 65535 →
          ∃ report, d.report? source = some report ∧ d.IsReport place report) ∧
        (65535 ≤ place.reach → d.report? source = none) := by
  obtain ⟨hcause, before, after, hsource, hposition⟩ := exists_of_error_ofSource h
  have hfile : d.position.file = file.getD "shell" := by
    rw [hposition]
    rfl
  have hbefore : Text.byteSize before ≤ Text.byteSize source.toList := by
    rw [hsource, Text.byteSize_append]
    exact Nat.le_add_right _ _
  have hoffset : d.position.offset.toNat = Text.byteSize before := by
    rw [hposition]
    exact Position.toNat_ofNat _ hbefore hsize
  obtain ⟨place, hplace, hlocates⟩ := exists_locates_of_error h
  exact ⟨hcause, hfile, ⟨before, after, hsource, hoffset.symm⟩, hoffset ▸ hbefore, place, hplace,
    hlocates, Diagnostic.report?_of_lt hplace, Diagnostic.report?_of_le hplace⟩

/-- A parenthesis that is missing at the end of a source without a name is reported on the empty
line there, behind a newline and a character of two bytes. -/
theorem error_ofSource_shown_end : ∃ d : Diagnostic,
    ofSource .forwardScan (Option.getD none Position.unnamed) "let s = (\"é\"\n" = .error d ∧
      d.position.offset.toNat = 14 ∧
      d.cause.isInternal = false ∧ d.position.file = "shell" ∧
      (∃ before after, "let s = (\"é\"\n".toList = before ++ after ∧
        Text.byteSize before = d.position.offset.toNat) ∧
      LinePlace.find? "let s = (\"é\"\n".toList d.position.offset = some ⟨2, [], 0⟩ ∧
      d.IsReport ⟨2, [], 0⟩ ("Error: UnexpectedToken (unexpected token found inside the " ++
        "parentheses: expected `)`, found `end of input`)\n-> shell\n  |\n2 | \n  | ^\n") := by
  have hfails : ∃ d : Diagnostic,
      ofSource .forwardScan (Option.getD none Position.unnamed) "let s = (\"é\"\n" = .error d ∧
        d.position.offset.toNat = 14 ∧
        LinePlace.find? "let s = (\"é\"\n".toList d.position.offset = some ⟨2, [], 0⟩ ∧
        d.report? "let s = (\"é\"\n" = some
          ("Error: UnexpectedToken (unexpected token found inside the " ++
            "parentheses: expected `)`, found `end of input`)\n-> shell\n  |\n2 | \n  | ^\n") :=
    ⟨_, by cbv, by cbv, by cbv, by cbv⟩
  obtain ⟨d, hfails, hoffset, hline, htext⟩ := hfails
  obtain ⟨hinternal, hfile, hboundary, _, place, hplace, _, hmade, _⟩ :=
    error_ofSource_shown (by cbv) hfails
  obtain rfl := Option.some.inj (hplace.symm.trans hline)
  obtain ⟨report, hreport, hsays⟩ := hmade (by decide)
  obtain rfl := Option.some.inj (hreport.symm.trans htext)
  exact ⟨d, hfails, hoffset, hinternal, hfile, hboundary, hline, hsays⟩

/-! ## A line that is too long -/

/-- Parentheses with nothing but spaces between them. -/
def emptyParens (spaces : Nat) : String :=
  String.ofList ('(' :: (List.replicate spaces ' ' ++ [')']))

theorem toList_emptyParens (n : Nat) :
    (emptyParens n).toList = '(' :: (List.replicate n ' ' ++ [')']) := String.toList_ofList

theorem byteSize_emptyParens (n : Nat) : Text.byteSize (emptyParens n).toList = n + 2 := by
  rw [toList_emptyParens, Text.byteSize_cons, Text.byteSize_append, Text.byteSize_replicate]
  change 1 + (n * 1 + 1) = n + 2
  omega

theorem ofSource_emptyParens (file : String) (n : Nat) :
    Token.ofSource file (emptyParens (n + 1)) =
      .ok [⟨.openParen, "(", .ofSize file 0 1⟩, ⟨.closeParen, ")", .ofSize file (n + 2) 1⟩,
        Token.endMark file (n + 3)] := by
  have hopens : Token.ofText file 0 ('(' :: ([] ++ (List.replicate (n + 1) ' ' ++ [')']))) =
      (Token.ofText file 1 (' ' :: (List.replicate n ' ' ++ [')']))).map
        (⟨.openParen, "(", .ofSize file 0 1⟩ :: ·) := Token.ofText_of_token rfl
  have hspaces : Lexeme.next? ' ' (List.replicate n ' ' ++ [')']) =
      some ⟨List.replicate n ' ', .gap⟩ := by
    refine (Lexeme.StandsBefore.blanks (fun d hd => ?_) ?_).next?
    · rw [← List.replicate_succ] at hd
      rw [List.eq_of_mem_replicate hd]
      exact Text.isBlank_space
    · rintro _ ⟨⟩
      decide
  have hsize : 1 + Text.byteSize (' ' :: List.replicate n ' ') = n + 2 := by
    rw [← List.replicate_succ, Text.byteSize_replicate]
    change 1 + (n + 1) * 1 = n + 2
    omega
  have hcloses : Token.ofText file (n + 2) (')' :: ([] ++ [])) =
      (Token.ofText file (n + 3) []).map (⟨.closeParen, ")", .ofSize file (n + 2) 1⟩ :: ·) :=
    Token.ofText_of_token rfl
  have hends : Token.ofText file (n + 3) [] = .ok [Token.endMark file (n + 3)] := by
    rw [Token.ofText]
  rw [Token.ofSource, toList_emptyParens]
  refine hopens.trans ?_
  rw [Token.ofText_of_gap hspaces, hsize]
  exact congrArg _ (hcloses.trans (congrArg _ hends))

/-- The closing one is refused, and stands behind the spaces. -/
theorem error_emptyParens (mode : Detection) (file : String) (n : Nat) :
    ofSource mode file (emptyParens (n + 1)) =
      .error ⟨.unrecognisedPrimary ")", .ofNat file (n + 2)⟩ := by
  rw [ofSource_of_tokens (ofSource_emptyParens file n)]
  cases mode <;> rfl

theorem find?_emptyParens {n : Nat} {offset : UInt32} (h : offset.toNat = n + 1) :
    LinePlace.find? (emptyParens n).toList offset =
      some ⟨1, (emptyParens n).toList, n + 1⟩ := by
  have hlt : offset.toNat < Text.byteSize (emptyParens n).toList := by
    rw [h, byteSize_emptyParens]
    exact Nat.lt_succ_self _
  have hline : Text.lines (emptyParens n).toList = [(emptyParens n).toList] := by
    rw [toList_emptyParens]
    exact Text.lines_of_unended (List.cons_ne_nil _ _) (by simp)
  rw [LinePlace.find?, if_neg (Nat.not_lt.2 (Nat.le_of_lt hlt)), hline,
    LinePlace.among_of_lt _ hlt, h]

theorem reach_emptyParens (n : Nat) :
    LinePlace.reach ⟨1, (emptyParens n).toList, n + 1⟩ = n + 1 := by
  rw [LinePlace.reach, toList_emptyParens]
  rfl

/-- Behind 65534 spaces the place of a failure is found, but it is not shown. -/
theorem not_shown_behind_spaces : ∃ (d : Diagnostic) (place : LinePlace),
    Text.byteSize (emptyParens 65534).toList < 2 ^ 32 ∧
      ofSource .forwardScan (Option.getD none Position.unnamed) (emptyParens 65534) = .error d ∧
      LinePlace.find? (emptyParens 65534).toList d.position.offset = some place ∧
      d.report? (emptyParens 65534) = none := by
  have hplace : LinePlace.find? (emptyParens 65534).toList 65535 =
      some ⟨1, (emptyParens 65534).toList, 65535⟩ := find?_emptyParens rfl
  refine ⟨_, _, ?_, error_emptyParens _ _ 65533, hplace, Diagnostic.report?_of_le hplace ?_⟩
  · rw [byteSize_emptyParens]
    decide
  · exact Nat.le_of_eq (reach_emptyParens 65534).symm

end Program

end Scriptlet
