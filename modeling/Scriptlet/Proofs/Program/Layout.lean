import Scriptlet.Program.Written
import Scriptlet.Proofs.Expr.Terminals
import Scriptlet.Proofs.Text.Lines

/-!
# Lines of a written program

The text of a statement is laid out in lines, none of which breaks a lexeme apart
(`Laid`).  So the lines can be moved further in and what they spell stays the same
(`Laid.indented`).  No expression runs over the end of a line: the line breaks in
a string are written as escapes (`Expr.Printable.isFlat`).
-/

namespace Scriptlet

open Token (Spells Spelled Separate)

/-! ## Texts without line breaks -/

/-- Whether a character ends a line, or is dropped at the end of one. -/
def isLineBreak (c : Char) : Bool := c = '\n' || c = '\r'

/-- A text without line breaks. -/
def IsFlat (text : String) : Prop := ∀ c ∈ text.toList, isLineBreak c = false

namespace IsFlat

theorem of_any {text : String} (h : text.toList.any isLineBreak = false) : IsFlat text := by
  intro c hc
  exact Bool.eq_false_iff.2 (List.any_eq_false.1 h c hc)

theorem append {left right : String} (hleft : IsFlat left) (hright : IsFlat right) :
    IsFlat (left ++ right) := by
  intro c hc
  rw [String.toList_append] at hc
  exact (List.mem_append.1 hc).elim (hleft c) (hright c)

theorem enclosedIf {text : String} (needed : Bool) (h : IsFlat text) :
    IsFlat (enclosedIf needed text) := by
  cases needed with
  | false => exact h
  | true =>
    have hopening : IsFlat "(" := .of_any rfl
    exact (hopening.append h).append (.of_any rfl)

theorem intercalate {texts : List String} (h : ∀ text ∈ texts, IsFlat text) :
    IsFlat (", ".intercalate texts) := by
  induction texts with
  | nil => exact .of_any rfl
  | cons text texts ih =>
    cases texts with
    | nil => exact h text (.head _)
    | cons text' texts =>
      rw [String.intercalate_cons_cons]
      exact ((h text (.head _)).append (.of_any rfl)).append
        (ih fun other hother => h other (.tail text hother))

end IsFlat

theorem isLineBreak_of_isWordChar {c : Char} (h : Lexeme.isWordChar c) : isLineBreak c = false := by
  rw [Bool.eq_false_iff]
  intro hbreak
  simp only [isLineBreak, Bool.or_eq_true, decide_eq_true_eq] at hbreak
  rcases hbreak with rfl | rfl <;> exact absurd h (by decide)

theorem isLineBreak_of_isDigit {c : Char} (h : c.isDigit) : isLineBreak c = false :=
  isLineBreak_of_isWordChar (Lexeme.isWordChar_of_isDigit h)

theorem Lexeme.IsWord.isFlat {word : String} (h : Lexeme.IsWord word) : IsFlat word :=
  fun c hc => isLineBreak_of_isWordChar (h.isWordChar c hc)

theorem Lexeme.IsName.isFlat {name : String} (h : Lexeme.IsName name) : IsFlat name :=
  h.isWord.isFlat

theorem Numeral.Plain.isFlat {text : List Char} (h : Numeral.Plain text) :
    IsFlat (String.ofList text) := by
  intro c hc
  rw [String.toList_ofList] at hc
  rcases h.isDigit_or_point c hc with hdigit | rfl
  · exact isLineBreak_of_isDigit hdigit
  · decide

theorem isLineBreak_of_mem_escapeChar {c d : Char} (h : d ∈ Escape.escapeChar c) :
    isLineBreak d = false := by
  unfold Escape.escapeChar at h
  split at h
  case h_7 hquote hslash hline _ hreturn _ =>
    rw [List.mem_singleton.1 h]
    simp only [isLineBreak, Bool.or_eq_false_iff, decide_eq_false_iff_not]
    exact ⟨hline, hreturn⟩
  all_goals
    simp only [List.mem_cons, List.not_mem_nil, or_false] at h
    rcases h with rfl | rfl <;> decide

theorem isLineBreak_of_mem_escape {value : List Char} {c : Char} (h : c ∈ Escape.escape value) :
    isLineBreak c = false := by
  rw [Escape.escape] at h
  obtain ⟨d, _, hd⟩ := List.mem_flatMap.1 h
  exact isLineBreak_of_mem_escapeChar hd

theorem isFlat_literal (value : String) : IsFlat (literal value) := by
  have hinner : IsFlat (String.ofList (Escape.escape value.toList)) := by
    intro c hc
    rw [String.toList_ofList] at hc
    exact isLineBreak_of_mem_escape hc
  have hquote : IsFlat "\"" := .of_any rfl
  exact (hquote.append hinner).append hquote

theorem Expr.isFlat_property {p : Property} (hkey : Lexeme.IsName p.key)
    (hvalue : ∀ key value, p = .entry key value → IsFlat value.written) :
    IsFlat (writtenProperty p) := by
  cases p with
  | shorthand key => exact hkey.isFlat
  | entry key value =>
    have hname : IsFlat key := Lexeme.IsName.isFlat hkey
    exact (hname.append (.of_any rfl)).append (hvalue key value rfl)

/-- The text of an expression stays on one line. -/
theorem Expr.Printable.isFlat {e : Expr} (h : e.Printable) : IsFlat e.written := by
  induction h with
  | assignment _ _ iht ihv =>
    rw [written]
    exact ((iht.enclosedIf _).append (.of_any rfl)).append ihv
  | @binary op _ _ _ _ ihl ihr =>
    have hsymbol : IsFlat op.symbol := by cases op <;> exact .of_any rfl
    rw [written]
    exact ((((ihl.enclosedIf _).append (.of_any rfl)).append hsymbol).append (.of_any rfl)).append
      (ihr.enclosedIf _)
  | @object ps hkeys _ ih =>
    cases ps with
    | nil => exact IsFlat.of_any rfl
    | cons p ps =>
      have hproperties : IsFlat (", ".intercalate (writtenProperties (p :: ps))) := by
        refine .intercalate fun text htext => ?_
        rw [writtenProperties_eq_map] at htext
        obtain ⟨q, hq, rfl⟩ := List.mem_map.1 htext
        exact isFlat_property (hkeys q hq) fun key value hentry => ih key value (hentry ▸ hq)
      rw [written]
      exact (IsFlat.append (.of_any rfl) hproperties).append (.of_any rfl)
  | @call _ es _ _ ihf ihes =>
    have harguments : IsFlat (", ".intercalate (writtenList es)) := by
      refine .intercalate fun text htext => ?_
      rw [writtenList_eq_map] at htext
      obtain ⟨e, he, rfl⟩ := List.mem_map.1 htext
      exact ihes e he
    rw [written]
    exact (((ihf.enclosedIf _).append (.of_any rfl)).append harguments).append (.of_any rfl)
  | dot _ hn iho =>
    simp only [written, Bool.false_eq_true, if_false]
    exact (iho.enclosedIf _).append (IsFlat.append (.of_any rfl) hn.isFlat)
  | index _ _ iho ihp =>
    simp only [written, if_true]
    exact (iho.enclosedIf _).append ((IsFlat.append (.of_any rfl) ihp).append (.of_any rfl))
  | identifier hn => exact hn.isFlat
  | number rank => exact (Double.plain_written rank).isFlat
  | string value => exact isFlat_literal value

/-! ## Lines -/

/-- A line that spells some terminals. -/
structure IsLine (line : List Char) (ts : List Terminal) : Prop where
  /-- It is one line. -/
  flat : ∀ c ∈ line, isLineBreak c = false
  /-- It spells the terminals wherever a word may end behind it. -/
  spells : ∀ rest, Separate rest → Spells line ts rest

/-- A text is laid out in lines that spell some terminals between them. -/
inductive Laid : List Char → List Terminal → Prop where
  /-- The last line. -/
  | last {line : List Char} {ts : List Terminal} (hne : line ≠ []) (hline : IsLine line ts) :
      Laid line ts
  /-- A line and more of them. -/
  | more {line text : List Char} {ts us : List Terminal} (hline : IsLine line ts)
      (htext : Laid text us) : Laid (line ++ '\n' :: text) (ts ++ us)

theorem separate_newline (rest : List Char) : Separate ('\n' :: rest) :=
  Token.separate_cons rfl

namespace Laid

variable {text text' : List Char} {ts us : List Terminal}

theorem spells (h : Laid text ts) {rest : List Char} (hrest : Separate rest) :
    Spells text ts rest := by
  induction h with
  | last _ hline => exact hline.spells rest hrest
  | more hline _ ih =>
    have hbreak := (Token.spells_blank Text.isBlank_newline _).append ih
    exact (hline.spells _ (separate_newline _)).append hbreak

theorem append (h : Laid text ts) (h' : Laid text' us) : Laid (text ++ '\n' :: text') (ts ++ us) := by
  induction h with
  | last _ hline => exact .more hline h'
  | more hline _ ih =>
    rw [List.append_assoc, List.append_assoc, List.cons_append]
    exact .more hline ih

end Laid

/-! ## Indentation -/

theorem isLineBreak_eq_false {c : Char} (h : isLineBreak c = false) : c ≠ '\n' ∧ c ≠ '\r' := by
  simpa [isLineBreak] using h

theorem newline_notMem_of_flat {line : List Char} (h : ∀ c ∈ line, isLineBreak c = false) :
    '\n' ∉ line :=
  fun hmem => (isLineBreak_eq_false (h _ hmem)).1 rfl

theorem chomp_of_flat {line : List Char} (h : ∀ c ∈ line, isLineBreak c = false) :
    Text.chomp line = line := Text.chomp_of_unended (newline_notMem_of_flat h)

theorem chomp_append_newline {line : List Char} (h : ∀ c ∈ line, isLineBreak c = false) :
    Text.chomp (line ++ ['\n']) = line := by
  obtain hchomp | ⟨front, rfl, _⟩ := Text.chomp_of_ended (newline_notMem_of_flat h)
  · exact hchomp
  · exact absurd (h '\r' (by simp)) (by decide)

theorem IsLine.moved_in {line : List Char} {ts : List Terminal} (h : IsLine line ts) :
    IsLine (' ' :: ' ' :: line) ts := by
  refine ⟨?_, fun rest hrest => (h.spells rest hrest).cons_blank.cons_blank⟩
  intro c hc
  rcases List.mem_cons.1 hc with rfl | hc
  · decide
  · rcases List.mem_cons.1 hc with rfl | hc
    · decide
    · exact h.flat c hc

/-- A text that is moved in spells what it did, and its last line is closed. -/
theorem Laid.indented {text : String} {ts : List Terminal} (h : Laid text.toList ts) :
    ∃ inner, Stmt.indented text = inner ++ ['\n'] ∧ Laid inner ts := by
  rw [Stmt.indented]
  generalize text.toList = chars at h
  induction h with
  | @last line ts hne hline =>
    refine ⟨' ' :: ' ' :: line, ?_, .last (List.cons_ne_nil _ _) hline.moved_in⟩
    rw [Text.lines_of_unended hne (newline_notMem_of_flat hline.flat), List.flatMap_singleton,
      chomp_of_flat hline.flat]
    rfl
  | @more line text ts us hline _ ih =>
    obtain ⟨inner, htext, hinner⟩ := ih
    refine ⟨' ' :: ' ' :: line ++ '\n' :: inner, ?_, .more hline.moved_in hinner⟩
    rw [Text.lines_of_ended (newline_notMem_of_flat hline.flat), List.flatMap_cons, htext,
      chomp_append_newline hline.flat]
    simp

end Scriptlet
