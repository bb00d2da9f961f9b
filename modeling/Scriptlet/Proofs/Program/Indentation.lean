import Mathlib
import Scriptlet.Proofs.Program.Segments
import Scriptlet.Proofs.Token.Unbroken

/-!
# Bodies that are moved in

The texts of the statements in a body are moved in line by line, whatever they are.  Their tokens
stay the same as long as none of them runs over the end of a line, and then the text of the whole
declaration can be moved in again (`Stmt.functionText_keeps_tokens`).

A text may hold comments, empty lines and carriage returns.  Of these the printer drops the ones
at the ends of lines, where they are part of a gap.  The text of an expression is always on one
line.
-/

namespace Scriptlet

open Token (Unbroken KeepsToLines)

namespace Token.Unbroken

variable {text : String} {line behind : List Char} {ts us : List Terminal}

theorem terminalsOf_eq (h : Unbroken text.toList ts) : Stmt.terminalsOf text = ts := by
  obtain ⟨tokens, htokens, htext⟩ := h.ofText_eq Position.unnamed 0
  rw [Stmt.terminalsOf, Token.ofSource, htext]
  simp only [List.dropLast_concat, htokens]

/-- A line that is closed loses no token, also if it loses a carriage return. -/
theorem chomp (h : Unbroken line ts) (hline : '\n' ∉ line) :
    Unbroken (Text.chomp (line ++ ['\n'])) ts := by
  obtain hsame | ⟨front, rfl, hfront⟩ := Text.chomp_of_ended hline
  · rwa [hsame]
  · rw [hfront]
    exact h.of_concat_return

/-- A line is moved in and closed before another text. -/
theorem moved_in (h : Unbroken line ts) (h' : Unbroken behind us) :
    Unbroken (([' ', ' '] ++ line ++ ['\n']) ++ behind) (ts ++ us) := by
  have hline := (h.cons_blank Text.isBlank_space).cons_blank Text.isBlank_space
  have hall := hline.append_newline h'
  rwa [List.append_cons] at hall

/-- A text is moved in before another text. -/
theorem indented (h : Unbroken text.toList ts) (h' : Unbroken behind us) :
    Unbroken (Stmt.indented text ++ behind) (ts ++ us) := by
  rw [Stmt.indented]
  generalize text.toList = chars at h
  induction chars using Text.lines_induction generalizing ts with
  | empty =>
    cases h
    exact h'
  | unended hne hline =>
    rw [Text.lines_of_unended hne hline, List.flatMap_singleton, Text.chomp_of_unended hline]
    exact h.moved_in h'
  | @ended line rest hline ih =>
    obtain ⟨vs, ws, rfl, hfirst, hrest⟩ := h.exists_split hline
    rw [Text.lines_of_ended hline, List.flatMap_cons, List.append_assoc, List.append_assoc vs]
    exact (hfirst.chomp hline).moved_in (ih hrest)

end Token.Unbroken

namespace Stmt

variable {file name : String} {parameters body : List String}

theorem unbroken_of_isLine {line : List Char} {ts : List Terminal} (h : IsLine line ts) :
    Unbroken line ts :=
  Token.unbroken_of_spells (h.spells [] Token.separate_nil) (newline_notMem_of_flat h.flat)

/-- The texts of a body are split by themselves as they are where they have been moved in. -/
theorem unbroken_body (h : ∀ text ∈ body, KeepsToLines file text) :
    Unbroken (body.flatMap indented ++ ['}'])
      (body.flatMap terminalsOf ++ [.mark .closeCurly]) := by
  induction body with
  | nil => exact unbroken_of_isLine isLine_closeCurly
  | cons text body ih =>
    obtain ⟨ts, hts⟩ := Token.unbroken_iff.2 (h text (.head body))
    have hbody := ih fun other hother => h other (.tail text hother)
    rw [List.flatMap_cons, List.flatMap_cons, List.append_assoc, List.append_assoc,
      hts.terminalsOf_eq]
    exact hts.indented hbody

theorem unbroken_functionText (isAsync : Bool) (hname : Lexeme.IsWord name)
    (hparameters : ∀ p ∈ parameters, Lexeme.IsWord p)
    (hbody : ∀ text ∈ body, KeepsToLines file text) :
    Unbroken (functionText name parameters isAsync body).toList
      (wordedHeading name parameters isAsync ++
        (body.flatMap terminalsOf ++ [.mark .closeCurly])) := by
  have hheading := isLine_wordedHeading isAsync hname hparameters
  by_cases hnil : body = []
  · subst hnil
    rw [toList_functionText_nil]
    exact unbroken_of_isLine (isLine_append_closeCurly hheading)
  · rw [toList_functionText _ _ _ hnil]
    exact (unbroken_of_isLine hheading).append_newline (unbroken_body hbody)

/-- A declaration whose body consists of texts that keep to lines is split into its heading, the
tokens of each of these texts in turn and a brace, and its text keeps to lines.  So does the text
of every expression. -/
theorem functionText_keeps_tokens (file : String) :
    (∀ (name : String) (parameters : List String) (isAsync : Bool) (body : List String),
      Lexeme.IsWord name → (∀ p ∈ parameters, Lexeme.IsWord p) →
      (∀ text ∈ body, KeepsToLines file text) →
      (∃ tokens, Token.ofSource file (functionText name parameters isAsync body) = .ok tokens ∧
        tokens.map Token.terminal = wordedHeading name parameters isAsync ++
          (body.flatMap terminalsOf ++ [.mark .closeCurly, ⟨.endOfInput, Token.endValue⟩])) ∧
      KeepsToLines file (functionText name parameters isAsync body)) ∧
    ∀ e : Expr, e.Worded → KeepsToLines file e.written := by
  constructor
  · intro name parameters isAsync body hname hparameters hbody
    have hunbroken := unbroken_functionText isAsync hname hparameters hbody
    obtain ⟨tokens, htokens, htext⟩ := hunbroken.ofText_eq file 0
    refine ⟨⟨_, htext, ?_⟩, Token.unbroken_iff.1 ⟨_, hunbroken⟩⟩
    rw [List.map_append, htokens, List.append_assoc, List.append_assoc]
    rfl
  · intro e he
    obtain ⟨ts, hspells, _⟩ := he.shown.legible.exists_spells
    exact Token.unbroken_iff.1 ⟨ts, Token.unbroken_of_spells (hspells [] Token.separate_nil)
      (newline_notMem_of_flat he.shown.legible.isFlat)⟩

/-- A body with a comment before a carriage return, an empty line, a string with an escape for a
newline, and a number below it. -/
theorem functionText_keeps_tokens_comment :
    ∃ body : List String, body = ["g(\"\\n\") // \"\r\n\n  1.5", "\r"] ∧
      (∀ text ∈ body, KeepsToLines "" text) ∧
      functionText "f" ["let", "b"] true body =
        "async f(let, b) \x7b\n  g(\"\\n\") // \"\n  \n    1.5\n  \r\n\x7d" ∧
      ∃ tokens, Token.ofSource "" (functionText "f" ["let", "b"] true body) = .ok tokens ∧
        tokens.map Token.terminal =
          [⟨.identifier, "async"⟩, ⟨.identifier, "f"⟩, .mark .openParen, .mark .letWord,
            .mark .comma, ⟨.identifier, "b"⟩, .mark .closeParen, .mark .openCurly,
            ⟨.identifier, "g"⟩, .mark .openParen, ⟨.string, "\n"⟩, .mark .closeParen,
            ⟨.number, "1.5"⟩, .mark .closeCurly, ⟨.endOfInput, "EOF"⟩] := by
  have hline (line : List Char) {tokens : List Token} (htext : Token.ofText "" 0 line = .ok tokens)
      (hnewline : '\n' ∉ line) : ∃ ts, Unbroken line ts :=
    Token.unbroken_of_ofText htext (.of_notMem hnewline)
  have hfirst : KeepsToLines "" "g(\"\\n\") // \"\r\n\n  1.5" := by
    obtain ⟨ts, hts⟩ := hline "g(\"\\n\") // \"\r".toList (by cbv) (by decide)
    obtain ⟨us, hus⟩ := hline "  1.5".toList (by cbv) (by decide)
    exact Token.unbroken_iff.1 ⟨_, hts.append_newline (Unbroken.nil.append_newline hus)⟩
  have hsecond : KeepsToLines "" "\r" := by
    obtain ⟨ts, hts⟩ := hline "\r".toList (by cbv) (by decide)
    exact Token.unbroken_iff.1 ⟨_, hts⟩
  have hbody := List.forall_mem_cons.2 ⟨hfirst, List.forall_mem_singleton.2 hsecond⟩
  have hname : Lexeme.IsWord "f" := ⟨'f', [], rfl, rfl, List.forall_mem_nil _⟩
  have hlet : Lexeme.IsWord "let" := ⟨'l', ['e', 't'], rfl, rfl, List.all_eq_true.1 rfl⟩
  have hb : Lexeme.IsWord "b" := ⟨'b', [], rfl, rfl, List.forall_mem_nil _⟩
  obtain ⟨⟨tokens, htokens, hterminals⟩, _⟩ := (functionText_keeps_tokens "").1 "f" ["let", "b"]
    true _ hname (List.forall_mem_cons.2 ⟨hlet, List.forall_mem_singleton.2 hb⟩) hbody
  refine ⟨_, rfl, hbody, by decide +kernel, tokens, htokens, hterminals.trans ?_⟩
  decide +kernel

/-- A string that runs over the end of a line is another one when its second line is moved in. -/
example : terminalsOf (functionText "f" [] false ["\"a\nb\""]) =
    [⟨.identifier, "f"⟩, .mark .openParen, .mark .closeParen, .mark .openCurly,
      ⟨.string, "a\n  b"⟩, .mark .closeCurly] := by decide +kernel

end Stmt

end Scriptlet
