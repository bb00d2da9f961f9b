import Mathlib
import Scriptlet.Proofs.Expr.Legible
import Scriptlet.Proofs.Program.Echo

/-!
# The statements of a written program

The text that is written for a program is split into tokens, and each statement takes
up a stretch of them: the tokens of its own text.  The stretches stand one behind the
other in the order of the program, and the body of a declaration is divided up in the
same way (`Tiles`).  Where a statement starts, the lookahead says whether it is a
declaration, and it is right (`Program.tiles_written`).

Nothing is asked of a program but that its names are names, and that the word `async`
as the name of a declaration stands behind the modifier.  So the program may have been
made by hand and its text need not read back.

The printer finds out what follows a statement from the texts that it has written
already.  That these are split by themselves as they are in the whole text is
`Stmt.Named.laid`.
-/

namespace Scriptlet

open Token (Kind Spells Separate)

/-! ## Legible lines -/

theorem isLineBreak_of_isPlain {c : Char} (h : isPlain c) : isLineBreak c = false := by
  rw [Bool.eq_false_iff]
  intro hbreak
  simp only [isLineBreak, Bool.or_eq_true, decide_eq_true_eq] at hbreak
  rcases hbreak with rfl | rfl <;> exact absurd h (by decide)

/-- A legible text stays on one line. -/
theorem Legible.isFlat {text : List Char} (h : Legible text) :
    ∀ c ∈ text, isLineBreak c = false := by
  induction h with
  | nil => exact List.forall_mem_nil _
  | plain hc _ ih => exact List.forall_mem_cons.2 ⟨isLineBreak_of_isPlain hc, ih⟩
  | slash _ ih =>
    exact List.forall_mem_cons.2 ⟨rfl, List.forall_mem_cons.2 ⟨rfl, ih⟩⟩
  | literal value _ ih =>
    refine List.forall_mem_cons.2 ⟨rfl, List.forall_mem_append.2 ⟨?_, ?_⟩⟩
    · exact fun c hc => isLineBreak_of_mem_escape hc
    · exact List.forall_mem_cons.2 ⟨rfl, ih⟩

namespace Stmt

/-- A legible text is a line, and is split by itself as it is before other lines. -/
theorem isLine_of_legible {text : String} (h : Legible text.toList) :
    IsLine text.toList (terminalsOf text) := by
  obtain ⟨ts, hspells, _⟩ := h.exists_spells
  rw [terminalsOf_eq (hspells [] Token.separate_nil)]
  exact ⟨h.isFlat, hspells⟩

theorem terminalsOf_ne_nil {text : String} (h : Shown text) : terminalsOf text ≠ [] := by
  obtain ⟨ts, hspells, hne⟩ := h.legible.exists_spells
  rw [terminalsOf_eq (hspells [] Token.separate_nil)]
  exact hne h.visible

theorem laid_of_shown {text : String} (h : Shown text) : Laid text.toList (terminalsOf text) := by
  refine .last ?_ (isLine_of_legible h.legible)
  intro hnil
  obtain ⟨c, hc, _⟩ := h.visible
  rw [hnil] at hc
  cases hc

/-! ## Statements that were made by hand -/

/-- The statements whose names are names.  A declaration of the name `async` must have
the modifier. -/
inductive Named : Stmt → Prop where
  /-- A binding. -/
  | binding {name : String} {constant : Bool} {value : Option Expr} (hname : Lexeme.IsName name)
      (hvalue : ∀ e ∈ value, e.Named) : Named (.binding name constant value)
  /-- A function declaration. -/
  | function {name : String} {parameters : List String} {isAsync : Bool} {body : List Stmt}
      (hname : Lexeme.IsName name) (hparameters : ∀ p ∈ parameters, Lexeme.IsName p)
      (hasync : name = "async" → isAsync) (hbody : ∀ s ∈ body, Named s) :
      Named (.function name parameters isAsync body)
  /-- A bare expression. -/
  | expression {e : Expr} (he : e.Named) : Named (.expression e)

variable {mode : Detection} {name : String} {parameters : List String} {isAsync : Bool}
  {body : List Stmt}

/-! ### Bindings -/

/-- What stands behind the word of a binding is legible. -/
theorem exists_bindingText (constant : Bool) {value : Option Expr} (hname : Lexeme.IsName name)
    (hvalue : ∀ e ∈ value, e.Named) : ∃ text : String, Legible text.toList ∧
      bindingText name constant value = (if constant then "const " else "let ") ++ text := by
  have hlegible := (Shown.of_isName hname).legible
  cases value with
  | none => exact ⟨name, hlegible, rfl⟩
  | some e =>
    refine ⟨name ++ " = " ++ e.written, ?_, by simp [bindingText, String.append_assoc]⟩
    exact (hlegible.append_string (.of_all rfl)).append_string (hvalue e rfl).shown.legible

theorem shown_binding (constant : Bool) {value : Option Expr} (hname : Lexeme.IsName name)
    (hvalue : ∀ e ∈ value, e.Named) : Shown (bindingText name constant value) := by
  obtain ⟨text, htext, heq⟩ := exists_bindingText constant hname hvalue
  have hword : Shown (if constant then "const " else "let ") := by
    cases constant <;> exact .of_cons rfl (by decide) (.of_all rfl)
  rw [heq]
  exact hword.append htext

/-- A binding starts with its word. -/
theorem headKind_binding (constant : Bool) {value : Option Expr} (hname : Lexeme.IsName name)
    (hvalue : ∀ e ∈ value, e.Named) : headKind (terminalsOf (bindingText name constant value)) =
      if constant then .constWord else .letWord := by
  obtain ⟨text, htext, heq⟩ := exists_bindingText constant hname hvalue
  obtain ⟨ts, hspells, _⟩ := htext.exists_spells
  have hword := spells_keyword constant (hspells [] Token.separate_nil)
  rw [← String.toList_append, ← heq] at hword
  rw [terminalsOf_eq hword]
  rfl

/-! ### Bare expressions -/

theorem headKind_grouped {text : String} (h : Legible text.toList) :
    headKind (terminalsOf (enclosedIf true text)) = .openParen := by
  have hclosed : Legible (text ++ ")").toList := h.append_string (.of_all rfl)
  obtain ⟨ts, hspells, _⟩ := hclosed.exists_spells
  have hopen : Spells "(".toList [.mark .openParen] ((text ++ ")").toList ++ []) :=
    Token.spells_mark rfl rfl
  have hall := hopen.append (hspells [] Token.separate_nil)
  rw [← String.toList_append, ← String.append_assoc] at hall
  rw [enclosedIf, if_pos rfl, terminalsOf_eq hall]
  rfl

/-- An expression is taken for no declaration where it is written. -/
theorem recognises_expressionText {e : Expr} (h : e.Named) (following : List Terminal) :
    mode.recognises (terminalsOf (expressionText mode following e) ++ following) = false := by
  rw [expressionText]
  cases hneeded : mode.recognises (terminalsOf e.written ++ following) with
  | false => exact hneeded
  | true =>
    rw [Bool.eq_false_iff]
    intro hmode
    have hhead := Detection.headKind_of_recognises hmode
    rw [headKind_append _ (terminalsOf_ne_nil (h.shown.enclosedIf true)),
      headKind_grouped h.shown.legible] at hhead
    cases hhead

/-! ### Declarations -/

/-- The printer knows what will follow: the terminals of some texts, and then those
that it was given. -/
theorem exists_following (mode : Detection) (following : List Terminal) (ss : List Stmt) :
    ∃ ts, (writtenBodyBefore mode following ss).2 = ts ++ following := by
  induction ss with
  | nil => exact ⟨[], rfl⟩
  | cons s ss ih =>
    obtain ⟨ts, hts⟩ := ih
    refine ⟨terminalsOf (s.writtenBefore mode (writtenBodyBefore mode following ss).2) ++ ts, ?_⟩
    rw [List.append_assoc, ← hts]
    rfl

/-- What it knows before a statement is the text of the statement and what it knows
behind it. -/
theorem exists_following_cons {s : Stmt} {ss : List Stmt} {following ts : List Terminal}
    (h : (writtenBodyBefore mode following (s :: ss)).2 = ts ++ following) :
    ∃ later, (writtenBodyBefore mode following ss).2 = later ++ following ∧
      ts = terminalsOf (s.writtenBefore mode (later ++ following)) ++ later := by
  obtain ⟨later, hlater⟩ := exists_following mode following ss
  refine ⟨later, hlater, ?_⟩
  simp only [writtenBodyBefore, hlater, ← List.append_assoc] at h
  exact (List.append_cancel_right h).symm

/-- Whatever follows a statement, its text is split by itself as it is among others. -/
def IsLaid (mode : Detection) (s : Stmt) : Prop :=
  ∀ following, Laid (s.writtenBefore mode following).toList
    (terminalsOf (s.writtenBefore mode following))

/-- The texts of a body are laid out as the printer takes them to be. -/
theorem laid_following {ss : List Stmt} {following ts : List Terminal}
    (h : ∀ s ∈ ss, s.IsLaid mode)
    (hts : (writtenBodyBefore mode following ss).2 = ts ++ following) :
    LaidAll (writtenBodyBefore mode following ss).1 ts := by
  induction ss generalizing ts with
  | nil =>
    rw [List.self_eq_append_left.1 hts]
    exact .nil
  | cons s ss ih =>
    obtain ⟨later, hlater, rfl⟩ := exists_following_cons hts
    have hss := ih (fun s' hs' => h s' (.tail s hs')) hlater
    simp only [writtenBodyBefore, hlater]
    exact .cons (h s (.head ss) (later ++ following)) hss

/-- The text of a declaration is split into its heading, what the printer took its body
to be, and a brace. -/
theorem exists_laid_function (hname : Lexeme.IsName name)
    (hparameters : ∀ p ∈ parameters, Lexeme.IsName p) (hbody : ∀ s ∈ body, s.IsLaid mode)
    (following : List Terminal) : ∃ ts, (writtenBodyBefore mode (.mark .closeCurly :: following) body).2 =
        ts ++ .mark .closeCurly :: following ∧
      Laid ((function name parameters isAsync body).writtenBefore mode following).toList
        (headingTerminals name parameters isAsync ++ (ts ++ [.mark .closeCurly])) := by
  obtain ⟨ts, hts⟩ := exists_following mode (.mark .closeCurly :: following) body
  refine ⟨ts, hts, ?_⟩
  rw [writtenBefore, terminalsOf_closeCurly]
  exact laid_function isAsync hname hparameters (laid_following hbody hts)

theorem terminalsOf_of_laid {text : String} {ts : List Terminal} (h : Laid text.toList ts) :
    terminalsOf text = ts :=
  terminalsOf_eq (h.spells Token.separate_nil)

/-! ### Statements -/

namespace Named

variable {s : Stmt}

theorem laid (h : s.Named) : s.IsLaid mode := by
  induction h with
  | binding hname hvalue =>
    intro following
    rw [writtenBefore]
    exact laid_of_shown (shown_binding _ hname hvalue)
  | function hname hparameters _ _ ih =>
    intro following
    obtain ⟨ts, _, hlaid⟩ := exists_laid_function hname hparameters ih following
    rw [terminalsOf_of_laid hlaid]
    exact hlaid
  | expression he =>
    intro following
    rw [writtenBefore, expressionText]
    exact laid_of_shown (he.shown.enclosedIf _)

theorem exists_terminalsOf (h : (Stmt.function name parameters isAsync body).Named)
    (following : List Terminal) :
    ∃ ts, (writtenBodyBefore mode (.mark .closeCurly :: following) body).2 =
        ts ++ .mark .closeCurly :: following ∧
      terminalsOf ((Stmt.function name parameters isAsync body).writtenBefore mode following) =
        headingTerminals name parameters isAsync ++ (ts ++ [.mark .closeCurly]) := by
  cases h with
  | function hname hparameters _ hbody =>
    obtain ⟨ts, hts, hlaid⟩ :=
      exists_laid_function hname hparameters (fun s hs => (hbody s hs).laid) following
    exact ⟨ts, hts, terminalsOf_of_laid hlaid⟩

/-- Every statement has a token. -/
theorem terminalsOf_ne_nil (h : s.Named) (following : List Terminal) :
    terminalsOf (s.writtenBefore mode following) ≠ [] := by
  cases h with
  | binding hname hvalue =>
    rw [writtenBefore]
    exact Stmt.terminalsOf_ne_nil (shown_binding _ hname hvalue)
  | function hname hparameters hasync hbody =>
    have hnamed := Named.function hname hparameters hasync hbody
    obtain ⟨ts, _, hts⟩ := hnamed.exists_terminalsOf following
    rw [hts]
    exact List.append_ne_nil_of_left_ne_nil (Opens.of_headingTerminals hasync).ne_nil _
  | expression he =>
    rw [writtenBefore, expressionText]
    exact Stmt.terminalsOf_ne_nil (he.shown.enclosedIf _)

/-- The lookahead is right about every statement, whatever the printer took to
follow it. -/
theorem recognises_eq (h : s.Named) (following : List Terminal) :
    mode.recognises (terminalsOf (s.writtenBefore mode following) ++ following) =
      decide (s.form = .function) := by
  cases h with
  | @binding name constant value hname hvalue =>
    have hne := Stmt.terminalsOf_ne_nil (shown_binding constant hname hvalue)
    show _ = false
    rw [writtenBefore, Bool.eq_false_iff]
    intro hmode
    have hhead := Detection.headKind_of_recognises hmode
    rw [headKind_append _ hne, headKind_binding constant hname hvalue] at hhead
    cases constant <;> cases hhead
  | function hname hparameters hasync hbody =>
    have hnamed := Named.function hname hparameters hasync hbody
    obtain ⟨ts, _, hts⟩ := hnamed.exists_terminalsOf following
    rw [hts, List.append_assoc]
    exact Detection.recognises_of_hasShape mode ((Opens.of_headingTerminals hasync).hasShape _)
  | expression he => exact recognises_expressionText he following

end Named

/-! ## Stretches of tokens -/

/-- In a text that is split into tokens, a statement takes up the tokens `ts`, where the
tokens `rest` and then the end mark stand behind them. -/
structure TakesUp (mode : Detection) (mark : Token) (s : Stmt) (ts rest : List Token) : Prop where
  /-- There is a first one. -/
  ne_nil : ts ≠ []
  /-- They are what the text of the statement is split into. -/
  written : ts.map Token.terminal =
    terminalsOf (s.writtenBefore mode (rest.map Token.terminal))
  /-- From the first one on the lookahead finds a declaration just when the statement is
  one. -/
  detects : mode.detects (ts ++ (rest ++ [mark])) ↔ s.form = .function

end Stmt

/-- The statements of a part take up the tokens `ts`, one behind the other, where the
tokens `rest` and then the end mark stand behind them. -/
inductive Tiles (mode : Detection) (mark : Token) : Part → List Token → List Token → Prop where
  /-- A binding. -/
  | binding {name : String} {constant : Bool} {value : Option Expr} {ts rest : List Token}
      (h : (Stmt.binding name constant value).TakesUp mode mark ts rest) :
      Tiles mode mark (.statement (.binding name constant value)) ts rest
  /-- A bare expression. -/
  | expression {e : Expr} {ts rest : List Token}
      (h : (Stmt.expression e).TakesUp mode mark ts rest) :
      Tiles mode mark (.statement (.expression e)) ts rest
  /-- A declaration: its heading, the statements of its body, and the brace that closes
  it. -/
  | function {name : String} {parameters : List String} {isAsync : Bool} {body : List Stmt}
      {hs bs rest : List Token} {close : Token}
      (h : (Stmt.function name parameters isAsync body).TakesUp mode mark
        (hs ++ (bs ++ [close])) rest)
      (hheading : hs.map Token.terminal = Stmt.headingTerminals name parameters isAsync)
      (hbody : Tiles mode mark (.body body) bs (close :: rest))
      (hclose : close.terminal = .mark .closeCurly) :
      Tiles mode mark (.statement (.function name parameters isAsync body))
        (hs ++ (bs ++ [close])) rest
  /-- No statement. -/
  | nil {rest : List Token} : Tiles mode mark (.body []) [] rest
  /-- A statement and more of them. -/
  | cons {s : Stmt} {ss : List Stmt} {ts us rest : List Token}
      (hs : Tiles mode mark (.statement s) ts (us ++ rest))
      (hss : Tiles mode mark (.body ss) us rest) :
      Tiles mode mark (.body (s :: ss)) (ts ++ us) rest

namespace Stmt

variable {mode : Detection} {mark : Token} {s : Stmt} {ts us rest : List Token}

theorem Named.takesUp (h : s.Named) (hmark : mark.kind = .endOfInput)
    (hts : ts.map Token.terminal = terminalsOf (s.writtenBefore mode (rest.map Token.terminal))) :
    s.TakesUp mode mark ts rest := by
  refine ⟨?_, hts, ?_⟩
  · rintro rfl
    exact h.terminalsOf_ne_nil _ hts.symm
  · rw [Detection.detects, List.map_append, List.map_append, List.map_singleton,
      ← List.append_assoc, Detection.recognises_concat_end mode hmark, hts, h.recognises_eq,
      decide_eq_true_eq]

/-- The tokens of a body are divided up if those of each statement are. -/
theorem tiles_body {ss : List Stmt}
    (h : ∀ s ∈ ss, ∀ ts rest : List Token,
      ts.map Token.terminal = terminalsOf (s.writtenBefore mode (rest.map Token.terminal)) →
      Tiles mode mark (.statement s) ts rest)
    (hus : (writtenBodyBefore mode (rest.map Token.terminal) ss).2 =
      us.map Token.terminal ++ rest.map Token.terminal) : Tiles mode mark (.body ss) us rest := by
  induction ss generalizing us with
  | nil =>
    have hempty : us.map Token.terminal = [] := List.self_eq_append_left.1 hus
    rw [List.map_eq_nil_iff.1 hempty]
    exact .nil
  | cons s ss ih =>
    obtain ⟨later, hlater, hsplit⟩ := exists_following_cons hus
    obtain ⟨ts, us', rfl, hts, rfl⟩ := List.map_eq_append_iff.1 hsplit
    rw [← List.map_append] at hts
    exact .cons (h s (.head ss) ts (us' ++ rest) hts)
      (ih (fun s' hs' => h s' (.tail s hs')) hlater)

/-- What the text of a statement is split into is divided up. -/
theorem Named.tiles (h : s.Named) (hmark : mark.kind = .endOfInput)
    (hts : ts.map Token.terminal = terminalsOf (s.writtenBefore mode (rest.map Token.terminal))) :
    Tiles mode mark (.statement s) ts rest := by
  induction h generalizing ts rest with
  | binding hname hvalue => exact .binding ((Named.binding hname hvalue).takesUp hmark hts)
  | function hname hparameters hasync hbody ih =>
    have hnamed := Named.function hname hparameters hasync hbody
    have htakes := hnamed.takesUp hmark hts
    obtain ⟨us, hus, hwritten⟩ := hnamed.exists_terminalsOf (rest.map Token.terminal)
    rw [hwritten] at hts
    -- The tokens are cut where the heading, the body and the brace end.
    obtain ⟨hs, others, rfl, hheading, hothers⟩ := List.map_eq_append_iff.1 hts
    obtain ⟨bs, closes, rfl, rfl, hcloses⟩ := List.map_eq_append_iff.1 hothers
    obtain ⟨close, rfl, hclose⟩ := List.map_eq_singleton_iff.1 hcloses
    refine .function htakes hheading (tiles_body (fun s hs ts rest => ih s hs) ?_) hclose
    rw [List.map_cons, hclose]
    exact hus
  | expression he => exact .expression ((Named.expression he).takesUp hmark hts)

end Stmt

/-! ## Programs -/

namespace Program

/-- The text of a program is split into tokens that the statements of the program take up
one behind the other, in every body, and the lookahead tells which of them are
declarations. -/
theorem tiles_written (mode : Detection) {p : Program} (h : ∀ s ∈ p.body, s.Named)
    (file : String) : ∃ tokens mark, Token.ofSource file (p.written mode) = .ok (tokens ++ [mark]) ∧
      mark.kind = .endOfInput ∧ Tiles mode mark (.body p.body) tokens [] := by
  obtain ⟨ts, hts⟩ := Stmt.exists_following mode [] p.body
  have hlaid := Stmt.laid_following (fun s hs => (h s hs).laid) hts
  obtain ⟨tokens, rfl, htext⟩ := (spells_join hlaid).ofText_eq file 0
  refine ⟨tokens, _, htext, rfl, ?_⟩
  exact Stmt.tiles_body (fun s hs ts rest => (h s hs).tiles rfl) hts

/-- An access to no number, whose property is a string, is not an expression that a
source gives.  Its text is split none the less, and it is put in parentheses because a
declaration follows. -/
theorem tiles_written_before_async : ∃ (p : Program) (tokens : List Token) (mark : Token),
    (∀ s ∈ p.body, s.Named) ∧
      p.written .forwardScan =
        "(NaN.\"a\")\nasync async(x) \x7b\n  (g(x))\n  \x7b\x7d\n\x7d\n" ∧
      Token.ofSource "" (p.written .forwardScan) = .ok (tokens ++ [mark]) ∧
      mark.kind = .endOfInput ∧ Tiles .forwardScan mark (.body p.body) tokens [] := by
  have hx : Lexeme.IsName "x" :=
    Lexeme.isName_iff.2 ⟨'x', [], rfl, rfl, List.forall_mem_nil _, rfl⟩
  have hg : Lexeme.IsName "g" :=
    Lexeme.isName_iff.2 ⟨'g', [], rfl, rfl, List.forall_mem_nil _, rfl⟩
  have haccess : (Stmt.expression (.member (.number .nan) (.string "a") false)).Named :=
    .expression (.member (.number .nan) (.string "a"))
  have hcall : (Stmt.expression (.call (.identifier "g") [.identifier "x"])).Named :=
    .expression (.call (.identifier hg) (List.forall_mem_singleton.2 (.identifier hx)))
  have hobject : (Stmt.expression (.object [])).Named :=
    .expression (.object (List.forall_mem_nil _) (by simp))
  have hfunction := Stmt.Named.function Stmt.isName_async (List.forall_mem_singleton.2 hx)
    (fun _ => rfl) (List.forall_mem_cons.2 ⟨hcall, List.forall_mem_singleton.2 hobject⟩)
  let p : Program := ⟨[.expression (.member (.number .nan) (.string "a") false),
    .function "async" ["x"] true
      [.expression (.call (.identifier "g") [.identifier "x"]), .expression (.object [])]]⟩
  have hnamed : ∀ s ∈ p.body, s.Named :=
    List.forall_mem_cons.2 ⟨haccess, List.forall_mem_singleton.2 hfunction⟩
  obtain ⟨tokens, mark, htext, hmark, htiles⟩ := tiles_written .forwardScan hnamed ""
  exact ⟨p, tokens, mark, hnamed, by decide +kernel, htext, hmark, htiles⟩

end Program

end Scriptlet
