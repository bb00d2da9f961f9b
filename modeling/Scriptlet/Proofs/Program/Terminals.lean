import Scriptlet.Proofs.Program.Layout

/-!
# The terminals of a written program

`Stmt.terminalsBefore` is written like `Stmt.writtenBefore`, with terminals in
place of text.  The text of a statement that can be written at all is laid out in
lines that spell these terminals (`Stmt.Printable.laid`), and so the text of a
program is split into the terminals of its statements
(`Program.ofSource_written`).
-/

namespace Scriptlet

open Token (Kind Spells Spelled Separate)

namespace Stmt

/-! ## Terminals -/

/-- The terminals of a binding. -/
def bindingTerminals (name : String) (constant : Bool) (value : Option Expr) : List Terminal :=
  .mark (if constant then .constWord else .letWord) :: ⟨.identifier, name⟩ ::
    match value with
    | some value => .mark .assignment :: value.terminals
    | none => []

/-- The terminals of a function declaration up to the brace that opens its
body. -/
def headingTerminals (name : String) (parameters : List String) (isAsync : Bool) : List Terminal :=
  (if isAsync then [⟨.identifier, "async"⟩] else []) ++ ⟨.identifier, name⟩ :: .mark .openParen ::
    (separated (parameters.map fun parameter => [⟨.identifier, parameter⟩]) ++
      [.mark .closeParen, .mark .openCurly])

mutual

/-- The terminals of a statement that others will follow. -/
def terminalsBefore (mode : Detection) (following : List Terminal) : Stmt → List Terminal
  | .binding name constant value => bindingTerminals name constant value
  | .function name parameters isAsync body =>
      headingTerminals name parameters isAsync ++
        (terminalsOfBodyBefore mode (.mark .closeCurly :: following) body ++ [.mark .closeCurly])
  | .expression expr =>
      enclosed (mode.recognises (expr.terminals ++ following)) expr.terminals

/-- The terminals of some statements that others will follow. -/
def terminalsOfBodyBefore (mode : Detection) (following : List Terminal) :
    List Stmt → List Terminal
  | [] => []
  | s :: ss =>
      let later := terminalsOfBodyBefore mode following ss
      terminalsBefore mode (later ++ following) s ++ later

end

/-- The statements that can be written: names are names, and their expressions can
be written. -/
inductive Printable : Stmt → Prop where
  /-- A binding. -/
  | binding {name : String} {constant : Bool} {value : Option Expr} (hname : Lexeme.IsName name)
      (hvalue : ∀ e ∈ value, e.Printable) : Printable (.binding name constant value)
  /-- A function declaration. -/
  | function {name : String} {parameters : List String} {isAsync : Bool} {body : List Stmt}
      (hname : Lexeme.IsName name) (hparameters : ∀ p ∈ parameters, Lexeme.IsName p)
      (hbody : ∀ s ∈ body, Printable s) : Printable (.function name parameters isAsync body)
  /-- A bare expression. -/
  | expression {e : Expr} (he : e.Printable) : Printable (.expression e)

/-- Texts are laid out in lines that spell some terminals one after another. -/
inductive LaidAll : List String → List Terminal → Prop where
  /-- No text. -/
  | nil : LaidAll [] []
  /-- A text and more of them. -/
  | cons {text : String} {texts : List String} {ts us : List Terminal} (h : Laid text.toList ts)
      (hs : LaidAll texts us) : LaidAll (text :: texts) (ts ++ us)

/-! ## The terminals of a text -/

theorem terminalsOf_eq {text : String} {ts : List Terminal} (h : Spells text.toList ts []) :
    terminalsOf text = ts := by
  obtain ⟨tokens, htokens, htext⟩ := h.ofText_eq Position.unnamed 0
  rw [terminalsOf, Token.ofSource, htext]
  simp only [List.dropLast_concat, htokens]

theorem terminalsOf_written {e : Expr} (h : e.Printable) : terminalsOf e.written = e.terminals :=
  terminalsOf_eq (h.spelled [] Token.separate_nil)

theorem terminalsOf_closeCurly : terminalsOf "\x7d" = [.mark .closeCurly] :=
  terminalsOf_eq (Token.spells_mark rfl rfl)

/-! ## Bindings and declarations -/

theorem spells_keyword (constant : Bool) {text rest : List Char} {ts : List Terminal}
    (h : Spells text ts rest) :
    Spells ((if constant then "const " else "let ").toList ++ text)
      (.mark (if constant then .constWord else .letWord) :: ts) rest := by
  have hblank : Separate (' ' :: text ++ rest) := Token.separate_cons rfl
  cases constant with
  | false =>
    have hlet : ∀ d ∈ ['e', 't'], Lexeme.isWordChar d := List.all_eq_true.1 rfl
    exact (Token.spells_word (c := 'l') rfl hlet hblank).append h.cons_blank
  | true =>
    have hconst : ∀ d ∈ ['o', 'n', 's', 't'], Lexeme.isWordChar d := List.all_eq_true.1 rfl
    exact (Token.spells_word (c := 'c') rfl hconst hblank).append h.cons_blank

theorem isLine_binding {name : String} {constant : Bool} {value : Option Expr}
    (hname : Lexeme.IsName name) (hvalue : ∀ e ∈ value, e.Printable) :
    IsLine (bindingText name constant value).toList (bindingTerminals name constant value) := by
  have hword : IsFlat (if constant then "const " else "let ") := by
    cases constant <;> exact .of_any rfl
  cases value with
  | none =>
    refine ⟨hword.append hname.isFlat, fun rest hrest => ?_⟩
    have hspells := spells_keyword constant (Token.spells_name hname hrest)
    rw [bindingText, String.toList_append]
    exact hspells
  | some e =>
    have he := hvalue e rfl
    refine ⟨((hword.append hname.isFlat).append (.of_any rfl)).append he.isFlat, fun rest hrest => ?_⟩
    have htext : (bindingText name constant (some e)).toList =
        (if constant then "const " else "let ").toList ++
          (name.toList ++ ' ' :: '=' :: ' ' :: e.written.toList) := by
      simp [bindingText]
    have hvalue := ((he.spelled rest hrest).cons_blank.cons_mark (c := '=') rfl rfl).cons_blank
    rw [htext]
    exact spells_keyword constant
      ((Token.spells_name hname (Token.separate_cons rfl)).append hvalue)

theorem isLine_expression {e : Expr} (h : e.Printable) (needed : Bool) :
    IsLine (enclosedIf needed e.written).toList (enclosed needed e.terminals) :=
  ⟨h.isFlat.enclosedIf needed, h.spelled.enclosedIf needed⟩

/-- The text of a declaration up to the brace that opens its body. -/
def headingText (name : String) (parameters : List String) (isAsync : Bool) : String :=
  (if isAsync then "async " else "") ++ name ++ "(" ++ ", ".intercalate parameters ++ ") \x7b"

theorem isName_async : Lexeme.IsName "async" :=
  Lexeme.isName_iff.2 ⟨'a', ['s', 'y', 'n', 'c'], rfl, rfl, List.all_eq_true.1 rfl, rfl⟩

theorem spells_modifier (isAsync : Bool) {text rest : List Char} {ts : List Terminal}
    (h : Spells text ts rest) :
    Spells ((if isAsync then "async " else "").toList ++ text)
      ((if isAsync then [⟨.identifier, "async"⟩] else []) ++ ts) rest := by
  cases isAsync with
  | false => exact h
  | true =>
    have hblank : Separate (' ' :: text ++ rest) := Token.separate_cons rfl
    exact (Token.spells_name isName_async hblank).append h.cons_blank

theorem forall₂_spelled_words {words : List String} (h : ∀ word ∈ words, Lexeme.IsWord word) :
    List.Forall₂ Spelled words (words.map fun word => [.word word]) := by
  induction words with
  | nil => exact .nil
  | cons word words ih =>
    exact .cons (fun _ hrest => Token.spells_of_isWord (h word (.head words)) hrest)
      (ih fun other hother => h other (.tail word hother))

/-- The terminals of a function declaration up to the brace that opens its body, where any words
may stand for names. -/
def wordedHeading (name : String) (parameters : List String) (isAsync : Bool) : List Terminal :=
  (if isAsync then [⟨.identifier, "async"⟩] else []) ++ .word name :: .mark .openParen ::
    (separated (parameters.map fun parameter => [.word parameter]) ++
      [.mark .closeParen, .mark .openCurly])

theorem wordedHeading_of_isName {name : String} {parameters : List String} (isAsync : Bool)
    (hname : Lexeme.IsName name) (hparameters : ∀ p ∈ parameters, Lexeme.IsName p) :
    wordedHeading name parameters isAsync = headingTerminals name parameters isAsync := by
  have hmap : (parameters.map fun parameter => [Terminal.word parameter]) =
      parameters.map fun parameter => [⟨.identifier, parameter⟩] :=
    List.map_congr_left fun p hp => congrArg (fun t => [t]) (hparameters p hp).word_eq
  rw [wordedHeading, headingTerminals, hname.word_eq, hmap]

theorem isLine_wordedHeading {name : String} {parameters : List String} (isAsync : Bool)
    (hname : Lexeme.IsWord name) (hparameters : ∀ p ∈ parameters, Lexeme.IsWord p) :
    IsLine (headingText name parameters isAsync).toList
      (wordedHeading name parameters isAsync) := by
  have hmodifier : IsFlat (if isAsync then "async " else "") := by
    cases isAsync <;> exact .of_any rfl
  have hflat : IsFlat (", ".intercalate parameters) :=
    .intercalate fun p hp => (hparameters p hp).isFlat
  refine ⟨(((hmodifier.append hname.isFlat).append (.of_any rfl)).append hflat).append (.of_any rfl),
    fun rest _ => ?_⟩
  have htext : (headingText name parameters isAsync).toList =
      (if isAsync then "async " else "").toList ++
        (name.toList ++ '(' :: ((", ".intercalate parameters).toList ++ [')', ' ', '{'])) := by
    simp [headingText]
  have hbrace : Spells ['{'] [.mark .openCurly] rest := Token.spells_mark rfl rfl
  have hclose := hbrace.cons_blank.cons_mark (c := ')') rfl rfl
  have hlist := (Spelled.intercalate (forall₂_spelled_words hparameters) (')' :: ' ' :: '{' :: rest)
    (Token.separate_cons rfl)).append hclose
  have hopen := hlist.cons_mark (c := '(') rfl rfl
  rw [htext]
  exact spells_modifier isAsync
    ((Token.spells_of_isWord hname (Token.separate_cons rfl)).append hopen)

theorem isLine_heading {name : String} {parameters : List String} (isAsync : Bool)
    (hname : Lexeme.IsName name) (hparameters : ∀ p ∈ parameters, Lexeme.IsName p) :
    IsLine (headingText name parameters isAsync).toList
      (headingTerminals name parameters isAsync) := by
  rw [← wordedHeading_of_isName isAsync hname hparameters]
  exact isLine_wordedHeading isAsync hname.isWord fun p hp => (hparameters p hp).isWord

theorem isLine_closeCurly : IsLine ['}'] [.mark .closeCurly] :=
  ⟨List.forall_mem_singleton.2 rfl, fun _ _ => Token.spells_mark rfl rfl⟩

/-- A brace may stand right behind a line. -/
theorem isLine_append_closeCurly {line : List Char} {ts : List Terminal} (h : IsLine line ts) :
    IsLine (line ++ ['}']) (ts ++ [.mark .closeCurly]) := by
  refine ⟨fun c hc => (List.mem_append.1 hc).elim (h.flat c) (isLine_closeCurly.flat c), ?_⟩
  intro rest hrest
  exact (h.spells _ (Token.separate_cons rfl)).append (isLine_closeCurly.spells rest hrest)

theorem toList_functionText_nil (name : String) (parameters : List String) (isAsync : Bool) :
    (functionText name parameters isAsync []).toList =
      (headingText name parameters isAsync).toList ++ ['}'] := by
  simp [functionText, headingText]

theorem toList_functionText (name : String) (parameters : List String) (isAsync : Bool)
    {texts : List String} (h : texts ≠ []) :
    (functionText name parameters isAsync texts).toList =
      (headingText name parameters isAsync).toList ++ '\n' :: (texts.flatMap indented ++ ['}']) := by
  obtain ⟨text, texts, rfl⟩ := List.exists_cons_of_ne_nil h
  simp [functionText, headingText]

theorem laid_body {texts : List String} {ts : List Terminal} (h : LaidAll texts ts) :
    Laid (texts.flatMap indented ++ ['}']) (ts ++ [.mark .closeCurly]) := by
  induction h with
  | nil => exact .last (List.cons_ne_nil _ _) isLine_closeCurly
  | cons htext _ ih =>
    obtain ⟨inner, hindented, hinner⟩ := htext.indented
    rw [List.flatMap_cons, hindented, List.append_assoc, List.append_assoc, List.append_assoc]
    exact hinner.append ih

theorem laid_function {name : String} {parameters : List String} {texts : List String}
    {ts : List Terminal} (isAsync : Bool) (hname : Lexeme.IsName name)
    (hparameters : ∀ p ∈ parameters, Lexeme.IsName p) (hbody : LaidAll texts ts) :
    Laid (functionText name parameters isAsync texts).toList
      (headingTerminals name parameters isAsync ++ (ts ++ [.mark .closeCurly])) := by
  have hheading := isLine_heading isAsync hname hparameters
  have hclosed := laid_body hbody
  cases hbody with
  | nil =>
    rw [toList_functionText_nil]
    exact .last (List.append_ne_nil_of_right_ne_nil _ (List.cons_ne_nil _ _))
      (isLine_append_closeCurly hheading)
  | cons =>
    rw [toList_functionText _ _ _ (List.cons_ne_nil _ _)]
    exact .more hheading hclosed

/-! ## Statements and programs -/

theorem laid_bodyBefore {mode : Detection} {following : List Terminal} {ss : List Stmt}
    (h : ∀ s ∈ ss, ∀ following,
      Laid (s.writtenBefore mode following).toList (s.terminalsBefore mode following)) :
    LaidAll (writtenBodyBefore mode following ss).1 (terminalsOfBodyBefore mode following ss) ∧
      (writtenBodyBefore mode following ss).2 =
        terminalsOfBodyBefore mode following ss ++ following := by
  induction ss with
  | nil => exact ⟨.nil, rfl⟩
  | cons s ss ih =>
    obtain ⟨hlaid, hlater⟩ := ih fun s' hs' => h s' (.tail s hs')
    have hs := h s (.head ss) (terminalsOfBodyBefore mode following ss ++ following)
    simp only [writtenBodyBefore, terminalsOfBodyBefore, hlater]
    refine ⟨.cons hs hlaid, ?_⟩
    rw [terminalsOf_eq (hs.spells Token.separate_nil), List.append_assoc]

/-- The text of a statement is laid out in lines that spell its terminals. -/
theorem Printable.laid {mode : Detection} {s : Stmt} (h : s.Printable) (following : List Terminal) :
    Laid (s.writtenBefore mode following).toList (s.terminalsBefore mode following) := by
  induction h generalizing following with
  | @binding name constant value hname hvalue =>
    rw [writtenBefore, terminalsBefore]
    refine .last ?_ (isLine_binding hname hvalue)
    intro hnil
    cases constant <;> cases value <;> simp [bindingText] at hnil
  | function hname hparameters _ ih =>
    rw [writtenBefore, terminalsBefore, terminalsOf_closeCurly]
    exact laid_function _ hname hparameters (laid_bodyBefore ih).1
  | @expression e he =>
    rw [writtenBefore, terminalsBefore, expressionText, terminalsOf_written he]
    have hline := isLine_expression he (mode.recognises (e.terminals ++ following))
    refine .last ?_ hline
    intro hnil
    rw [hnil] at hline
    have hempty := (hline.spells [] Token.separate_nil).eq_nil
    have hne := he.derives.ne_nil
    cases hneeded : mode.recognises (e.terminals ++ following) with
    | false =>
      rw [hneeded] at hempty
      exact hne hempty
    | true =>
      rw [hneeded] at hempty
      cases hempty

end Stmt

namespace Program

theorem spells_join {texts : List String} {ts : List Terminal} (h : Stmt.LaidAll texts ts) :
    Spells (String.join (texts.map (· ++ "\n"))).toList ts [] := by
  induction h with
  | nil => exact .nil []
  | @cons text texts ts us htext _ ih =>
    have hjoin : (String.join ((text :: texts).map (· ++ "\n"))).toList =
        text.toList ++ '\n' :: (String.join (texts.map (· ++ "\n"))).toList := by
      simp
    rw [hjoin]
    exact (htext.spells (separate_newline _)).append
      ((Token.spells_blank Text.isBlank_newline _).append ih)

/-- The text of a program is split into the terminals of its statements. -/
theorem ofSource_written (mode : Detection) {p : Program} (h : ∀ s ∈ p.body, s.Printable)
    (file : String) : ∃ tokens mark, Token.ofSource file (p.written mode) = .ok (tokens ++ [mark]) ∧
      mark.kind = .endOfInput ∧
      tokens.map Token.terminal = Stmt.terminalsOfBodyBefore mode [] p.body := by
  have hlaid : Stmt.LaidAll (Stmt.writtenBodyBefore mode [] p.body).1
      (Stmt.terminalsOfBodyBefore mode [] p.body) :=
    (Stmt.laid_bodyBefore fun s hs following => (h s hs).laid following).1
  obtain ⟨tokens, htokens, htext⟩ := (spells_join hlaid).ofText_eq file 0
  exact ⟨tokens, _, htext, rfl, htokens⟩

end Program

end Scriptlet
