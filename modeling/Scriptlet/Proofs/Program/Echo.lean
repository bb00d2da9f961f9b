import Scriptlet.Proofs.Expr.Surface
import Scriptlet.Proofs.Program.Source

/-!
# How a written program echoes its source

A source and the text that is written for its program are read along each other,
from the last statement to the first.  `Echo` compares what is left of the two
behind a statement, as far as the printer and the reader look at it.  It is in
one direction only: the source may have more parentheses than the text, and
whatever a lookahead finds in the text it finds in the source as well.

So an expression that the text must put in parentheses stood in parentheses in
the source, or the source would have taken it for a declaration, too
(`Echo.recognises`).
-/

namespace Scriptlet

open Token (Kind)
open Scriptlet.Parser (Stands)
open Detection (opensBody opensDeclaration hasShape)

/-- What is left of a source, and what is left of the text that is written for
it. -/
structure Echo (source text : List Terminal) : Prop where
  /-- The text ends where the source ends. -/
  empty : source = [] → text = []
  /-- The text goes on as a statement or an end does. -/
  follows : headKind text ∈ followingKinds
  /-- A parenthesis comes first only where it did in the source. -/
  paren : headKind text = .openParen → headKind source = .openParen
  /-- A brace comes first only where it did in the source, unless it stood in
  parentheses. -/
  curly : headKind text = .openCurly →
    headKind source = .openCurly ∨ headKind source = .openParen
  /-- A declaration comes first only where it did in the source, unless the source
  starts with a parenthesis. -/
  declaration : headKind source ≠ .openParen → opensDeclaration text → opensDeclaration source
  /-- A parenthesis is opened only if there was one in the source. -/
  anyParen : HasParen text → HasParen source
  /-- A body is opened only if there was one in the source. -/
  body : opensBody text → opensBody source

namespace Parser.Stands

variable {e : Expr} {ts rest : List Terminal}

/-- Only a bare object literal keeps a parenthesis from being a call. -/
theorem bare_of_openParen (h : Stands e ts rest) (hparen : headKind rest = .openParen) :
    Bare e ts := by
  cases h with
  | free _ hstop =>
    rw [hparen] at hstop
    exact absurd (by decide) hstop
  | bare h => exact h

end Parser.Stands

/-- A bare derivation does not end in a parenthesis. -/
theorem Bare.lastKind_eq {e : Expr} {ts : List Terminal} (h : Bare e ts) :
    lastKind ts = .closeCurly := by
  induction h with
  | object _ _ hr => rw [lastKind_cons_concat, hr]
  | assign _ _ hvalue ih =>
    rw [lastKind_append (List.cons_ne_nil _ _), lastKind_cons hvalue.derives.ne_nil, ih]

namespace Echo

variable {mode : Detection} {level : Level} {e : Expr} {source text us ts : List Terminal}

/-! ## An expression before what is left -/

/-- An expression that is taken for a declaration where it is written was taken for
one in the source, unless it stood in parentheses there. -/
theorem opensDeclaration_append (h : Echo source text) (he : Stands e us source)
    (hts : Derives (.expr level e) ts) (hhead : headKind us ≠ .openParen)
    (hopens : opensDeclaration (ts ++ text)) : opensDeclaration (us ++ source) := by
  rcases hts.of_opensDeclaration hopens with ⟨⟨name, rfl⟩, hparen⟩ | ⟨⟨name, es, rfl⟩, hcurly⟩
  · cases he.bare_of_openParen (h.paren hparen)
  · rcases h.curly hcurly with hbrace | hparen
    · exact he.derives.opensDeclaration_of_call hhead hbrace
    · cases he.bare_of_openParen hparen

theorem opensBody_append (h : Echo source text) (he : Stands e us source) (hp : e.Printable)
    (hopens : opensBody (e.terminals ++ text)) : opensBody (us ++ source) := by
  rw [Detection.opensBody_append, hp.derives.opensBody_eq_false, Bool.false_or, Bool.or_eq_true,
    Bool.and_eq_true] at hopens
  rw [Detection.opensBody_append, Bool.or_eq_true, Bool.or_eq_true]
  rcases hopens with ⟨hclose, hcurly⟩ | hbody
  · have hlast := he.derives.resembles.last (of_decide_eq_true hclose)
    rcases h.curly (of_decide_eq_true hcurly) with hbrace | hparen
    · rw [hlast, hbrace]
      exact .inl (.inr rfl)
    · rw [(he.bare_of_openParen hparen).lastKind_eq] at hlast
      cases hlast
  · exact .inr (h.body hbody)

theorem hasParen_append (h : Echo source text) (he : Stands e us source)
    (hparen : HasParen (e.terminals ++ text)) : HasParen (us ++ source) := by
  rw [Scriptlet.hasParen_append] at hparen ⊢
  exact hparen.imp he.derives.resembles.paren h.anyParen

/-- An expression that must be written in parentheses stood in parentheses in the
source, or the source took it for a declaration. -/
theorem recognises (h : Echo source text) (he : Stands e us source) (hp : e.Printable)
    (hhead : headKind us ≠ .openParen) (hmode : mode.recognises (e.terminals ++ text)) :
    mode.recognises (us ++ source) := by
  obtain ⟨hsame, hfirst⟩ := he.derives.resembles.head.resolve_left hhead
  have hname : headKind e.terminals = .identifier := by
    rw [← headKind_append text (Expr.terminals_ne_nil e)]
    exact Detection.headKind_of_recognises hmode
  cases mode with
  | forwardScan =>
    obtain ⟨_, hparen, hbody⟩ := Detection.scansForward_iff.1 hmode
    refine Detection.scansForward_iff.2 ⟨?_, h.hasParen_append he hparen, h.opensBody_append he hp hbody⟩
    rw [headKind_append _ he.derives.ne_nil, hsame, hname]
  | anchored =>
    have hderives := hp.derives
    replace hfirst := hfirst hname
    obtain ⟨t, us, rfl⟩ := List.exists_cons_of_ne_nil he.derives.ne_nil
    obtain ⟨_, ts, hts⟩ := List.exists_cons_of_ne_nil (Expr.terminals_ne_nil e)
    rw [hts] at hfirst hmode hderives
    cases hfirst
    rw [Detection.recognises, hasShape, List.cons_append, Detection.afterAsync] at hmode ⊢
    split at hmode
    next hasync =>
      -- Behind the modifier the declaration is one of what is left.
      rw [if_pos hasync]
      obtain ⟨rfl, rfl⟩ :=
        hderives.name_before_declaration (Detection.kind_of_isAsyncWord hasync) hmode
      obtain ⟨_, rfl⟩ := List.cons.inj (he.derives.identifier_cases.resolve_left hhead)
      refine h.declaration ?_ hmode
      intro hparen
      cases he.bare_of_openParen hparen
    next hother =>
      rw [if_neg hother]
      exact h.opensDeclaration_append he hderives hhead hmode

end Echo

/-! ## Headings -/

theorem parameterNames_identifiers (names : List String) :
    Parser.parameterNames (names.map .identifier) = .ok names := by
  induction names with
  | nil => rfl
  | cons name names ih =>
    rw [List.map_cons, Parser.parameterNames, ih]
    rfl

theorem terminalsOfList_identifiers (names : List String) :
    Expr.terminalsOfList (names.map .identifier) =
      names.map fun name => [⟨.identifier, name⟩] := by
  induction names with
  | nil => rfl
  | cons name names ih => exact congrArg (List.cons _) ih

theorem derives_parameters (names : List String) :
    Derives (.arguments (names.map .identifier))
      (separated (names.map fun name => [⟨.identifier, name⟩])) := by
  rw [← terminalsOfList_identifiers]
  refine Derives.arguments ?_
  intro e he
  obtain ⟨name, _, rfl⟩ := List.mem_map.1 he
  exact (Derives.name (t := ⟨.identifier, name⟩) rfl).loosen_to (Nat.not_lt_zero _)

namespace Opens

variable {head : Parser.Heading} {hs : List Terminal}

/-- What is written for a heading is one, unless the word `async` is a name without the
modifier. -/
theorem of_headingTerminals {name : String} {parameters : List String} {isAsync : Bool}
    (hasync : name = "async" → isAsync) : Opens ⟨isAsync, name, parameters⟩
      (Stmt.headingTerminals name parameters isAsync) := by
  have hparameters := derives_parameters parameters
  have hnames := parameterNames_identifiers parameters
  cases isAsync with
  | false =>
    have hword : Detection.isAsyncWord ⟨.identifier, name⟩ = false := by
      simpa [Detection.isAsyncWord] using hasync
    exact .plain (t := ⟨.identifier, name⟩) hword rfl rfl hparameters hnames rfl rfl
  | true =>
    exact .async (a := ⟨.identifier, "async"⟩) (t := ⟨.identifier, name⟩) (by decide) rfl rfl
      hparameters hnames rfl rfl

/-- The heading of a declaration is written as one. -/
theorem written (h : Opens head hs) :
    Opens head (Stmt.headingTerminals head.name head.parameters head.isAsync) := by
  refine of_headingTerminals ?_
  cases h with
  | @plain t _ _ _ _ _ _ hasync ht =>
    intro hname
    have hother : ¬ t.value = "async" := by simpa [Detection.isAsyncWord, ht] using hasync
    exact absurd hname hother
  | async => exact fun _ => rfl

/-- Whether the modifier hides a declaration can be told from what is written. -/
theorem opensDeclaration_of_written (h : Opens head hs) {source text : List Terminal}
    (hopens : Detection.opensDeclaration
      (Stmt.headingTerminals head.name head.parameters head.isAsync ++ text)) :
    Detection.opensDeclaration (hs ++ source) := by
  cases h with
  | plain _ ht hl hes _ hr hb => exact Opens.opensDeclaration ht hl hes hr hb source
  | async => simp [Stmt.headingTerminals, Detection.opensDeclaration] at hopens

end Opens

/-! ## Statements and bodies -/

namespace Echo

variable {mode : Detection} {e : Expr} {source text us : List Terminal}

/-- Nothing is left of either. -/
theorem nil : Echo [] [] := ⟨id, by decide, id, .inl, fun _ => id, id, id⟩

/-- What starts with the word of a binding. -/
theorem of_word {kind : Kind} (hkind : kind = .letWord ∨ kind = .constWord)
    (hsource : headKind source = kind) (htext : headKind text = kind)
    (hparen : HasParen text → HasParen source) (hbody : opensBody text → opensBody source) :
    Echo source text := by
  constructor
  case empty =>
    rintro rfl
    rcases hkind with rfl | rfl <;> cases hsource
  case follows =>
    rw [htext]
    rcases hkind with rfl | rfl <;> decide
  case paren =>
    rw [htext, hsource]
    exact id
  case curly =>
    rw [htext, hsource]
    exact .inl
  case declaration =>
    intro _ hopens
    rw [Detection.headKind_of_opensDeclaration hopens] at htext
    rcases hkind with rfl | rfl <;> cases htext
  case anyParen => exact hparen
  case body => exact hbody

/-- What starts with the heading of a declaration. -/
theorem of_heading {head : Parser.Heading} {hs : List Terminal} (h : Opens head hs) :
    Echo (hs ++ source)
      (Stmt.headingTerminals head.name head.parameters head.isAsync ++ text) := by
  have hstart : headKind (Stmt.headingTerminals head.name head.parameters head.isAsync ++ text) =
      .identifier := by
    rw [headKind_append _ h.written.ne_nil, h.written.headKind_eq]
  obtain ⟨_, hparen, hbody⟩ :=
    Detection.scansForward_iff.1 (Detection.scansForward_of_hasShape (h.hasShape source))
  constructor
  case empty =>
    intro hnil
    exact absurd (List.append_eq_nil_iff.1 hnil).1 h.ne_nil
  case follows =>
    rw [hstart]
    decide
  case paren =>
    intro hhead
    rw [hstart] at hhead
    cases hhead
  case curly =>
    intro hhead
    rw [hstart] at hhead
    cases hhead
  case declaration => exact fun _ => h.opensDeclaration_of_written
  case anyParen => exact fun _ => hparen
  case body => exact fun _ => hbody

/-- What starts with an expression. -/
theorem of_expression (h : Echo source text) (he : Stands e us source) (hp : e.Printable) :
    Echo (us ++ source) (e.terminals ++ text) := by
  have hne := he.derives.ne_nil
  have hne' := e.terminals_ne_nil
  have hresembles := he.derives.resembles
  constructor
  case empty =>
    intro hnil
    exact absurd (List.append_eq_nil_iff.1 hnil).1 hne
  case follows =>
    rw [headKind_append _ hne']
    exact .tail _ (.tail _ hp.derives.headKind_mem_statementKinds)
  case paren =>
    rw [headKind_append _ hne, headKind_append _ hne']
    intro hhead
    rcases hresembles.head with hparen | ⟨hsame, _⟩
    · exact hparen
    · exact hsame.trans hhead
  case curly =>
    rw [headKind_append _ hne, headKind_append _ hne']
    intro hhead
    rcases hresembles.head with hparen | ⟨hsame, _⟩
    · exact .inr hparen
    · exact .inl (hsame.trans hhead)
  case declaration =>
    rw [headKind_append _ hne]
    exact h.opensDeclaration_append he hp.derives
  case anyParen => exact h.hasParen_append he
  case body => exact h.opensBody_append he hp

/-- What must be written in parentheses started with a parenthesis in the source. -/
theorem headKind_of_needed (h : Echo source text) (he : Stands e us source) (hp : e.Printable)
    (hmode : mode.recognises (us ++ source) = false)
    (hneeded : mode.recognises (e.terminals ++ text)) : headKind us = .openParen := by
  by_contra hother
  rw [h.recognises he hp hother hneeded] at hmode
  cases hmode

/-- What starts with an expression that must be written in parentheses. -/
theorem of_grouped (h : Echo source text) (he : Stands e us source) (hp : e.Printable)
    (hmode : mode.recognises (us ++ source) = false)
    (hneeded : mode.recognises (e.terminals ++ text)) :
    Echo (us ++ source) (enclosed true e.terminals ++ text) := by
  have hhead := h.headKind_of_needed he hp hmode hneeded
  have hsource : headKind (us ++ source) = .openParen := by
    rw [headKind_append _ he.derives.ne_nil, hhead]
  have hbody : opensBody (e.terminals ++ text) :=
    (Detection.scansForward_iff.1 (Detection.scansForward_of_recognises hneeded)).2.2
  constructor
  case empty =>
    intro hnil
    exact absurd (List.append_eq_nil_iff.1 hnil).1 he.derives.ne_nil
  case follows =>
    show Kind.openParen ∈ followingKinds
    decide
  case paren => exact fun _ => hsource
  case curly => exact fun _ => .inr hsource
  case declaration =>
    intro hother
    exact absurd hsource hother
  case anyParen => exact fun _ => hasParen_of_headKind hsource
  case body => exact fun _ => h.opensBody_append he hp hbody

/-- The brace that closes a body echoes itself. -/
theorem closing {close : Terminal} (h : Echo source text) (hclose : close.kind = .closeCurly) :
    Echo (close :: source) (.mark .closeCurly :: text) := by
  constructor
  case empty => simp
  case follows =>
    show Kind.closeCurly ∈ followingKinds
    decide
  case paren => simp
  case curly => simp
  case declaration =>
    intro _ hopens
    cases Detection.headKind_of_opensDeclaration hopens
  case anyParen => simpa [hclose] using h.anyParen
  case body => simpa [hclose, Detection.opensBody_cons] using h.body

end Echo

namespace Reads

variable {mode : Detection} {source text us : List Terminal}

/-- What is written for a statement echoes its source. -/
theorem echo {s : Stmt} (h : Reads mode (.statement s) us source) (hp : s.Printable)
    (hecho : Echo source text) : Echo (us ++ source) (s.terminalsBefore mode text ++ text) := by
  have hword {w : Terminal} (hw : w.kind = .letWord ∨ w.kind = .constWord) :
      (if decide (w.kind = .constWord) then Kind.constWord else .letWord) = w.kind := by
    rcases hw with hw | hw <;> rw [hw] <;> rfl
  cases h with
  | @binding w t q e ts _ hw ht hq he =>
    cases hp with
    | binding _ hvalue =>
      have hopen : (if w.kind = .constWord then Kind.constWord else .letWord) ≠ .openParen := by
        split <;> decide
      refine .of_word hw rfl (hword hw) ?_ ?_
      · intro hparen
        have hinner := hecho.hasParen_append he (by
          simpa [Stmt.terminalsBefore, Stmt.bindingTerminals, hopen] using hparen)
        simp only [List.cons_append, hasParen_cons]
        exact .inr (.inr (.inr hinner))
      · intro hbody
        have hinner := hecho.opensBody_append he (hvalue e rfl) (by
          simpa [Stmt.terminalsBefore, Stmt.bindingTerminals, Detection.opensBody_cons] using hbody)
        simp only [List.cons_append, Detection.opensBody_cons, hinner, Bool.or_true]
  | bareBinding hw ht =>
    rw [hecho.empty rfl]
    refine .of_word (.inl rfl) hw rfl ?_ ?_
    · simp [Stmt.terminalsBefore, Stmt.bindingTerminals]
    · simp [Stmt.terminalsBefore, Stmt.bindingTerminals, Detection.opensBody_cons, opensBody]
  | function hopens =>
    rw [Stmt.terminalsBefore, List.append_assoc, List.append_assoc (Stmt.headingTerminals _ _ _)]
    exact .of_heading hopens
  | @expression e _ _ he hmode =>
    cases hp with
    | expression hp =>
      cases hneeded : mode.recognises (e.terminals ++ text) with
      | false =>
        rw [Stmt.terminalsBefore, hneeded]
        exact hecho.of_expression he hp
      | true =>
        rw [Stmt.terminalsBefore, hneeded]
        exact hecho.of_grouped he hp hmode hneeded

/-- What is written for a body echoes its source. -/
theorem echo_body {ss : List Stmt} (h : Reads mode (.body ss) us source)
    (hp : ∀ s ∈ ss, s.Printable) (hecho : Echo source text) :
    Echo (us ++ source) (Stmt.terminalsOfBodyBefore mode text ss ++ text) := by
  induction ss generalizing us with
  | nil =>
    cases h
    exact hecho
  | cons s ss ih =>
    cases h with
    | cons hs hss =>
      have hlater := ih hss fun s' hs' => hp s' (.tail s hs')
      rw [Stmt.terminalsOfBodyBefore, List.append_assoc, List.append_assoc]
      exact hs.echo (hp s (.head ss)) hlater

end Reads

end Scriptlet
