import Scriptlet.Proofs.Program.Sound

/-!
# What the grammar of programs allows is read

Where the terminals to come make up a program, the reader returns that program
(`program_complete`).  With the other direction this says that a program is read
just when the grammar allows it (`ofTokens_eq_ok_iff`), so the two lookaheads are
compared on the grammar, and so are a source and the text written for it.
-/

namespace Scriptlet

open Token (Kind)

namespace Parser

section

variable {mode : Detection} {c c' c₁ : Cursor}

/-! ## The branches of the readers -/

theorem binding_of_value {e : Expr} (hname : c.advance.kind = .identifier)
    (hsign : c.advance.advance.kind = .assignment)
    (he : expression c.advance.advance.advance = .ok e c') :
    binding c = .ok
      (.binding c.advance.current.value (c.current.kind = .constWord) (some e)) c' := by
  have hnext : c.advance.advance.current.kind = .assignment := hsign
  simp only [binding, bind_of_eq_ok run_advance, bind_of_eq_ok (expect_of_kind _ hname),
    bind_of_eq_ok run_current, hnext, bind_of_eq_ok (expect_of_kind _ hsign), bind_of_eq_ok he]
  rfl

theorem binding_of_end (hword : c.kind = .letWord) (hname : c.advance.kind = .identifier)
    (hend : c.advance.advance.kind = .endOfInput) :
    binding c = .ok (.binding c.advance.current.value false none) c.advance.advance := by
  have hnext : c.advance.advance.current.kind = .endOfInput := hend
  have hfirst : c.current.kind = .letWord := hword
  simp only [binding, bind_of_eq_ok run_advance, bind_of_eq_ok (expect_of_kind _ hname),
    bind_of_eq_ok run_current, hnext, hfirst]
  rfl

theorem function_of_body {bound : Nat} {inner : Parser Stmt} {head : Heading} {ss : List Stmt}
    {c₂ : Cursor} (hheading : heading c = .ok head c₁)
    (hss : statements endsBody inner bound c₁ = .ok ss c₂) (hclose : c₂.kind = .closeCurly) :
    function bound inner c =
      .ok (.function head.name head.parameters head.isAsync ss) c₂.advance := by
  simp only [function, bind_of_eq_ok hheading, bind_of_eq_ok hss,
    bind_of_eq_ok (expect_of_kind _ hclose)]
  rfl

theorem statements_of_ends {ends : Kind → Bool} {statement : Parser Stmt} {bound : Nat}
    (h : ends c.kind) : statements ends statement bound c = .ok [] c := by
  cases bound with
  | zero => rfl
  | succ bound =>
    simp only [statements, bind_of_eq_ok run_kind, h, if_true]
    rfl

theorem statements_of_statement {ends : Kind → Bool} {statement : Parser Stmt} {bound : Nat}
    {s : Stmt} {ss : List Stmt} (h : ends c.kind = false) (hs : statement c = .ok s c₁)
    (hss : statements ends statement bound c₁ = .ok ss c') :
    statements ends statement (bound + 1) c = .ok (s :: ss) c' := by
  simp only [statements, bind_of_eq_ok run_kind, h, Bool.false_eq_true, if_false, bind_of_eq_ok hs,
    bind_of_eq_ok hss]
  rfl

theorem statementOver_of_function {bound : Nat} {inner : Parser Stmt}
    (h : mode.recognises c.terminals) : statementOver mode bound inner c = function bound inner c := by
  have hrun : startsFunction mode c = .ok true c := by
    rw [startsFunction, Detection.detects_remaining, h]
  simp only [statementOver, bind_of_eq_ok hrun, if_true]

theorem statementOver_of_binding {bound : Nat} {inner : Parser Stmt}
    (h : mode.recognises c.terminals = false) (hword : c.kind = .letWord ∨ c.kind = .constWord) :
    statementOver mode bound inner c = binding c := by
  have hrun : startsFunction mode c = .ok false c := by
    rw [startsFunction, Detection.detects_remaining, h]
  rcases hword with hw | hw <;>
    simp only [statementOver, bind_of_eq_ok hrun, Bool.false_eq_true, if_false,
      bind_of_eq_ok run_kind, hw]

theorem statementOver_of_expression {bound : Nat} {inner : Parser Stmt} {e : Expr}
    (h : mode.recognises c.terminals = false) (hlet : c.kind ≠ .letWord)
    (hconst : c.kind ≠ .constWord) (he : expression c = .ok e c') :
    statementOver mode bound inner c = .ok (.expression e) c' := by
  have hrun : startsFunction mode c = .ok false c := by
    rw [startsFunction, Detection.detects_remaining, h]
  simp only [statementOver, bind_of_eq_ok hrun, Bool.false_eq_true, if_false,
    bind_of_eq_ok run_kind]
  exact bind_of_eq_ok he

/-! ## Headings -/

theorem asyncModifier_of_word (h : Detection.isAsyncWord c.current.terminal) :
    asyncModifier c = .ok true c.advance := by
  simp only [asyncModifier, bind_of_eq_ok run_current, h, if_true, bind_of_eq_ok run_advance]
  rfl

theorem asyncModifier_of_other (h : Detection.isAsyncWord c.current.terminal = false) :
    asyncModifier c = .ok false c := by
  simp only [asyncModifier, bind_of_eq_ok run_current, h, Bool.false_eq_true, if_false]
  rfl

theorem heading_of_signature {isAsync : Bool} {t l r b : Terminal} {es : List Expr}
    {names : List String} {us : List Terminal} (hmodifier : asyncModifier c = .ok isAsync c₁)
    (ht : t.kind = .identifier) (hl : l.kind = .openParen) (hes : Derives (.arguments es) us)
    (hnames : parameterNames es = .ok names) (hr : r.kind = .closeParen)
    (hb : b.kind = .openCurly) (hpasses : c₁.Passes (t :: l :: (us ++ [r, b])) c') :
    heading c = .ok ⟨isAsync, t.value, names⟩ c' := by
  have hsplit : l :: (us ++ [r, b]) = l :: (us ++ [r]) ++ [b] := by
    rw [List.cons_append, List.append_assoc, List.singleton_append]
  have hrest := hpasses.tail
  rw [hsplit] at hrest
  obtain ⟨c₂, harguments, hbrace⟩ := hrest.split
  have hvalue : c₁.current.value = t.value := congrArg Terminal.value hpasses.current_eq
  simp only [heading, bind_of_eq_ok hmodifier,
    bind_of_eq_ok (expect_of_kind _ (hpasses.kind_eq.trans ht)), bind_of_eq_ok run_current,
    bind_of_eq_ok (arguments_complete hl hes hr harguments), hnames,
    bind_of_eq_ok (expect_of_kind _ (hbrace.kind_eq.trans hb)), hvalue]
  rw [← hbrace.tail.eq_of_nil]
  rfl

theorem heading_complete {head : Heading} {ts : List Terminal} (h : Opens head ts)
    (hpasses : c.Passes ts c') : heading c = .ok head c' := by
  cases h with
  | plain hasync ht hl hes hnames hr hb =>
    rw [← hpasses.current_eq] at hasync
    exact heading_of_signature (asyncModifier_of_other hasync) ht hl hes hnames hr hb hpasses
  | async hasync ht hl hes hnames hr hb =>
    rw [← hpasses.current_eq] at hasync
    exact heading_of_signature (asyncModifier_of_word hasync) ht hl hes hnames hr hb hpasses.tail

end

/-- Headings are read in one way. -/
theorem heading_unique {head head' : Heading} {ts ts' us us' : List Terminal} (h : Opens head ts)
    (h' : Opens head' ts') (hsame : ts ++ us = ts' ++ us')
    (hopen : ∀ t ∈ us, t.kind ≠ .endOfInput) : ts = ts' ∧ us = us' := by
  obtain ⟨c, hc⟩ := Cursor.exists_terminals_eq (ts ++ us) fun t ht =>
    (List.mem_append.1 ht).elim (h.kind_ne_end t) (hopen t)
  obtain ⟨c₁, hpasses, rfl⟩ := Cursor.exists_passes hc
  obtain ⟨c₂, hpasses', rfl⟩ := Cursor.exists_passes (hc.trans hsame)
  have hrun := (heading_complete h hpasses).symm.trans (heading_complete h' hpasses')
  simp only [EStateM.Result.ok.injEq] at hrun
  obtain ⟨rfl, rfl⟩ := hrun
  exact ⟨hpasses.unique hpasses' rfl, rfl⟩

/-! ## Statements and bodies -/

/-- A part is read where it stands, with bounds that the count of tokens left does
not exceed.  A body is read up to a token that ends it. -/
def ReadsPart (mode : Detection) (rest : List Terminal) : Part → List Terminal → Prop
  | .statement s, ts => ∀ ⦃bound : Nat⦄ ⦃c c' : Cursor⦄, c.Passes ts c' → c'.terminals = rest →
      c.rest.length ≤ bound + 1 →
      statementOver mode bound (statementWithin mode bound) c = .ok s c'
  | .body ss, ts => ∀ ⦃ends : Kind → Bool⦄ ⦃limit bound : Nat⦄ ⦃c c' : Cursor⦄,
      c.Passes ts c' → c'.terminals = rest → (∀ kind ∈ statementKinds, ends kind = false) →
      ends c'.kind → c.rest.length ≤ limit → c.rest.length ≤ bound →
      statements ends (statementWithin mode limit) bound c = .ok ss c'

section

variable {c c' : Cursor} {ts : List Terminal} {w t q : Terminal} {e : Expr}

/-- Where a statement of the grammar stands, the lookahead tells whether it is a
declaration. -/
theorem recognises_of_reads {mode : Detection} {s : Stmt}
    (h : Reads mode (.statement s) ts c'.terminals)
    (hpasses : c.Passes ts c') :
    mode.recognises c.terminals = decide (s.form = .function) := by
  rw [hpasses.terminals_eq, h.recognises_eq]

theorem binding_complete (ht : t.kind = .identifier) (hq : q.kind = .assignment)
    (he : Stands e ts c'.terminals) (hpasses : c.Passes (w :: t :: q :: ts) c') :
    binding c = .ok (.binding t.value (w.kind = .constWord) (some e)) c' := by
  have hname := hpasses.tail.kind_eq.trans ht
  have hsign := hpasses.tail.tail.kind_eq.trans hq
  have hword : c.current.kind = w.kind := hpasses.kind_eq
  have hvalue : c.advance.current.value = t.value :=
    congrArg Terminal.value hpasses.tail.current_eq
  rw [binding_of_value hname hsign (expression_complete hpasses.tail.tail.tail he), hvalue, hword]

theorem bareBinding_complete (hw : w.kind = .letWord) (ht : t.kind = .identifier)
    (hrest : c'.terminals = []) (hpasses : c.Passes [w, t] c') :
    binding c = .ok (.binding t.value false none) c' := by
  have hlast := hpasses.tail.tail.eq_of_nil
  have hend : c.advance.advance.kind = .endOfInput := by
    rw [hlast, Cursor.kind_eq_headKind, hrest]
    rfl
  have hvalue : c.advance.current.value = t.value :=
    congrArg Terminal.value hpasses.tail.current_eq
  rw [binding_of_end (hpasses.kind_eq.trans hw) (hpasses.tail.kind_eq.trans ht) hend, hvalue, hlast]

/-- No expression starts with the word of a binding. -/
theorem kind_ne_of_derives (h : Derives (.expr .assignment e) ts) (hpasses : c.Passes ts c') :
    c.kind ≠ .letWord ∧ c.kind ≠ .constWord := by
  rw [Cursor.kind_eq_headKind, hpasses.terminals_eq, headKind_append _ h.ne_nil]
  rcases h.headKind_mem with hmem | ⟨hcurly, _⟩
  · constructor <;> intro hword <;> rw [hword] at hmem <;> exact absurd hmem (by decide)
  · rw [hcurly]
    decide

end

theorem endsBody_statementKinds : ∀ kind ∈ statementKinds, endsBody kind = false := by decide

theorem endsProgram_statementKinds : ∀ kind ∈ statementKinds, endsProgram kind = false := by
  decide

theorem readsPart_of_reads {mode : Detection} {part : Part} {ts rest : List Terminal}
    (h : Reads mode part ts rest) : ReadsPart mode rest part ts := by
  induction h with
  | @binding w t q e ts rest hw ht hq he =>
    rintro bound c c' hpasses rfl _
    have hreads : Reads mode _ (w :: t :: q :: ts) c'.terminals := .binding hw ht hq he
    have hmode := recognises_of_reads hreads hpasses
    rw [← hpasses.kind_eq] at hw
    rw [statementOver_of_binding hmode hw, binding_complete ht hq he hpasses]
  | @bareBinding w t hw ht =>
    intro bound c c' hpasses hrest _
    have hreads : Reads mode (.statement (.binding t.value false none)) [w, t] c'.terminals := by
      rw [hrest]
      exact .bareBinding hw ht
    have hmode := recognises_of_reads hreads hpasses
    rw [statementOver_of_binding hmode (.inl (hpasses.kind_eq.trans hw)),
      bareBinding_complete hw ht hrest hpasses]
  | @function close head ss hs bs rest hopens hbody hclose ih =>
    rintro bound c c' hpasses rfl hlen
    have hmode := recognises_of_reads (.function hopens hbody hclose) hpasses
    obtain ⟨c₁, hheading, hinner⟩ := hpasses.split
    obtain ⟨c₂, hstatements, hlast⟩ := hinner.split
    have hkind := hlast.kind_eq.trans hclose
    have hended : endsBody c₂.kind := by
      rw [hkind]
      rfl
    -- The heading takes up tokens, so the bound is enough for the body.
    have hlen₁ := hheading.length_eq
    have hpos : 0 < hs.length := List.length_pos_iff.2 hopens.ne_nil
    have hss : statements endsBody (statementWithin mode bound) bound c₁ = .ok ss c₂ :=
      ih hstatements hlast.terminals_eq endsBody_statementKinds hended (by omega) (by omega)
    rw [statementOver_of_function (hmode.trans rfl), ← hlast.tail.eq_of_nil]
    exact function_of_body (heading_complete hopens hheading) hss hkind
  | @expression e ts rest he hmode =>
    rintro bound c c' hpasses rfl _
    obtain ⟨hlet, hconst⟩ := kind_ne_of_derives he.derives hpasses
    rw [← hpasses.terminals_eq] at hmode
    exact statementOver_of_expression hmode hlet hconst (expression_complete hpasses he)
  | nil =>
    intro ends limit bound c c' hpasses _ _ hended _ _
    cases hpasses.eq_of_nil
    exact statements_of_ends hended
  | @cons s ss ts us rest hs hss ihs ihss =>
    intro ends limit bound c c' hpasses hrest hkinds hended hlen hbound
    obtain ⟨c₁, hfirst, hothers⟩ := hpasses.split
    have hlen₁ := hfirst.length_eq
    have hpos := List.length_pos_iff.2 hs.ne_nil
    obtain ⟨limit, rfl⟩ : ∃ fewer, limit = fewer + 1 := ⟨limit - 1, by omega⟩
    obtain ⟨bound, rfl⟩ : ∃ fewer, bound = fewer + 1 := ⟨bound - 1, by omega⟩
    have hstart : ends c.kind = false := by
      rw [Cursor.kind_eq_headKind, hfirst.terminals_eq, headKind_append _ hs.ne_nil]
      exact hkinds _ hs.headKind_mem
    have hmiddle : c₁.terminals = us ++ rest := by rw [hothers.terminals_eq, hrest]
    exact statements_of_statement hstart (ihs hfirst hmiddle hlen)
      (ihss hothers hrest hkinds hended (by omega) (by omega))

/-- A statement is read where it stands. -/
theorem statement_complete {mode : Detection} {c c' : Cursor} {s : Stmt} {ts : List Terminal}
    (h : Reads mode (.statement s) ts c'.terminals) (hpasses : c.Passes ts c') :
    statement mode c = .ok s c' :=
  readsPart_of_reads h hpasses rfl (Nat.le_succ _)

/-- A program is read when its terminals are all there is. -/
theorem program_complete {mode : Detection} {c : Cursor} {ss : List Stmt}
    (h : Reads mode (.body ss) c.terminals []) : ∃ c', program mode c = .ok ⟨ss⟩ c' := by
  obtain ⟨c', hpasses, hrest⟩ := Cursor.exists_passes (List.append_nil c.terminals).symm
  have hended : endsProgram c'.kind := by
    rw [Cursor.kind_eq_headKind, hrest]
    rfl
  have hss := readsPart_of_reads h hpasses hrest endsProgram_statementKinds hended
    (Nat.le_refl _) (Nat.le_refl _)
  have hrun : boundedOver mode (fun bound statement => statements endsProgram statement bound) c =
      .ok ss c' := hss
  refine ⟨c', ?_⟩
  simp only [program, bind_of_eq_ok hrun]
  rfl

end Parser

/-- A program is read from tokens just when the grammar allows it. -/
theorem Program.ofTokens_eq_ok_iff {mode : Detection} {tokens : List Token} {p : Program} :
    ofTokens mode tokens = .ok p ↔
      ∃ c, Cursor.ofTokens tokens = .ok c ∧ Reads mode (.body p.body) c.terminals [] := by
  rw [ofTokens]
  cases hcursor : Cursor.ofTokens tokens with
  | error d =>
    constructor
    · intro h
      cases h
    · rintro ⟨c, hc, _⟩
      cases hc
  | ok c =>
    have hbind : (Except.ok c >>= fun c => (Parser.program mode).outcome c) =
        (Parser.program mode).outcome c := rfl
    rw [hbind, Parser.outcome]
    constructor
    · intro h
      cases hrun : Parser.program mode c with
      | error d c' =>
        rw [hrun] at h
        cases h
      | ok q c' =>
        rw [hrun] at h
        cases h
        exact ⟨c, rfl, Parser.program_sound hrun⟩
    · rintro ⟨c', hc, hreads⟩
      cases hc
      obtain ⟨c', hrun⟩ := Parser.program_complete hreads
      rw [hrun]

end Scriptlet
