import Mathlib
import Scriptlet.Proofs.Program.Echo

/-!
# Programs read back

A program that was read from a source is written as a text, and the text is read.
In the anchored way this gives the same program again.  With the forward scan it
does so just when the statements of the text keep apart: an expression that the
printer puts in parentheses must not come right before a statement that starts
with a parenthesis, since the two read as a call (`Stmt.keepsApart`).

The induction follows the grammar of the source.  A part of the text is compared
with the part of the source that it was written for, with an `Echo` of the source
behind it, and it can be read in one way only (`Part.ReadsBack`).
-/

namespace Scriptlet

open Token (Kind)
open Scriptlet.Parser (Stands)

/-! ## Statements that keep apart -/

namespace Stmt

mutual

/-- Whether a statement is kept apart from the terminals that follow its text.
Only an expression in parentheses may run into them. -/
def keepsApart (mode : Detection) (following : List Terminal) : Stmt → Bool
  | .binding .. => true
  | .function _ _ _ body => bodyKeepsApart mode (terminalsOf "\x7d" ++ following) body
  | .expression expr =>
      !(mode.recognises (terminalsOf expr.written ++ following) &&
        headKind following = .openParen)

/-- Whether each of some statements is kept apart from what follows its text. -/
def bodyKeepsApart (mode : Detection) (following : List Terminal) : List Stmt → Bool
  | [] => true
  | s :: ss =>
      keepsApart mode (writtenBodyBefore mode following ss).2 s &&
        bodyKeepsApart mode following ss

end

end Stmt

/-- Whether no statement of a program, in whatever body, runs into the next one when
the program is written. -/
def Program.keepsApart (mode : Detection) (p : Program) : Bool :=
  Stmt.bodyKeepsApart mode [] p.body

namespace Stmt

variable {mode : Detection} {text : List Terminal}

theorem keepsApart_function (name : String) (parameters : List String) (isAsync : Bool)
    (body : List Stmt) : (Stmt.function name parameters isAsync body).keepsApart mode text =
      bodyKeepsApart mode (.mark .closeCurly :: text) body := by
  rw [keepsApart, terminalsOf_closeCurly]
  rfl

theorem keepsApart_expression {e : Expr} (h : e.Printable) :
    (Stmt.expression e).keepsApart mode text ↔
      (mode.recognises (e.terminals ++ text) → headKind text ≠ .openParen) := by
  rw [keepsApart, terminalsOf_written h]
  cases mode.recognises (e.terminals ++ text) <;> simp

theorem bodyKeepsApart_cons {s : Stmt} {ss : List Stmt} (h : ∀ s' ∈ ss, s'.Printable) :
    bodyKeepsApart mode text (s :: ss) =
      (s.keepsApart mode (terminalsOfBodyBefore mode text ss ++ text) &&
        bodyKeepsApart mode text ss) := by
  have hlater : (writtenBodyBefore mode text ss).2 =
      terminalsOfBodyBefore mode text ss ++ text :=
    (laid_bodyBefore fun s' hs' following => (h s' hs').laid following).2
  rw [bodyKeepsApart, hlater]

end Stmt

/-! ## Expressions in parentheses -/

namespace Parser.Stands

variable {e : Expr} {ts us rest text source : List Terminal}

/-- An expression that stood in a source stands where its terminals are written. -/
theorem written (h : Stands e us source) (hecho : Echo source text) (hp : e.Printable) :
    Stands e e.terminals text := by
  refine stands_of_following hp.derives_loose ?_ hecho.follows
  intro hparen
  exact hp.bare (h.bare_of_openParen (hecho.paren hparen)).endsBare

/-- An expression in parentheses stands wherever no parenthesis follows. -/
theorem grouped (h : Derives (.expr .assignment e) ts) (hfollows : headKind text ∈ followingKinds)
    (hparen : headKind text ≠ .openParen) : Stands e (enclosed true ts) text := by
  have hgroup : Derives (.expr .primary e) (enclosed true ts) := .group rfl h rfl
  exact stands_of_following (hgroup.loosen_to (Nat.not_lt_zero _)) (fun hhead => absurd hhead hparen)
    hfollows

/-- An expression in parentheses is not read by itself where a parenthesis
follows. -/
theorem headKind_ne_of_grouped (h : Stands e ts rest) (he : Derives (.expr .assignment e) us)
    (hsame : ts ++ rest = enclosed true us ++ text) (hopen : ∀ t ∈ rest, t.kind ≠ .endOfInput) :
    headKind text ≠ .openParen := by
  intro hparen
  have hhead : headKind ts = .openParen := by
    rw [← headKind_append rest h.derives.ne_nil, hsame]
    rfl
  obtain ⟨l, vs, r, ws, inner, rfl, hr, hinner, hcases⟩ := h.derives.leading_group hhead
  -- What the first parenthesis encloses is the expression, so nothing else is read.
  have hclosed : Stands inner vs (r :: (ws ++ rest)) := by
    refine .free hinner ?_
    rw [headKind_cons, hr]
    decide
  have hclosed' : Stands e us (.mark .closeParen :: text) := by
    refine .free he ?_
    rw [headKind_cons]
    decide
  have hall : vs ++ r :: (ws ++ rest) = us ++ .mark .closeParen :: text := by
    have htail : vs ++ r :: ws ++ rest = us ++ [.mark .closeParen] ++ text :=
      (List.cons.inj hsame).2
    rw [List.append_assoc, List.append_assoc] at htail
    exact htail
  have hinside : ∀ t ∈ r :: (ws ++ rest), t.kind ≠ .endOfInput := by
    have houter := h.derives.kind_ne_end
    simp_all [or_imp]
  obtain ⟨rfl, rfl, hrest⟩ := hclosed.unique hclosed' hall hinside
  rcases hcases with ⟨rfl, _⟩ | hless
  · obtain ⟨_, rfl⟩ := List.cons.inj hrest
    have hlast := (h.bare_of_openParen hparen).lastKind_eq
    rw [lastKind_cons_concat, hr] at hlast
    cases hlast
  · exact absurd hless (Nat.lt_irrefl _)

end Parser.Stands

/-! ## Written parts -/

/-- Where the terminals `written` come before `text`, a part can be read there just
when it is kept apart, and it is read up to `text`. -/
def Part.ReadUpTo (mode : Detection) (part : Part) (written text : List Terminal)
    (apart : Bool) : Prop :=
  ∀ ⦃ts rest : List Terminal⦄, ts ++ rest = written ++ text →
    (∀ t ∈ rest, t.kind ≠ .endOfInput) → (Reads mode part ts rest ↔ apart ∧ rest = text)

namespace Reads

variable {mode : Detection} {source us ts rest text : List Terminal} {name : String}
  {constant : Bool} {e : Expr}

/-! ### Bindings -/

theorem of_bindingTerminals (name : String) (constant : Bool) (h : Stands e ts rest) :
    Reads mode (.statement (.binding name constant (some e)))
      (.mark (if constant then .constWord else .letWord) :: ⟨.identifier, name⟩ ::
        .mark .assignment :: ts) rest := by
  have hname : (⟨.identifier, name⟩ : Terminal).kind = .identifier := rfl
  have hsign : (Terminal.mark .assignment).kind = .assignment := rfl
  cases constant with
  | false => exact .binding (w := .mark .letWord) (.inl rfl) hname hsign h
  | true => exact .binding (w := .mark .constWord) (.inr rfl) hname hsign h

theorem exists_stands (h : Reads mode (.statement (.binding name constant (some e))) ts rest) :
    ∃ w t q us, ts = w :: t :: q :: us ∧ Stands e us rest := by
  generalize hpart : Part.statement (.binding name constant (some e)) = part at h
  cases h with
  | binding _ _ _ he =>
    cases hpart
    exact ⟨_, _, _, _, rfl, he⟩
  | _ => cases hpart

theorem readUpTo_binding (he : Stands e e.terminals text) :
    Part.ReadUpTo mode (.statement (.binding name constant (some e)))
      (Stmt.bindingTerminals name constant (some e)) text true := by
  intro ts rest hsame hopen
  constructor
  · intro h
    obtain ⟨w, t, q, us, rfl, hstands⟩ := h.exists_stands
    have hinner : us ++ rest = e.terminals ++ text :=
      (List.cons.inj (List.cons.inj (List.cons.inj hsame).2).2).2
    exact ⟨rfl, (hstands.unique he hinner hopen).2.2⟩
  · rintro ⟨_, rfl⟩
    rw [List.append_cancel_right hsame]
    exact of_bindingTerminals name constant he

theorem readUpTo_bareBinding :
    Part.ReadUpTo mode (.statement (.binding name false none))
      (Stmt.bindingTerminals name false none) [] true := by
  intro ts rest hsame _
  constructor
  · exact fun h => ⟨rfl, h.eq_of_bareBinding.2⟩
  · rintro ⟨_, rfl⟩
    rw [List.append_cancel_right hsame]
    exact .bareBinding (w := .mark .letWord) (t := ⟨.identifier, name⟩) rfl rfl

/-! ### Bare expressions -/

/-- An expression that is put in parentheses is read unless a parenthesis
follows. -/
theorem readUpTo_grouped (hp : e.Printable) (hfollows : headKind text ∈ followingKinds) :
    Part.ReadUpTo mode (.statement (.expression e)) (enclosed true e.terminals) text
      (headKind text ≠ .openParen) := by
  intro ts rest hsame hopen
  rw [decide_eq_true_eq]
  constructor
  · intro h
    cases h with
    | expression hread =>
      have hparen := hread.headKind_ne_of_grouped hp.derives_loose hsame hopen
      have hstands := Stands.grouped hp.derives_loose hfollows hparen
      exact ⟨hparen, (hread.unique hstands hsame hopen).2.2⟩
  · rintro ⟨hparen, rfl⟩
    rw [List.append_cancel_right hsame]
    refine .expression (.grouped hp.derives_loose hfollows hparen) ?_
    rw [Bool.eq_false_iff]
    intro hmode
    cases Detection.headKind_of_recognises hmode

theorem readUpTo_expression (hp : e.Printable) (hecho : Echo source text)
    (he : Stands e us source) :
    Part.ReadUpTo mode (.statement (.expression e))
      ((Stmt.expression e).terminalsBefore mode text) text
      ((Stmt.expression e).keepsApart mode text) := by
  rw [Stmt.terminalsBefore, Stmt.keepsApart, Stmt.terminalsOf_written hp]
  cases hneeded : mode.recognises (e.terminals ++ text) with
  | true =>
    have happart : (!(true && decide (headKind text = .openParen))) =
        decide (headKind text ≠ .openParen) := by
      rw [Bool.true_and, decide_not]
    rw [happart]
    exact readUpTo_grouped hp hecho.follows
  | false =>
    have hstands := he.written hecho hp
    intro ts rest hsame hopen
    constructor
    · intro h
      cases h with
      | expression hread => exact ⟨rfl, (hread.unique hstands hsame hopen).2.2⟩
    · rintro ⟨_, rfl⟩
      rw [List.append_cancel_right hsame]
      exact .expression hstands hneeded

/-! ### Declarations and bodies -/

theorem readUpTo_function {head : Parser.Heading} {hs bs : List Terminal} {ss : List Stmt}
    {apart : Bool} (hopens : Opens head hs)
    (hbody : Part.ReadUpTo mode (.body ss) bs (.mark .closeCurly :: text) apart) :
    Part.ReadUpTo mode (.statement (.function head.name head.parameters head.isAsync ss))
      (Stmt.headingTerminals head.name head.parameters head.isAsync ++
        (bs ++ [.mark .closeCurly])) text apart := by
  intro ts rest hsame hopen
  rw [List.append_assoc] at hsame
  constructor
  · intro h
    obtain ⟨head', ss', hs', bs', close', heq, rfl, hopens', hbody', hclose'⟩ :=
      h.exists_heading rfl
    obtain ⟨_, _, _, rfl⟩ := Stmt.function.inj heq
    rw [List.append_assoc, List.append_assoc] at hsame
    have hinside : ∀ t ∈ bs' ++ ([close'] ++ rest), t.kind ≠ .endOfInput := by
      have hinner := hbody'.kind_ne_end
      simp_all [or_imp]
    obtain ⟨_, hsame'⟩ := Parser.heading_unique hopens' hopens.written hsame hinside
    rw [List.append_assoc] at hsame'
    have hbehind : ∀ t ∈ close' :: rest, t.kind ≠ .endOfInput := fun t ht =>
      hinside t (List.mem_append_right bs' ht)
    obtain ⟨hapart, hrest⟩ := (hbody hsame' hbehind).1 hbody'
    exact ⟨hapart, (List.cons.inj hrest).2⟩
  · rintro ⟨hapart, rfl⟩
    rw [← List.append_assoc] at hsame
    rw [List.append_cancel_right hsame]
    have hbehind : ∀ t ∈ Terminal.mark .closeCurly :: rest, t.kind ≠ .endOfInput := by
      simpa using hopen
    exact .function hopens.written ((hbody rfl hbehind).2 ⟨hapart, rfl⟩) rfl

theorem readUpTo_nil : Part.ReadUpTo mode (.body []) [] text true := by
  intro ts rest hsame _
  constructor
  · intro h
    cases h
    exact ⟨rfl, hsame⟩
  · rintro ⟨_, rfl⟩
    rw [List.append_cancel_right hsame]
    exact .nil

theorem readUpTo_cons {s : Stmt} {ss : List Stmt} {first later : List Terminal}
    {apart apart' : Bool} (hs : Part.ReadUpTo mode (.statement s) first (later ++ text) apart)
    (hss : Part.ReadUpTo mode (.body ss) later text apart') :
    Part.ReadUpTo mode (.body (s :: ss)) (first ++ later) text (apart && apart') := by
  intro ts rest hsame hopen
  rw [List.append_assoc] at hsame
  rw [Bool.and_eq_true]
  constructor
  · intro h
    cases h with
    | @cons _ _ ts' us' _ hread hreads =>
      rw [List.append_assoc] at hsame
      have hbehind : ∀ t ∈ us' ++ rest, t.kind ≠ .endOfInput := fun t ht =>
        (List.mem_append.1 ht).elim (hreads.kind_ne_end t) (hopen t)
      obtain ⟨hapart, hsame'⟩ := (hs hsame hbehind).1 hread
      obtain ⟨haparts, hrest⟩ := (hss hsame' hopen).1 hreads
      exact ⟨⟨hapart, haparts⟩, hrest⟩
  · rintro ⟨⟨hapart, haparts⟩, rfl⟩
    rw [← List.append_assoc] at hsame
    rw [List.append_cancel_right hsame]
    have hreads := (hss rfl hopen).2 ⟨haparts, rfl⟩
    have hbehind : ∀ t ∈ later ++ rest, t.kind ≠ .endOfInput := fun t ht =>
      (List.mem_append.1 ht).elim (hreads.kind_ne_end t) (hopen t)
    exact .cons ((hs rfl hbehind).2 ⟨hapart, rfl⟩) hreads

end Reads

/-! ## Parts of a source -/

/-- A part stood in a source with some terminals behind it.  Where others echo
these, it is read from what is written for it just when its statements keep
apart. -/
def Part.ReadsBack (mode : Detection) (source : List Terminal) : Part → Prop
  | .statement s => s.Printable → ∀ ⦃text : List Terminal⦄, Echo source text →
      Part.ReadUpTo mode (.statement s) (s.terminalsBefore mode text) text (s.keepsApart mode text)
  | .body ss => (∀ s ∈ ss, s.Printable) → ∀ ⦃text : List Terminal⦄, Echo source text →
      Part.ReadUpTo mode (.body ss) (Stmt.terminalsOfBodyBefore mode text ss) text
        (Stmt.bodyKeepsApart mode text ss)

theorem Reads.readsBack {mode : Detection} {part : Part} {us source : List Terminal}
    (h : Reads mode part us source) : part.ReadsBack mode source := by
  induction h with
  | @binding _ _ _ e _ _ _ _ _ he =>
    rintro (⟨_, hvalue⟩) text hecho
    exact Reads.readUpTo_binding (he.written hecho (hvalue e rfl))
  | bareBinding =>
    intro _ text hecho
    cases hecho.empty rfl
    exact Reads.readUpTo_bareBinding
  | function hopens _ hclose ih =>
    rintro (⟨⟩ | ⟨_, _, hp⟩) text hecho
    rw [Stmt.keepsApart_function]
    exact Reads.readUpTo_function hopens (ih hp (hecho.closing hclose))
  | expression he =>
    rintro (⟨⟩ | ⟨⟩ | ⟨hp⟩) text hecho
    exact Reads.readUpTo_expression hp hecho he
  | nil => exact fun _ _ _ => Reads.readUpTo_nil
  | cons _ hss ihs ihss =>
    intro hp text hecho
    have hothers := fun s' hs' => hp s' (.tail _ hs')
    rw [Stmt.bodyKeepsApart_cons hothers]
    exact Reads.readUpTo_cons (ihs (hp _ (.head _)) (hss.echo_body hothers hecho))
      (ihss hothers hecho)

/-! ## The anchored way -/

/-- A part stood in a source with some terminals behind it.  Where others echo
these, the statements of the part keep apart in the anchored way. -/
def Part.StaysApart (source : List Terminal) : Part → Prop
  | .statement s => s.Printable → ∀ ⦃text : List Terminal⦄, Echo source text →
      s.keepsApart .anchored text
  | .body ss => (∀ s ∈ ss, s.Printable) → ∀ ⦃text : List Terminal⦄, Echo source text →
      Stmt.bodyKeepsApart .anchored text ss

/-- Before a parenthesis there stood a bare object literal, and what ends in one
does not have the shape of a declaration. -/
theorem Reads.staysApart {part : Part} {us source : List Terminal}
    (h : Reads .anchored part us source) : part.StaysApart source := by
  induction h with
  | binding | bareBinding => exact fun _ _ _ => rfl
  | function _ _ hclose ih =>
    rintro (⟨⟩ | ⟨_, _, hp⟩) text hecho
    rw [Stmt.keepsApart_function]
    exact ih hp (hecho.closing hclose)
  | expression he =>
    rintro (⟨⟩ | ⟨⟩ | ⟨hp⟩) text hecho
    rw [Stmt.keepsApart_expression hp]
    intro hshape hparen
    have hbare := he.bare_of_openParen (hecho.paren hparen)
    rcases hp.derives.form_of_hasShape hshape with ⟨name, rfl⟩ | ⟨name, es, rfl⟩
    · cases hbare
    · cases hbare
  | nil => exact fun _ _ _ => rfl
  | cons _ hss ihs ihss =>
    intro hp text hecho
    have hothers := fun s' hs' => hp s' (.tail _ hs')
    rw [Stmt.bodyKeepsApart_cons hothers, Bool.and_eq_true]
    exact ⟨ihs (hp _ (.head _)) (hss.echo_body hothers hecho), ihss hothers hecho⟩

/-! ## Programs -/

namespace Program

variable {mode : Detection} {file source : String} {p : Program}

/-- The text of a program that was read is read as the same program just when its
statements keep apart. -/
theorem ofSource_written_iff (h : ofSource mode file source = .ok p) (hfinite : p.isFinite)
    (other : String) : ofSource mode other (p.written mode) = .ok p ↔ p.keepsApart mode := by
  obtain ⟨us, hreads, hlexical⟩ := reads_of_ofSource h
  have hp : ∀ s ∈ p.body, s.Printable := hreads.printable hlexical hfinite
  obtain ⟨tokens, mark, htext, hmark, hterminals⟩ := ofSource_written mode hp other
  obtain ⟨c, hremaining, _⟩ := exists_cursor_of_ofSource htext
  rw [← hremaining] at htext
  have hrest : c.rest = tokens := (List.append_inj' hremaining rfl).1
  have hsame : c.terminals ++ [] = Stmt.terminalsOfBodyBefore mode [] p.body ++ [] := by
    rw [← hterminals, ← hrest]
    rfl
  rw [ofSource_eq_ok_iff htext, hreads.readsBack hp .nil hsame (by simp)]
  exact and_iff_left rfl

/-- In the anchored way the text of a program that was read is read as the same
program. -/
theorem anchored_reads_back (h : ofSource .anchored file source = .ok p) (hfinite : p.isFinite)
    (other : String) : ofSource .anchored other (p.written .anchored) = .ok p := by
  obtain ⟨us, hreads, hlexical⟩ := reads_of_ofSource h
  rw [ofSource_written_iff h hfinite]
  exact hreads.staysApart (hreads.printable hlexical hfinite) .nil

/-- A call before an object literal in a body is read back. -/
theorem anchored_reads_back_call_before_object :
    ∃ p, ofSource .anchored "" "f(x) \x7b (g)(x) \x7b\x7d \x7d" = .ok p ∧ p.isFinite ∧
      p.written .anchored = "f(x) \x7b\n  (g(x))\n  \x7b\x7d\n\x7d\n" ∧
      ofSource .anchored "" (p.written .anchored) = .ok p := by
  have h : ofSource .anchored "" "f(x) \x7b (g)(x) \x7b\x7d \x7d" = .ok ⟨[.function "f" ["x"] false
      [.expression (.call (.identifier "g") [.identifier "x"]), .expression (.object [])]]⟩ := by
    cbv
  exact ⟨_, h, rfl, by decide +kernel, anchored_reads_back h rfl ""⟩

/-- With the forward scan the text of a program that was read is read as the same
program just when its statements keep apart. -/
theorem forwardScan_reads_back_iff (h : ofSource .forwardScan file source = .ok p)
    (hfinite : p.isFinite) (other : String) :
    ofSource .forwardScan other (p.written .forwardScan) = .ok p ↔ p.keepsApart .forwardScan :=
  ofSource_written_iff h hfinite other

/-- A name in parentheses before a declaration is read back. -/
theorem forwardScan_reads_back_name_before_declaration :
    ∃ p, ofSource .forwardScan "" "(a) f() \x7b\x7d" = .ok p ∧ p.isFinite ∧
      p.written .forwardScan = "(a)\nf() \x7b\x7d\n" ∧
      (ofSource .forwardScan "" (p.written .forwardScan) = .ok p ↔ p.keepsApart .forwardScan) ∧
      p.keepsApart .forwardScan := by
  have h : ofSource .forwardScan "" "(a) f() \x7b\x7d" =
      .ok ⟨[.expression (.identifier "a"), .function "f" [] false []]⟩ := by
    cbv
  exact ⟨_, h, rfl, by decide +kernel, forwardScan_reads_back_iff h rfl "", by decide +kernel⟩

/-- An assignment that ends in a bare object literal stands before a name in
parentheses.  The printer puts both in parentheses, and they are read as a
call. -/
theorem forwardScan_reads_call_of_assignment :
    ∃ p, ofSource .forwardScan "" "(a) = \x7b\x7d (b) g() \x7b\x7d" = .ok p ∧ p.isFinite ∧
      p.written .forwardScan = "(a = \x7b\x7d)\n(b)\ng() \x7b\x7d\n" ∧
      ofSource .forwardScan Position.unnamed (p.written .forwardScan) =
        .ok ⟨[.expression (.call (.assignment (.identifier "a") (.object [])) [.identifier "b"]),
          .function "g" [] false []]⟩ ∧
      ofSource .forwardScan Position.unnamed (p.written .forwardScan) ≠ .ok p := by
  have h : ofSource .forwardScan "" "(a) = \x7b\x7d (b) g() \x7b\x7d" =
      .ok ⟨[.expression (.assignment (.identifier "a") (.object [])),
        .expression (.identifier "b"), .function "g" [] false []]⟩ := by
    cbv
  have hread : ofSource .forwardScan Position.unnamed "(a = \x7b\x7d)\n(b)\ng() \x7b\x7d\n" =
      .ok ⟨[.expression (.call (.assignment (.identifier "a") (.object [])) [.identifier "b"]),
        .function "g" [] false []]⟩ := by
    cbv
  have hwritten : written .forwardScan ⟨[.expression (.assignment (.identifier "a") (.object [])),
      .expression (.identifier "b"), .function "g" [] false []]⟩ =
      "(a = \x7b\x7d)\n(b)\ng() \x7b\x7d\n" := by
    decide +kernel
  refine ⟨_, h, rfl, hwritten, by rw [hwritten, hread], ?_⟩
  rw [hwritten, hread]
  simp

end Program

end Scriptlet
