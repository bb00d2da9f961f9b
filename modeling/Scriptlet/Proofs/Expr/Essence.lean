import Scriptlet.Proofs.Program.Source

/-!
# What a token list says

Parentheses leave no trace in a tree, and neither does a comma behind the last
property of an object literal.  A number leaves the double that it denotes.  Of the
other tokens a tree keeps all, in the order of the source.  `essence` is what is
left of a token list when these differences are taken away.

An expression that was read from a source says what is written for it.  `Agrees` is
the relation that the parts of an expression keep.  What follows a part is left
open in it, since a comma counts or not by what comes next.
-/

namespace Scriptlet

open Token (Kind)

/-! ## The essence of a token list -/

/-- What a token says to a reader of trees. -/
inductive Reading where
  /-- A number, by the double that its text denotes. -/
  | number (value : Option Double)
  /-- Any other token, by its kind and its value. -/
  | other (t : Terminal)

/-- What a terminal says to a reader of trees. -/
def Terminal.reading (t : Terminal) : Reading :=
  if t.kind = .number then .number (Numeral.read? t.value.toList) else .other t

/-- Whether a terminal leaves no trace where others follow: a parenthesis, or a comma
right before a `}`. -/
def Terminal.isTraceless (t : Terminal) (following : List Terminal) : Bool :=
  t.kind = .openParen || t.kind = .closeParen ||
    (t.kind = .comma && headKind following = .closeCurly)

/-- Some terminals without those that leave no trace. -/
def essential : List Terminal → List Terminal
  | [] => []
  | t :: ts => if t.isTraceless ts then essential ts else t :: essential ts

/-- What some terminals say to a reader of trees. -/
def essence (ts : List Terminal) : List Reading := (essential ts).map Terminal.reading

theorem essence_cons (t : Terminal) (ts : List Terminal) :
    essence (t :: ts) = if t.isTraceless ts then essence ts else t.reading :: essence ts := by
  rw [essence, essential]
  split <;> rfl

/-- A parenthesis leaves no trace. -/
theorem essence_cons_paren {t : Terminal} (h : t.kind = .openParen ∨ t.kind = .closeParen)
    (ts : List Terminal) : essence (t :: ts) = essence ts := by
  rw [essence_cons, if_pos]
  rcases h with h | h <;> simp [Terminal.isTraceless, h]

/-- A comma right before a brace leaves no trace. -/
theorem essence_cons_trailing {t : Terminal} {ts : List Terminal} (ht : t.kind = .comma)
    (hts : headKind ts = .closeCurly) : essence (t :: ts) = essence ts := by
  rw [essence_cons, if_pos]
  simp [Terminal.isTraceless, ht, hts]

/-- All else says something. -/
theorem essence_cons_of_kept {t : Terminal} {ts : List Terminal}
    (hparen : t.kind ≠ .openParen ∧ t.kind ≠ .closeParen)
    (hcomma : t.kind = .comma → headKind ts ≠ .closeCurly) :
    essence (t :: ts) = t.reading :: essence ts := by
  rw [essence_cons, if_neg]
  simpa [Terminal.isTraceless, hparen] using hcomma

/-- What starts as a statement does so whatever follows it. -/
theorem headKind_append_mem {us : List Terminal} (h : headKind us ∈ statementKinds)
    (rest : List Terminal) : headKind (us ++ rest) ∈ statementKinds := by
  cases us with
  | nil => exact absurd h (by decide)
  | cons u us => exact h

/-! ## Agreement -/

/-- Some terminals say what others say, wherever the same is said behind them. -/
def Agrees (us ts : List Terminal) : Prop :=
  ∀ ⦃rest rest' : List Terminal⦄, essence rest = essence rest' →
    essence (us ++ rest) = essence (ts ++ rest')

namespace Agrees

variable {us ts xs ys : List Terminal} {t l r : Terminal}

theorem nil : Agrees [] [] := fun _ _ hrest => hrest

theorem append (h : Agrees us ts) (h' : Agrees xs ys) : Agrees (us ++ xs) (ts ++ ys) := by
  intro rest rest' hrest
  rw [List.append_assoc, List.append_assoc]
  exact h (h' hrest)

/-- What says something in any place may come first in both. -/
theorem cons_of_reading {t' : Terminal} (hsame : t.reading = t'.reading)
    (ht : t.kind ∉ [Kind.openParen, .closeParen, .comma])
    (ht' : t'.kind ∉ [Kind.openParen, .closeParen, .comma]) (h : Agrees us ts) :
    Agrees (t :: us) (t' :: ts) := by
  simp only [List.mem_cons, List.not_mem_nil, or_false, not_or] at ht ht'
  intro rest rest' hrest
  rw [List.cons_append, List.cons_append,
    essence_cons_of_kept ⟨ht.1, ht.2.1⟩ fun hcomma => absurd hcomma ht.2.2,
    essence_cons_of_kept ⟨ht'.1, ht'.2.1⟩ fun hcomma => absurd hcomma ht'.2.2, hsame, h hrest]

theorem cons {kind : Kind} (ht : t.kind = kind)
    (hkind : kind ∉ [Kind.openParen, .closeParen, .comma]) (h : Agrees us ts) :
    Agrees (t :: us) (⟨kind, t.value⟩ :: ts) := by
  subst ht
  exact cons_of_reading rfl hkind hkind h

/-- A pair of parentheses may be missing from what is written. -/
theorem grouped (hl : l.kind = .openParen) (hr : r.kind = .closeParen) (h : Agrees us ts) :
    Agrees (l :: (us ++ [r])) ts := by
  intro rest rest' hrest
  rw [List.cons_append, List.append_assoc, essence_cons_paren (.inl hl)]
  refine h ?_
  rw [List.singleton_append, essence_cons_paren (.inr hr), hrest]

/-- A pair of parentheses may be added to what is written. -/
theorem enclosed (needed : Bool) (h : Agrees us ts) : Agrees us (enclosed needed ts) := by
  cases needed with
  | false => exact h
  | true =>
    intro rest rest' hrest
    rw [Scriptlet.enclosed, if_pos rfl, List.cons_append, List.append_assoc,
      essence_cons_paren (.inl rfl)]
    refine h ?_
    rw [List.singleton_append, essence_cons_paren (.inr rfl), hrest]

/-- What stands in parentheses in both. -/
theorem parenthesised (hl : l.kind = .openParen) (hr : r.kind = .closeParen) (h : Agrees us ts) :
    Agrees (l :: (us ++ [r])) (.mark .openParen :: (ts ++ [.mark .closeParen])) :=
  (h.enclosed true).grouped hl hr

/-- A comma between two members of a list. -/
theorem cons_comma (ht : t.kind = .comma) (hus : headKind us ∈ statementKinds)
    (hts : headKind ts ∈ statementKinds) (h : Agrees us ts) : Agrees (t :: us) (t :: ts) := by
  have hparen : t.kind ≠ .openParen ∧ t.kind ≠ .closeParen := by
    rw [ht]
    decide
  have hbrace {us : List Terminal} (hus : headKind us ∈ statementKinds) (rest : List Terminal) :
      headKind (us ++ rest) ≠ .closeCurly := by
    have hmem := headKind_append_mem hus rest
    intro hcurly
    rw [hcurly] at hmem
    exact absurd hmem (by decide)
  intro rest rest' hrest
  rw [List.cons_append, List.cons_append, essence_cons_of_kept hparen fun _ => hbrace hus rest,
    essence_cons_of_kept hparen fun _ => hbrace hts rest', h hrest]

/-- A comma behind the last property may be missing from what is written. -/
theorem trailing_comma (ht : t.kind = .comma) :
    Agrees [t, .mark .closeCurly] [.mark .closeCurly] := by
  intro rest rest' hrest
  rw [List.cons_append, essence_cons_trailing ht rfl]
  exact cons rfl (by decide) nil hrest

end Agrees

/-! ## Phrases -/

namespace Derives

variable {us : List Terminal}

theorem headKind_arguments {e : Expr} {es : List Expr} (h : Derives (.arguments (e :: es)) us) :
    headKind us ∈ statementKinds := by
  cases h with
  | lastArgument he => exact he.headKind_mem_statementKinds
  | moreArguments he => exact headKind_append_mem he.headKind_mem_statementKinds _

theorem headKind_property {p : Property} (h : Derives (.property p) us) :
    headKind us ∈ statementKinds := by
  cases h with
  | shorthand ht | entry ht =>
    rw [headKind_cons, ht]
    decide

theorem headKind_properties {p : Property} {ps : List Property}
    (h : Derives (.properties (p :: ps)) us) : headKind us ∈ statementKinds := by
  cases h with
  | lastProperty hp => exact hp.headKind_property
  | moreProperties hp => exact headKind_append_mem hp.headKind_property _

end Derives

/-- What is written for a phrase says what its terminals in a source say.  The inside
of an object literal does so before the brace. -/
def Phrase.Agrees (us : List Terminal) : Phrase → Prop
  | .expr _ e => e.Printable → Scriptlet.Agrees us e.terminals
  | .arguments es => (∀ e ∈ es, e.Printable) →
      Scriptlet.Agrees us (separated (Expr.terminalsOfList es))
  | .property p => (∀ key value, .entry key value = p → value.Printable) →
      Scriptlet.Agrees us (Expr.terminalsOfProperty p)
  | .properties ps => (∀ key value, .entry key value ∈ ps → value.Printable) →
      Scriptlet.Agrees (us ++ [.mark .closeCurly])
        (separated (Expr.terminalsOfProperties ps) ++ [.mark .closeCurly])

theorem Derives.agrees {phrase : Phrase} {us : List Terminal} (h : Derives phrase us)
    (hlexical : ∀ t ∈ us, t.Lexical) : phrase.Agrees us := by
  induction h with
  | @name t ht =>
    intro _
    rw [Expr.terminals]
    exact .cons ht (by decide) .nil
  | @number t d ht hd =>
    intro hp
    cases hp with
    | number rank =>
      rw [Expr.terminals]
      refine .cons_of_reading ?_ (by rw [ht]; decide) (by simp) .nil
      rw [Terminal.reading, Terminal.reading, if_pos ht, if_pos rfl, hd, String.toList_ofList,
        Double.read?_written]
  | @string t ht =>
    intro _
    rw [Expr.terminals]
    exact .cons ht (by decide) .nil
  | group hl _ hr ih =>
    obtain ⟨_, hinner⟩ := List.forall_mem_cons.1 hlexical
    exact fun hp => (ih (List.forall_mem_append.1 hinner).1 hp).grouped hl hr
  | loosen _ _ ih => exact ih hlexical
  | dot _ hd _ iho ihn =>
    intro hp
    cases hp with
    | dot ho hn =>
      obtain ⟨howner, hrest⟩ := List.forall_mem_append.1 hlexical
      obtain ⟨hmark, hname⟩ := List.forall_mem_cons.1 hrest
      rw [hmark.eq_mark hd rfl, Expr.terminals]
      exact ((iho howner ho).enclosed _).append (.cons rfl (by decide) (ihn hname (.identifier hn)))
  | index _ hl _ hr iho ihp =>
    intro hp
    cases hp with
    | index ho hp =>
      obtain ⟨howner, hrest⟩ := List.forall_mem_append.1 hlexical
      obtain ⟨hopen, hrest⟩ := List.forall_mem_cons.1 hrest
      obtain ⟨hproperty, hclose⟩ := List.forall_mem_append.1 hrest
      rw [hopen.eq_mark hl rfl, (hclose _ (.head _)).eq_mark hr rfl, Expr.terminals]
      exact ((iho howner ho).enclosed _).append
        (.cons rfl (by decide) ((ihp hproperty hp).append (.cons rfl (by decide) .nil)))
  | apply _ hl _ hr ihf ihes =>
    intro hp
    cases hp with
    | call hf hes =>
      obtain ⟨hcallee, hrest⟩ := List.forall_mem_append.1 hlexical
      obtain ⟨harguments, _⟩ := List.forall_mem_append.1 (List.forall_mem_cons.1 hrest).2
      rw [Expr.terminals]
      exact ((ihf hcallee hf).enclosed _).append ((ihes harguments hes).parenthesised hl hr)
  | @binary _ op _ _ _ _ _ _ _ ht _ ihl ihr =>
    have hop : op.kind.lexeme?.isSome ∧ op.kind ∉ [Kind.openParen, .closeParen, .comma] := by
      cases op <;> decide
    intro hp
    cases hp with
    | binary hl hr =>
      obtain ⟨hleft, hrest⟩ := List.forall_mem_append.1 hlexical
      obtain ⟨hmark, hright⟩ := List.forall_mem_cons.1 hrest
      rw [hmark.eq_mark ht hop.1, Expr.terminals]
      exact ((ihl hleft hl).enclosed _).append (.cons rfl hop.2 ((ihr hright hr).enclosed _))
  | object hl _ hr ih =>
    intro hp
    cases hp with
    | object _ hvalues =>
      obtain ⟨hopen, hrest⟩ := List.forall_mem_cons.1 hlexical
      obtain ⟨hproperties, hclose⟩ := List.forall_mem_append.1 hrest
      rw [hopen.eq_mark hl rfl, (hclose _ (.head _)).eq_mark hr rfl, Expr.terminals]
      exact .cons rfl (by decide) (ih hproperties hvalues)
  | assign _ ht _ iht ihv =>
    intro hp
    cases hp with
    | assignment hp hv =>
      obtain ⟨htarget, hrest⟩ := List.forall_mem_append.1 hlexical
      obtain ⟨hmark, hvalue⟩ := List.forall_mem_cons.1 hrest
      rw [hmark.eq_mark ht rfl, Expr.terminals]
      exact ((iht htarget hp).enclosed _).append (.cons rfl (by decide) (ihv hvalue hv))
  | noArguments => exact fun _ => .nil
  | lastArgument _ ih => exact fun hes => ih hlexical (hes _ (.head _))
  | @moreArguments t e e' es _ _ _ ht hes ihe ihes =>
    intro hp
    obtain ⟨hargument, hrest⟩ := List.forall_mem_append.1 hlexical
    obtain ⟨hmark, harguments⟩ := List.forall_mem_cons.1 hrest
    have hothers := fun e he => hp e (.tail _ he)
    have hwritten := Derives.arguments fun e he => (hothers e he).derives_loose
    rw [hmark.eq_mark ht rfl]
    exact (ihe hargument (hp _ (.head _))).append
      (.cons_comma rfl hes.headKind_arguments hwritten.headKind_arguments (ihes harguments hothers))
  | @shorthand t ht =>
    intro _
    rw [Expr.terminalsOfProperty]
    exact .cons ht (by decide) .nil
  | @entry t _ value _ ht hcolon _ ih =>
    intro hp
    obtain ⟨_, hrest⟩ := List.forall_mem_cons.1 hlexical
    obtain ⟨hmark, hvalue⟩ := List.forall_mem_cons.1 hrest
    rw [Expr.terminalsOfProperty, hmark.eq_mark hcolon rfl]
    exact .cons ht (by decide) (.cons rfl (by decide) (ih hvalue (hp _ value rfl)))
  | noProperties => exact fun _ => .cons rfl (by decide) .nil
  | lastProperty _ ih =>
    intro hp
    refine (ih hlexical fun key value hentry => hp key value ?_).append (.cons rfl (by decide) .nil)
    rw [hentry]
    exact .head _
  | @moreProperties t p ps _ _ _ ht hps ihp ihps =>
    intro hp
    obtain ⟨hproperty, hrest⟩ := List.forall_mem_append.1 hlexical
    obtain ⟨hmark, hproperties⟩ := List.forall_mem_cons.1 hrest
    have hfirst := ihp hproperty fun key value hentry => hp key value (hentry ▸ .head ps)
    have hothers := fun key value hentry => hp key value (.tail p hentry)
    rw [List.append_assoc, List.cons_append]
    cases ps with
    | nil =>
      cases hps
      exact hfirst.append (.trailing_comma ht)
    | cons p' ps =>
      have hwritten := Derives.properties fun key value hentry =>
        (hothers key value hentry).derives_loose
      rw [hmark.eq_mark ht rfl, Expr.terminalsOfProperties, Expr.terminalsOfProperties, separated,
        List.append_assoc, List.cons_append]
      exact hfirst.append (.cons_comma rfl (headKind_append_mem hps.headKind_properties _)
        (headKind_append_mem hwritten.headKind_properties _) (ihps hproperties hothers))

end Scriptlet
