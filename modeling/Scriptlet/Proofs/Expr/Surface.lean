import Scriptlet.Proofs.Expr.Terminals
import Scriptlet.Proofs.Program.Lookahead

/-!
# What a source and its rewriting have in common

An expression that was read may have stood in its source with more parentheses
than are written for it, and never with fewer.  This module says how far the
terminals of the source can be told from those that are written: they start
alike, or the source starts with a parenthesis (`Resembles`).

It also says what the start of an expression betrays about it.  An expression
with the shape of a declaration is a call of a name (`Derives.of_opensDeclaration`),
and one that starts with a parenthesis is the expression inside, or is larger
(`Derives.leading_group`).
-/

namespace Scriptlet

open Token (Kind)

/-- A parenthesis is opened somewhere. -/
def HasParen (ts : List Terminal) : Prop := ∃ t ∈ ts, t.kind = .openParen

@[simp] theorem hasParen_nil : ¬ HasParen [] := by simp [HasParen]

@[simp] theorem hasParen_cons (t : Terminal) (ts : List Terminal) :
    HasParen (t :: ts) ↔ t.kind = .openParen ∨ HasParen ts := by
  simp [HasParen]

@[simp] theorem hasParen_append (ts us : List Terminal) :
    HasParen (ts ++ us) ↔ HasParen ts ∨ HasParen us := by
  simp [HasParen, or_and_right, exists_or]

theorem hasParen_of_headKind {ts : List Terminal} (h : headKind ts = .openParen) : HasParen ts := by
  cases ts with
  | nil => cases h
  | cons t ts => exact (hasParen_cons t ts).2 (.inl h)

theorem enclosed_ne_nil {ts : List Terminal} (needed : Bool) (h : ts ≠ []) :
    enclosed needed ts ≠ [] := by
  cases needed with
  | false => exact h
  | true => exact List.cons_ne_nil _ _

theorem Expr.terminals_ne_nil (e : Expr) : e.terminals ≠ [] := by
  cases e with
  | member owner property computed =>
    rw [terminals]
    cases computed <;> exact List.append_ne_nil_of_right_ne_nil _ (List.cons_ne_nil _ _)
  | _ => simp [terminals]

/-! ## Sources and what is written -/

/-- The terminals `us` of a source resemble the terminals `ts` that are written for
the same expression. -/
structure Resembles (us ts : List Terminal) : Prop where
  /-- They start alike, or the source starts with a parenthesis. -/
  head : headKind us = .openParen ∨
    headKind us = headKind ts ∧ (headKind ts = .identifier → us.head? = ts.head?)
  /-- If a parenthesis is closed last, so it is in the source. -/
  last : lastKind ts = .closeParen → lastKind us = .closeParen
  /-- If a parenthesis is opened, so it is in the source. -/
  paren : HasParen ts → HasParen us

theorem lastKind_append {ts us : List Terminal} (h : us ≠ []) : lastKind (ts ++ us) = lastKind us := by
  cases us with
  | nil => exact absurd rfl h
  | cons u us => exact lastKind_append_cons ts u us

theorem lastKind_cons {t : Terminal} {ts : List Terminal} (h : ts ≠ []) :
    lastKind (t :: ts) = lastKind ts := by
  cases ts with
  | nil => exact absurd rfl h
  | cons u us => rfl

theorem Resembles.append {us ts xs ys : List Terminal} (h : Resembles us ts) (hus : us ≠ [])
    (hts : ts ≠ []) (hxs : xs ≠ []) (hys : ys ≠ [])
    (hlast : lastKind ys = .closeParen → lastKind xs = .closeParen)
    (hparen : HasParen ys → HasParen xs) : Resembles (us ++ xs) (ts ++ ys) := by
  obtain ⟨u, us, rfl⟩ := List.exists_cons_of_ne_nil hus
  obtain ⟨t, ts, rfl⟩ := List.exists_cons_of_ne_nil hts
  refine ⟨h.head, ?_, ?_⟩
  · rw [lastKind_append hxs, lastKind_append hys]
    exact hlast
  · rw [hasParen_append, hasParen_append]
    exact Or.imp h.paren hparen

namespace Derives

variable {level : Level} {e : Expr} {ts us : List Terminal}

/-- An expression stands where its level allows it, or in parentheses. -/
theorem fits_or_grouped (h : Derives (.expr level e) ts) :
    ¬ e.level < level ∨ headKind ts = .openParen ∧ lastKind ts = .closeParen := by
  generalize hphrase : Phrase.expr level e = phrase at h
  induction h generalizing level e with
  | @loosen outer inner _ hlevel _ ih =>
    cases hphrase
    rcases ih rfl with hfits | hgrouped
    · have htighter : outer.tighter.rung = outer.rung + 1 := Level.rung_tighter hlevel
      exact .inl fun hlt => hfits (show inner.level.rung < outer.tighter.rung from
        htighter ▸ Nat.lt_succ_of_lt hlt)
    · exact .inr hgrouped
  | @group l r _ _ hl _ hr =>
    refine .inr ⟨hl, ?_⟩
    rw [lastKind_cons_concat, hr]
  | name | number | string | dot | index | apply | object | assign =>
    cases hphrase
    exact .inl (Nat.lt_irrefl _)
  | binary hlevel =>
    cases hphrase
    refine .inl ?_
    rw [Expr.level, hlevel]
    exact Nat.lt_irrefl _
  | noArguments | lastArgument | moreArguments | shorthand | entry | noProperties
    | lastProperty | moreProperties => cases hphrase

/-- What is written in parentheses stood in parentheses. -/
theorem resembles_enclosed (h : Derives (.expr level e) us) (hsame : Resembles us e.terminals) :
    Resembles us (Scriptlet.enclosed (e.level < level) e.terminals) := by
  by_cases hlevel : e.level < level
  · obtain ⟨hhead, hlast⟩ := h.fits_or_grouped.resolve_left (not_not_intro hlevel)
    exact ⟨.inl hhead, fun _ => hlast, fun _ => hasParen_of_headKind hhead⟩
  · simp only [Scriptlet.enclosed, hlevel, decide_false, Bool.false_eq_true, if_false]
    exact hsame

end Derives

/-- What a phrase of a source has in common with what is written for it. -/
def Phrase.Resembles : Phrase → List Terminal → Prop
  | .expr _ e, us => Scriptlet.Resembles us e.terminals
  | .arguments es, us => HasParen (separated (Expr.terminalsOfList es)) → HasParen us
  | .property p, us => HasParen (Expr.terminalsOfProperty p) → HasParen us
  | .properties ps, us => HasParen (separated (Expr.terminalsOfProperties ps)) → HasParen us

theorem Derives.phrase_resembles {phrase : Phrase} {us : List Terminal} (h : Derives phrase us) :
    phrase.Resembles us := by
  have hkind (op : BinaryOp) : op.kind ≠ .openParen := by cases op <;> decide
  induction h with
  | @name t ht =>
    have hsame : t = ⟨.identifier, t.value⟩ := by rw [← ht]
    exact ⟨.inr ⟨ht, fun _ => congrArg some hsame⟩, by simp [Expr.terminals, lastKind],
      by simp [Expr.terminals]⟩
  | number ht | string ht =>
    exact ⟨.inr ⟨ht, by simp [Expr.terminals]⟩, by simp [Expr.terminals, lastKind],
      by simp [Expr.terminals]⟩
  | group hl _ hr => exact ⟨.inl hl, fun _ => by rw [lastKind_cons_concat, hr], fun _ => by simp [hl]⟩
  | loosen _ _ ih => exact ih
  | dot ho _ _ iho =>
    rw [Phrase.Resembles, Expr.terminals]
    refine (ho.resembles_enclosed iho).append ho.ne_nil
      (enclosed_ne_nil _ (Expr.terminals_ne_nil _)) (List.cons_ne_nil _ _) (List.cons_ne_nil _ _)
      (by simp [Expr.terminals, lastKind]) ?_
    simp [Expr.terminals]
  | index ho _ _ hr iho ihp =>
    rw [Phrase.Resembles, Expr.terminals]
    refine (ho.resembles_enclosed iho).append ho.ne_nil
      (enclosed_ne_nil _ (Expr.terminals_ne_nil _)) (List.cons_ne_nil _ _) (List.cons_ne_nil _ _)
      ?_ ?_
    · simp
    · simp only [if_true, hasParen_cons, hasParen_append, Terminal.mark_kind, reduceCtorEq, false_or,
        hasParen_nil, or_false]
      exact fun hparen => .inr (.inl (ihp.paren hparen))
  | apply hf hl _ hr ihf =>
    rw [Phrase.Resembles, Expr.terminals]
    refine (hf.resembles_enclosed ihf).append hf.ne_nil
      (enclosed_ne_nil _ (Expr.terminals_ne_nil _)) (List.cons_ne_nil _ _) (List.cons_ne_nil _ _)
      ?_ ?_
    · exact fun _ => by rw [lastKind_cons_concat, hr]
    · exact fun _ => (hasParen_cons _ _).2 (.inl hl)
  | @binary _ op _ _ _ _ _ hlevel hl _ hright ihl ihr =>
    have hleft := hl.resembles_enclosed ihl
    have hothers := hright.resembles_enclosed ihr
    rw [← hlevel] at hleft hothers
    rw [Phrase.Resembles, Expr.terminals]
    refine hleft.append hl.ne_nil (enclosed_ne_nil _ (Expr.terminals_ne_nil _))
      (List.cons_ne_nil _ _) (List.cons_ne_nil _ _) ?_ ?_
    · rw [lastKind_cons (enclosed_ne_nil _ (Expr.terminals_ne_nil _)), lastKind_cons hright.ne_nil]
      exact hothers.last
    · simp only [hasParen_cons, Terminal.mark_kind, hkind op, false_or]
      exact fun hparen => .inr (hothers.paren hparen)
  | object hl _ hr ih =>
    rw [Phrase.Resembles, Expr.terminals]
    refine ⟨.inr ⟨hl, by simp⟩, ?_, ?_⟩
    · simp
    · simp only [hasParen_cons, hasParen_append, Terminal.mark_kind, reduceCtorEq, false_or,
        hasParen_nil, or_false]
      exact fun hparen => .inr (.inl (ih hparen))
  | assign htarget _ hvalue iht ihv =>
    rw [Phrase.Resembles, Expr.terminals]
    refine (htarget.resembles_enclosed iht).append htarget.ne_nil
      (enclosed_ne_nil _ (Expr.terminals_ne_nil _)) (List.cons_ne_nil _ _) (List.cons_ne_nil _ _)
      ?_ ?_
    · rw [lastKind_cons (Expr.terminals_ne_nil _), lastKind_cons hvalue.ne_nil]
      exact ihv.last
    · simp only [hasParen_cons, Terminal.mark_kind, reduceCtorEq, false_or]
      exact fun hparen => .inr (ihv.paren hparen)
  | noArguments => exact id
  | lastArgument _ ih => exact ih.paren
  | moreArguments _ _ _ ihe ihes =>
    simp only [Phrase.Resembles, Expr.terminalsOfList, separated, hasParen_append, hasParen_cons,
      Terminal.mark_kind, reduceCtorEq, false_or]
    exact Or.imp ihe.paren fun hparen => .inr (ihes hparen)
  | shorthand => simp [Phrase.Resembles, Expr.terminalsOfProperty]
  | entry _ _ _ ih =>
    simp only [Phrase.Resembles, Expr.terminalsOfProperty, hasParen_cons, Terminal.mark_kind,
      reduceCtorEq, false_or]
    exact fun hparen => .inr (.inr (ih.paren hparen))
  | noProperties => exact id
  | lastProperty _ ih => exact ih
  | @moreProperties _ _ ps _ _ _ _ _ ihp ihps =>
    cases ps with
    | nil => exact fun hparen => (hasParen_append _ _).2 (.inl (ihp hparen))
    | cons p' ps =>
      simp only [Phrase.Resembles, Expr.terminalsOfProperties, separated, hasParen_append,
        hasParen_cons, Terminal.mark_kind, reduceCtorEq, false_or]
      exact Or.imp ihp fun hparen => .inr (ihps hparen)

namespace Derives

variable {level : Level} {e : Expr} {ts us rest : List Terminal}

/-- The terminals of a source resemble those that are written. -/
theorem resembles (h : Derives (.expr level e) us) : Resembles us e.terminals :=
  h.phrase_resembles

/-! ## The start of an expression -/

/-- A name stands alone, or a parenthesis comes first. -/
theorem identifier_cases {name : String} (h : Derives (.expr level (.identifier name)) ts) :
    headKind ts = .openParen ∨ ts = [⟨.identifier, name⟩] := by
  generalize hphrase : Phrase.expr level (.identifier name) = phrase at h
  induction h generalizing level with
  | @name t ht =>
    cases hphrase
    right
    rw [← ht]
  | group hl => exact .inl hl
  | loosen _ _ ih =>
    cases hphrase
    exact ih rfl
  | _ => cases hphrase

/-- A call is a callee and arguments, or a parenthesis comes first. -/
theorem call_cases {callee : Expr} {es : List Expr}
    (h : Derives (.expr level (.call callee es)) ts) :
    headKind ts = .openParen ∨ ∃ fs l as r, ts = fs ++ l :: (as ++ [r]) ∧ l.kind = .openParen ∧
      r.kind = .closeParen ∧ Derives (.expr .call callee) fs ∧ Derives (.arguments es) as := by
  generalize hphrase : Phrase.expr level (.call callee es) = phrase at h
  induction h generalizing level with
  | group hl => exact .inl hl
  | loosen _ _ ih =>
    cases hphrase
    exact ih rfl
  | apply hf hl hes hr =>
    cases hphrase
    exact .inr ⟨_, _, _, _, rfl, hl, hr, hf, hes⟩
  | _ => cases hphrase

/-- Behind a name that comes first the expression ends, or something goes on
it. -/
theorem after_name {t : Terminal} (h : Derives (.expr level e) (t :: ts))
    (ht : t.kind = .identifier) :
    ts = [] ∧ e = .identifier t.value ∨ headKind ts ∈ Level.continuedBy .assignment := by
  have hkind (op : BinaryOp) : op.kind ∈ Level.continuedBy .assignment := by cases op <;> decide
  -- An expression that goes on another one starts as that one does.
  have hextend {p : Prop} {ts os us : List Terminal} {d : Terminal} (hos : os ≠ [])
      (hall : t :: ts = os ++ d :: us) (hd : d.kind ∈ Level.continuedBy .assignment)
      (ih : ∀ {ts}, t :: ts = os → ts = [] ∧ p ∨ headKind ts ∈ Level.continuedBy .assignment) :
      headKind ts ∈ Level.continuedBy .assignment := by
    obtain ⟨o, os, rfl⟩ := List.exists_cons_of_ne_nil hos
    obtain ⟨rfl, rfl⟩ := List.cons.inj hall
    rcases ih rfl with ⟨rfl, _⟩ | hmem
    · exact hd
    · cases os with
      | nil => exact absurd hmem (by decide)
      | cons o os => exact hmem
  generalize hphrase : Phrase.expr level e = phrase at h
  generalize hall : t :: ts = all at h
  induction h generalizing level e ts with
  | name =>
    cases hphrase
    cases hall
    exact .inl ⟨rfl, rfl⟩
  | number hd | string hd =>
    cases hall
    rw [ht] at hd
    cases hd
  | group hl | object hl =>
    cases hall
    rw [ht] at hl
    cases hl
  | loosen _ _ ih =>
    cases hphrase
    exact ih rfl hall
  | dot ho hd _ ih =>
    refine .inr (hextend ho.ne_nil hall ?_ fun hos => ih rfl hos)
    rw [hd]
    decide
  | index ho hl _ _ ih =>
    refine .inr (hextend ho.ne_nil hall ?_ fun hos => ih rfl hos)
    rw [hl]
    decide
  | apply hf hl _ _ ih =>
    refine .inr (hextend hf.ne_nil hall ?_ fun hos => ih rfl hos)
    rw [hl]
    decide
  | @binary _ op _ _ _ _ _ _ hl hsign _ ih =>
    refine .inr (hextend hl.ne_nil hall ?_ fun hos => ih rfl hos)
    rw [hsign]
    exact hkind op
  | assign htarget hsign _ ih =>
    refine .inr (hextend htarget.ne_nil hall ?_ fun hos => ih rfl hos)
    rw [hsign]
    decide
  | noArguments | lastArgument | moreArguments | shorthand | entry | noProperties
    | lastProperty | moreProperties => cases hphrase

/-- What follows an expression makes it look like a declaration only if it is a
name and a parenthesis follows, or if it is a call of a name and a brace
follows. -/
theorem of_opensDeclaration (h : Derives (.expr level e) ts)
    (hshape : Detection.opensDeclaration (ts ++ rest)) :
    (∃ name, e = .identifier name) ∧ headKind rest = .openParen ∨
      (∃ name es, e = .call (.identifier name) es) ∧ headKind rest = .openCurly := by
  have hkind (op : BinaryOp) : op.kind ≠ .openParen ∧ op.kind ≠ .openCurly := by
    cases op <;> decide
  -- What goes on an expression is no brace, and a parenthesis only for a call.
  have hextend {p q : Prop} {d : Terminal} (hparen : d.kind ≠ .openParen)
      (hcurly : d.kind ≠ .openCurly)
      (ih : p ∧ d.kind = .openParen ∨ q ∧ d.kind = .openCurly) : False := by
    rcases ih with ⟨_, hd⟩ | ⟨_, hd⟩
    · exact hparen hd
    · exact hcurly hd
  generalize hphrase : Phrase.expr level e = phrase at h
  induction h generalizing level e rest with
  | @name t ht =>
    cases hphrase
    obtain ⟨name, paren, others, hall, _, hparen, _⟩ := Detection.opensDeclaration_iff.1 hshape
    cases hall
    exact .inl ⟨⟨_, rfl⟩, hparen⟩
  | number ht | string ht | group ht | object ht =>
    have hhead := Detection.headKind_of_opensDeclaration hshape
    rw [List.cons_append, headKind_cons, ht] at hhead
    cases hhead
  | loosen _ _ ih =>
    cases hphrase
    exact ih hshape rfl
  | dot _ hd _ ih =>
    rw [List.append_assoc] at hshape
    exact (hextend (by simp [hd]) (by simp [hd]) (ih hshape rfl)).elim
  | index _ hl _ _ ih =>
    rw [List.append_assoc] at hshape
    exact (hextend (by simp [hl]) (by simp [hl]) (ih hshape rfl)).elim
  | @apply l r callee es fs us hf hl hes hr ih =>
    cases hphrase
    have hinner := hshape
    rw [List.append_assoc] at hinner
    rcases ih hinner rfl with ⟨⟨name, rfl⟩, _⟩ | ⟨_, hcurly⟩
    · refine .inr ⟨⟨name, es, rfl⟩, ?_⟩
      rcases hf.identifier_cases with hhead | rfl
      · have hname := Detection.headKind_of_opensDeclaration hshape
        rw [List.append_assoc, headKind_append _ hf.ne_nil, hhead] at hname
        cases hname
      · simp only [List.cons_append, List.nil_append, Detection.opensDeclaration,
          Bool.and_eq_true] at hshape
        have hbody := hshape.2
        rw [List.append_assoc, hes.closesBeforeBody_append, List.singleton_append,
          Detection.closesBeforeBody_matching hr] at hbody
        exact of_decide_eq_true hbody
    · rw [List.cons_append, headKind_cons, hl] at hcurly
      cases hcurly
  | @binary _ op _ _ _ _ _ _ _ hsign _ ih =>
    rw [List.append_assoc] at hshape
    exact (hextend (by simp [hsign, hkind op]) (by simp [hsign, hkind op]) (ih hshape rfl)).elim
  | assign _ hsign _ ih =>
    rw [List.append_assoc] at hshape
    exact (hextend (by simp [hsign]) (by simp [hsign]) (ih hshape rfl)).elim
  | noArguments | lastArgument | moreArguments | shorthand | entry | noProperties
    | lastProperty | moreProperties => cases hphrase

/-- A call of a name looks like a declaration where a brace follows, unless a parenthesis
comes first. -/
theorem opensDeclaration_of_call {name : String} {es : List Expr}
    (h : Derives (.expr level (.call (.identifier name) es)) ts) (hhead : headKind ts ≠ .openParen)
    (hcurly : headKind rest = .openCurly) : Detection.opensDeclaration (ts ++ rest) := by
  obtain ⟨fs, l, as, r, rfl, hl, hr, hf, has⟩ := h.call_cases.resolve_left hhead
  rw [headKind_append _ hf.ne_nil] at hhead
  rw [hf.identifier_cases.resolve_left hhead]
  refine Detection.opensDeclaration_iff.2 ⟨_, l, as ++ [r] ++ rest, rfl, rfl, hl, ?_⟩
  rw [List.append_assoc, has.closesBeforeBody_append, List.singleton_append,
    Detection.closesBeforeBody_matching hr, hcurly]
  rfl

/-- A name that comes right before a declaration is all of its expression. -/
theorem name_before_declaration {t : Terminal} (h : Derives (.expr level e) (t :: ts))
    (ht : t.kind = .identifier) (hopens : Detection.opensDeclaration (ts ++ rest)) :
    ts = [] ∧ e = .identifier t.value := by
  rcases h.after_name ht with hname | hmem
  · exact hname
  · -- A declaration starts with a name, and a name goes on nothing.
    have hne : ts ≠ [] := by
      rintro rfl
      exact absurd hmem (by decide)
    have hhead := Detection.headKind_of_opensDeclaration hopens
    rw [headKind_append _ hne] at hhead
    rw [hhead] at hmem
    exact absurd hmem (by decide)

/-- Only a name and a call of a name are taken for a declaration in the anchored
way. -/
theorem form_of_hasShape (h : Derives (.expr level e) ts)
    (hshape : Detection.hasShape (ts ++ rest)) :
    (∃ name, e = .identifier name) ∨ ∃ name es, e = .call (.identifier name) es := by
  obtain ⟨t, us, rfl⟩ := List.exists_cons_of_ne_nil h.ne_nil
  rw [Detection.hasShape, List.cons_append, Detection.afterAsync] at hshape
  split at hshape
  next hasync =>
    exact .inl ⟨_, (h.name_before_declaration (Detection.kind_of_isAsyncWord hasync) hshape).2⟩
  next =>
    rcases h.of_opensDeclaration hshape with ⟨hname, _⟩ | ⟨hcall, _⟩
    · exact .inl hname
    · exact .inr hcall

/-- An expression that starts with a parenthesis is the one that the parenthesis
encloses, or is larger. -/
theorem leading_group (h : Derives (.expr level e) ts) (hhead : headKind ts = .openParen) :
    ∃ l us r vs inner, ts = l :: (us ++ r :: vs) ∧ r.kind = .closeParen ∧
      Derives (.expr .assignment inner) us ∧ (vs = [] ∧ e = inner ∨ sizeOf inner < sizeOf e) := by
  -- What is enclosed at the start of a part is enclosed at the start of the whole.
  have hextend {part whole : Expr} {os xs : List Terminal} (hos : os ≠ [])
      (hhead : headKind (os ++ xs) = .openParen) (hsize : sizeOf part < sizeOf whole)
      (ih : headKind os = .openParen → ∃ l us r vs inner, os = l :: (us ++ r :: vs) ∧
        r.kind = .closeParen ∧ Derives (.expr .assignment inner) us ∧
        (vs = [] ∧ part = inner ∨ sizeOf inner < sizeOf part)) :
      ∃ l us r vs inner, os ++ xs = l :: (us ++ r :: vs) ∧ r.kind = .closeParen ∧
        Derives (.expr .assignment inner) us ∧
        (vs = [] ∧ whole = inner ∨ sizeOf inner < sizeOf whole) := by
    rw [headKind_append _ hos] at hhead
    obtain ⟨l, us, r, vs, inner, rfl, hr, hinner, hcases⟩ := ih hhead
    refine ⟨l, us, r, vs ++ xs, inner, ?_, hr, hinner, .inr ?_⟩
    · rw [List.cons_append, List.append_assoc, List.cons_append]
    · rcases hcases with ⟨_, rfl⟩ | hless
      · exact hsize
      · exact hless.trans hsize
  generalize hphrase : Phrase.expr level e = phrase at h
  induction h generalizing level e with
  | name ht | number ht | string ht | object ht =>
    rw [headKind_cons, ht] at hhead
    cases hhead
  | @group l r e us hl he hr =>
    cases hphrase
    exact ⟨l, us, r, [], e, rfl, hr, he, .inl ⟨rfl, rfl⟩⟩
  | loosen _ _ ih =>
    cases hphrase
    exact ih hhead rfl
  | dot ho _ _ ih | index ho _ _ _ ih | apply ho _ _ _ ih | binary _ ho _ _ ih | assign ho _ _ ih =>
    cases hphrase
    exact hextend ho.ne_nil hhead (by simp; omega) fun hos => ih hos rfl
  | noArguments | lastArgument | moreArguments | shorthand | entry | noProperties
    | lastProperty | moreProperties => cases hphrase

end Derives

end Scriptlet
