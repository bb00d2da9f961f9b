import Scriptlet.Proofs.Expr.Surface

/-!
# Parentheses are minimal

An expression is written with as few terminals as any that make it up: no list
from which the grammar derives the expression is shorter
(`Derives.length_terminals_le`).  Only parentheses and a comma behind the last
property can be more in the list.

The induction follows the derivation and keeps a little more.  A list that starts
with a parenthesis which is not written has two terminals to spare, the parenthesis
and its partner (`Spares`).
-/

namespace Scriptlet

open Token (Kind)

/-- The terminals `us` of a source are no fewer than the terminals `ts` that are
written.  If they start with a parenthesis and those that are written do not, they
are two more. -/
structure Spares (us ts : List Terminal) : Prop where
  /-- They are no fewer. -/
  length : ts.length ≤ us.length
  /-- A parenthesis that is not written comes in a pair. -/
  group : headKind us = .openParen → headKind ts ≠ .openParen → ts.length + 2 ≤ us.length

namespace Spares

variable {us ts xs ys : List Terminal}

/-- What stands behind the first terminals need only be no shorter. -/
theorem append (h : Spares us ts) (hus : us ≠ []) (hts : ts ≠ [])
    (hlength : ys.length ≤ xs.length) : Spares (us ++ xs) (ts ++ ys) := by
  have hsum (us xs : List Terminal) : (us ++ xs).length = us.length + xs.length :=
    List.length_append
  refine ⟨?_, ?_⟩
  · rw [hsum, hsum]
    exact Nat.add_le_add h.length hlength
  · rw [headKind_append _ hus, headKind_append _ hts, hsum, hsum]
    intro hsource hwritten
    have hspare := h.group hsource hwritten
    omega

/-- What starts with no parenthesis need only be no shorter. -/
theorem of_headKind_ne (hhead : headKind us ≠ .openParen) (hlength : ts.length ≤ us.length) :
    Spares us ts :=
  ⟨hlength, fun hparen => absurd hparen hhead⟩

end Spares

/-! ## Expressions at a level -/

namespace Expr

/-- The terminals of the text of an expression where a level is wanted. -/
def terminalsAt (level : Level) (e : Expr) : List Terminal := enclosed (e.level < level) e.terminals

variable {level : Level} {e : Expr}

theorem terminalsAt_of_fits (h : ¬ e.level < level) : e.terminalsAt level = e.terminals := by
  rw [terminalsAt, decide_eq_false h]
  rfl

theorem terminalsAt_of_loose (h : e.level < level) :
    e.terminalsAt level = .mark .openParen :: (e.terminals ++ [.mark .closeParen]) := by
  rw [terminalsAt, decide_eq_true h]
  rfl

@[simp] theorem terminalsAt_assignment (e : Expr) : e.terminalsAt .assignment = e.terminals :=
  terminalsAt_of_fits (Nat.not_lt_zero _)

theorem terminalsAt_ne_nil (level : Level) (e : Expr) : e.terminalsAt level ≠ [] :=
  enclosed_ne_nil _ e.terminals_ne_nil

end Expr

namespace Spares

variable {level : Level} {e : Expr} {us : List Terminal}

/-- What makes up an expression in parentheses has these to spare. -/
theorem grouped (l r : Terminal) (h : Spares us e.terminals) (level : Level) :
    Spares (l :: (us ++ [r])) (e.terminalsAt level) := by
  have hlength : (l :: (us ++ [r])).length = us.length + 2 := by simp
  have hinner := h.length
  by_cases hlevel : e.level < level
  · rw [Expr.terminalsAt_of_loose hlevel]
    refine ⟨?_, fun _ hother => absurd rfl hother⟩
    rw [hlength, List.length_cons, List.length_append, List.length_singleton]
    omega
  · rw [Expr.terminalsAt_of_fits hlevel]
    refine ⟨?_, fun _ _ => ?_⟩
    · omega
    · omega

/-- Where a looser expression is wanted, no more is written. -/
theorem loosen (hlevel : level ≠ .primary) (h : Spares us (e.terminalsAt level.tighter)) :
    Spares us (e.terminalsAt level) := by
  have hrung := Level.rung_tighter hlevel
  by_cases hloose : e.level < level
  · have htighter : e.level < level.tighter :=
      show e.level.rung < level.tighter.rung from hrung ▸ Nat.lt_succ_of_lt hloose
    rw [Expr.terminalsAt_of_loose htighter] at h
    rw [Expr.terminalsAt_of_loose hloose]
    exact h
  · rw [Expr.terminalsAt_of_fits hloose]
    by_cases htighter : e.level < level.tighter
    · -- The parentheses that the tighter level asks for are no longer written.
      have hlength := h.length
      rw [Expr.terminalsAt_of_loose htighter, List.length_cons, List.length_append,
        List.length_singleton] at hlength
      refine ⟨?_, fun _ _ => ?_⟩
      · omega
      · omega
    · rw [Expr.terminalsAt_of_fits htighter] at h
      exact h

end Spares

/-! ## Phrases -/

/-- Some terminals that make up a phrase are no fewer than those that are written for
it. -/
def Phrase.Spares : Phrase → List Terminal → Prop
  | .expr level e, us => Scriptlet.Spares us (e.terminalsAt level)
  | .arguments es, us => (separated (Expr.terminalsOfList es)).length ≤ us.length
  | .property p, us => (Expr.terminalsOfProperty p).length ≤ us.length
  | .properties ps, us => (separated (Expr.terminalsOfProperties ps)).length ≤ us.length

namespace Derives

theorem phrase_spares {phrase : Phrase} {us : List Terminal} (h : Derives phrase us) :
    phrase.Spares us := by
  -- An expression that some terminals go on is written as it is at its own level.
  have hextend {level : Level} {e : Expr} {us xs : List Terminal} (whole : Expr)
      (ys : List Terminal) (hne : us ≠ []) (ih : Spares us (e.terminalsAt level))
      (hwhole : whole.terminals = e.terminalsAt level ++ ys) (hlength : ys.length ≤ xs.length) :
      Spares (us ++ xs) (whole.terminalsAt whole.level) := by
    rw [Expr.terminalsAt_of_fits (Nat.lt_irrefl _), hwhole]
    exact ih.append hne (e.terminalsAt_ne_nil level) hlength
  induction h with
  | name ht | number ht | string ht => exact .of_headKind_ne (by simp [ht]) (Nat.le_refl 1)
  | group _ _ _ ih =>
    rw [Phrase.Spares, Expr.terminalsAt_assignment] at ih
    exact ih.grouped _ _ _
  | loosen hlevel _ ih => exact ih.loosen hlevel
  | @dot _ owner name _ _ ho _ _ iho ihn =>
    exact hextend (.member owner (.identifier name) false) [.mark .dot, ⟨.identifier, name⟩]
      ho.ne_nil iho rfl (Nat.succ_le_succ ihn.length)
  | @index _ _ owner property _ _ ho _ _ _ iho ihp =>
    rw [Phrase.Spares, Expr.terminalsAt_assignment] at ihp
    exact hextend (.member owner property true)
      (.mark .openBracket :: (property.terminals ++ [.mark .closeCurly])) ho.ne_nil iho rfl
      (by simpa using ihp.length)
  | @apply _ _ callee es _ _ hf _ _ _ ihf ihes =>
    rw [Phrase.Spares] at ihes
    exact hextend (.call callee es)
      (.mark .openParen :: (separated (Expr.terminalsOfList es) ++ [.mark .closeParen]))
      hf.ne_nil ihf rfl (by simpa using ihes)
  | @binary _ op _ left right _ _ hlevel hleft _ _ ihl ihr =>
    subst hlevel
    exact hextend (.binary op left right) (.mark op.kind :: right.terminalsAt op.level.tighter)
      hleft.ne_nil ihl rfl (Nat.succ_le_succ ihr.length)
  | @object _ _ ps _ hl _ _ ih =>
    have hfits : ¬ (Expr.object ps).level < .object := Nat.lt_irrefl _
    rw [Phrase.Spares] at ih
    rw [Phrase.Spares, Expr.terminalsAt_of_fits hfits, Expr.terminals]
    exact .of_headKind_ne (by simp [hl]) (by simpa using ih)
  | @assign _ target value _ _ htarget _ _ iht ihv =>
    rw [Phrase.Spares, Expr.terminalsAt_assignment] at ihv
    exact hextend (.assignment target value) (.mark .assignment :: value.terminals)
      htarget.ne_nil iht rfl (Nat.succ_le_succ ihv.length)
  | noArguments => exact Nat.le_refl 0
  | lastArgument _ ih =>
    rw [Phrase.Spares, Expr.terminalsAt_assignment] at ih
    exact ih.length
  | moreArguments _ _ _ ihe ihes =>
    rw [Phrase.Spares, Expr.terminalsAt_assignment] at ihe
    rw [Phrase.Spares, Expr.terminalsOfList, Expr.terminalsOfList, separated, List.length_append,
      List.length_append]
    exact Nat.add_le_add ihe.length (Nat.succ_le_succ ihes)
  | shorthand => exact Nat.le_refl 1
  | entry _ _ _ ih =>
    rw [Phrase.Spares, Expr.terminalsAt_assignment] at ih
    exact Nat.succ_le_succ (Nat.succ_le_succ ih.length)
  | noProperties => exact Nat.le_refl 0
  | lastProperty _ ih => exact ih
  | @moreProperties _ _ ps _ _ _ _ _ ihp ihps =>
    cases ps with
    | nil =>
      -- A comma behind the last property is not written.
      rw [Phrase.Spares, List.length_append]
      exact Nat.le_add_right_of_le ihp
    | cons p' ps =>
      rw [Phrase.Spares, Expr.terminalsOfProperties, Expr.terminalsOfProperties, separated,
        List.length_append, List.length_append]
      exact Nat.add_le_add ihp (Nat.succ_le_succ ihps)

/-- What is written for an expression is as short as anything that makes it up, and
shorter by two if that starts with a parenthesis which is not written. -/
theorem spares {e : Expr} {us : List Terminal} (h : Derives (.expr .assignment e) us) :
    Spares us e.terminals := by
  have hspares : Spares us (e.terminalsAt .assignment) := h.phrase_spares
  rw [Expr.terminalsAt_assignment] at hspares
  exact hspares

/-- No list from which an expression is derived is shorter than the one that is
written. -/
theorem length_terminals_le {e : Expr} {us : List Terminal} (h : Derives (.expr .assignment e) us) :
    e.terminals.length ≤ us.length := h.spares.length

/-- No list of arguments is shorter than the one that is written. -/
theorem length_arguments_le {es : List Expr} {us : List Terminal} (h : Derives (.arguments es) us) :
    (separated (Expr.terminalsOfList es)).length ≤ us.length := h.phrase_spares

end Derives

end Scriptlet
