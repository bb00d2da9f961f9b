import Scriptlet.Proofs.Parse.Failure
import Scriptlet.Proofs.Parse.Forward

/-!
# The readers of expressions move forward

Every reader of a level moves the cursor forward if the reader of nested expressions does, and
a reader that returns an expression has consumed a token for it.
-/

namespace Scriptlet.Parser

open Token (Kind)

section

variable {bound : Nat} {nested : Parser Expr} [Forward nested]

/-! ## Primary expressions and member accesses -/

instance : Forward (primary nested) := by
  unfold primary
  refine .bind fun token => ?_
  split
  · infer_instance
  · refine .bind fun _ => ?_
    split <;> infer_instance
  all_goals infer_instance

instance : Consuming (primary nested) where
  length_lt {c c' e} h := by
    obtain ⟨t, c₁, hlook, h⟩ := bind_eq_ok_iff.1 h
    obtain ⟨rfl, rfl⟩ := current_eq_ok_iff.1 hlook
    generalize hkind : c.current.kind = kind at h
    cases kind with
    | identifier | string | openParen => exact length_lt_of_advance hkind (by decide) h
    | number =>
      obtain ⟨t, c₁, hstep, h⟩ := bind_eq_ok_iff.1 h
      obtain ⟨_, rfl⟩ := advance_eq_ok_iff.1 hstep
      have hlen := Cursor.length_rest_of_kind hkind (by decide)
      generalize Numeral.read? c.current.value.toList = value at h
      split at h
      · obtain ⟨_, rfl⟩ := pure_eq_ok_iff.1 h
        omega
      · exact absurd h fail_ne_ok
    | _ => exact absurd h refuse_ne_ok

instance (owner : Expr) : Forward (memberTail nested bound owner) := by
  induction bound generalizing owner with
  | zero => exact inferInstanceAs (Forward (pure owner))
  | succ bound ih =>
    unfold memberTail
    refine .bind fun next => ?_
    split
    · refine .bind fun _ => .bind fun token => .bind fun property => ?_
      split <;> infer_instance
    all_goals infer_instance

instance : Consuming (member bound nested) := by
  unfold member
  infer_instance

/-! ## Arguments and calls -/

instance : Forward (argumentsTail nested bound) := by
  induction bound with
  | zero => exact inferInstanceAs (Forward (pure []))
  | succ bound ih =>
    unfold argumentsTail
    refine .bind fun next => ?_
    split <;> infer_instance

instance : Forward (argumentsOpen bound nested) := by
  unfold argumentsOpen
  refine .bind fun next => ?_
  split <;> infer_instance

instance : Consuming (arguments bound nested) := by
  have := consuming_expect .openParen "missing `(`" (by decide)
  unfold arguments
  infer_instance

instance (callee : Expr) : Forward (callTail nested bound callee) := by
  induction bound generalizing callee with
  | zero => exact inferInstanceAs (Forward (pure callee))
  | succ bound ih =>
    unfold callTail
    refine .bind fun next => ?_
    split <;> infer_instance

instance (callee : Expr) : Consuming (callOf callee bound nested) := by
  unfold callOf
  infer_instance

instance : Consuming (call bound nested) := by
  unfold call
  infer_instance

/-! ## Products and sums -/

instance (op? : Kind → Option BinaryOp) (operand : Parser Expr) [Forward operand] (left : Expr) :
    Forward (binaryTail op? operand bound left) := by
  induction bound generalizing left with
  | zero => exact inferInstanceAs (Forward (pure left))
  | succ bound ih =>
    unfold binaryTail
    refine .bind fun next => ?_
    split <;> infer_instance

instance : Consuming (multiplicative bound nested) := by
  unfold multiplicative
  infer_instance

instance : Consuming (additive bound nested) := by
  unfold additive
  infer_instance

/-! ## Object literals and assignments -/

instance : Forward (properties nested bound) := by
  induction bound with
  | zero => exact inferInstanceAs (Forward (pure []))
  | succ bound ih =>
    unfold properties
    refine .bind fun next => ?_
    split
    · infer_instance
    · infer_instance
    · refine .bind fun key => .bind fun behind => ?_
      split
      · infer_instance
      · infer_instance
      · refine .bind fun _ => .bind fun value => .bind fun last => ?_
        split <;> infer_instance

instance : Forward (object bound nested) := by
  unfold object
  refine .bind fun next => ?_
  split <;> infer_instance

instance : Consuming (object bound nested) where
  length_lt {c c' e} h := by
    obtain ⟨kind, c₁, hlook, h⟩ := bind_eq_ok_iff.1 h
    obtain ⟨hkind, rfl⟩ := kind_eq_ok_iff.1 hlook
    split at h
    · exact length_lt_of_advance hkind (by decide) h
    · exact Consuming.length_lt h

instance : Consuming (assignment bound nested) := by
  unfold assignment
  refine .bind fun target => .bind fun next => ?_
  split <;> infer_instance

end

/-! ## Closing the recursion -/

instance (bound : Nat) : Forward (exprWithin bound) := by
  induction bound with
  | zero => exact inferInstanceAs (Forward refuse)
  | succ bound ih => exact inferInstanceAs (Forward (assignment bound (exprWithin bound)))

instance {α : Type} {level : Nat → Parser Expr → Parser α}
    [∀ bound, Forward (level bound (exprWithin bound))] : Forward (bounded level) where
  passes {c _ _} h := by
    have hlevel : bounded level c = level c.rest.length (exprWithin c.rest.length) c := rfl
    exact Forward.passes (h.of_eq hlevel)

instance {α : Type} {level : Nat → Parser Expr → Parser α}
    [∀ bound, Consuming (level bound (exprWithin bound))] : Consuming (bounded level) where
  length_lt {c _ _} h := by
    have hlevel : level c.rest.length (exprWithin c.rest.length) c = .ok _ _ := h
    exact Consuming.length_lt hlevel

instance : Consuming expression := inferInstanceAs (Consuming (bounded assignment))

end Scriptlet.Parser
