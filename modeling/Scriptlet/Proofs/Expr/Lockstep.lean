import Scriptlet.Proofs.Expr.Complete
import Scriptlet.Proofs.Expr.Forward
import Scriptlet.Proofs.Parse.Lockstep

/-!
# Readers of expressions in step

Two runs of a reader at cursors that belong together stay in step (`assignment_inStep` and the
theorems before it).  Each has bounds of its own, and `Room` says that both bounds are enough.
A loop that runs out of its bound is at the end of the input, where the loop of the other run
stops, too.
-/

namespace Scriptlet.Parser

open Pairing
open Token (Kind)

/-! ## Loops at the end of the input -/

theorem Operators.endOfInput {op? : Kind → Option BinaryOp} {level : Level}
    (hop : Operators op? level) : op? .endOfInput = none := by
  cases hfound : op? .endOfInput with
  | none => rfl
  | some op =>
    obtain ⟨_, hkind⟩ := hop.1 hfound
    cases op <;> cases hkind

section

variable {nested : Parser Expr} {c : Cursor} {bound : Nat}

theorem memberTail_of_end {owner : Expr} (h : c.kind = .endOfInput) :
    memberTail nested bound owner c = .ok owner c :=
  memberTail_of_not_mem (by rw [h]; decide)

theorem callTail_of_end {callee : Expr} (h : c.kind = .endOfInput) :
    callTail nested bound callee c = .ok callee c :=
  callTail_of_not_mem (by rw [h]; decide)

theorem binaryTail_of_end {op? : Kind → Option BinaryOp} {level : Level} {operand : Parser Expr}
    {left : Expr} (hop : Operators op? level) (h : c.kind = .endOfInput) :
    binaryTail op? operand bound left c = .ok left c :=
  binaryTail_of_none (by rw [h, hop.endOfInput])

theorem argumentsTail_of_end (h : c.kind = .endOfInput) :
    argumentsTail nested bound c = .ok [] c := by
  cases bound with
  | zero => rfl
  | succ bound =>
    simp only [argumentsTail, bind_of_eq_ok run_kind, h]
    rfl

theorem properties_of_end (h : c.kind = .endOfInput) : properties nested bound c = .ok [] c := by
  cases bound with
  | zero => rfl
  | succ bound =>
    simp only [properties, bind_of_eq_ok run_kind, h]
    rfl

/-- No expression starts there, whatever the bound is. -/
theorem exprWithin_of_end (h : c.kind = .endOfInput) :
    exprWithin bound c = .error ⟨.unrecognisedPrimary c.current.describe, c.position⟩ c := by
  cases bound with
  | zero => rfl
  | succ bound =>
    have hprimary : primary (exprWithin bound) c =
        .error ⟨.unrecognisedPrimary c.current.describe, c.position⟩ c := by
      have hkind : c.current.kind = .endOfInput := h
      simp only [primary, bind_of_eq_ok run_current, hkind]
      rfl
    have hadditive : additive bound (exprWithin bound) c =
        .error ⟨.unrecognisedPrimary c.current.describe, c.position⟩ c :=
      bind_of_eq_error (bind_of_eq_error (bind_of_eq_error (bind_of_eq_error hprimary)))
    exact bind_of_eq_error ((object_of_ne (by rw [h]; decide)).trans hadditive)

end

section

variable {P : Pairing} {c c' : Cursor} {limit limit' bound bound' : Nat}
  {nested nested' : Parser Expr} [Forward nested] [Forward nested']

/-! ## Primary expressions and member accesses -/

theorem primary_inStep (hnested : InStepWithin P limit limit' nested nested')
    (hroom : P.Room (limit + 1) (limit' + 1) c c') :
    InStep P (primary nested) (primary nested') c c' := by
  refine inStep_current ?_
  have hkind' : c'.current.kind = c.current.kind := kind_eq hroom.pairs
  rw [hkind', value_eq hroom.pairs]
  generalize hkind : c.current.kind = kind
  cases kind with
  | identifier | string =>
    exact inStep_advance hroom.pairs fun hpairs => inStep_pure _ hpairs
  | number =>
    generalize Numeral.read? c.current.value.toList = value
    cases value with
    | some d => exact inStep_advance hroom.pairs fun hpairs => inStep_pure _ hpairs
    | none => exact inStep_advance hroom.pairs fun hpairs => inStep_fail rfl hpairs hroom.pairs
  | openParen =>
    refine inStep_advance_of_kind hroom hkind (by decide) fun hroom₁ => ?_
    refine (hnested hroom₁).bind_room hroom₁ fun inner c₁ c₁' hroom₂ => ?_
    exact inStep_expect hroom₂.pairs fun _ hpairs => inStep_pure _ hpairs
  | _ => exact inStep_refuse hroom.pairs

theorem memberTail_inStep {owner : Expr} (hnested : InStepWithin P limit limit' nested nested')
    (hbound : bound ≤ limit) (hbound' : bound' ≤ limit') (hroom : P.Room bound bound' c c') :
    InStep P (memberTail nested bound owner) (memberTail nested' bound' owner) c c' := by
  refine inStep_loop (x := memberTail nested) (y := memberTail nested')
    (fun _ _ _ => memberTail_of_end) (fun _ _ _ => memberTail_of_end) ?_ hbound hbound' hroom
  intro n n' owner c c' hn hn' hroom ih
  refine inStep_kind hroom.pairs ?_
  generalize hkind : c.kind = kind
  cases kind with
  | dot =>
    -- The property may be no name, and then the token behind the dot is blamed.
    refine inStep_advance_of_kind (F := fun _ => ?_) hroom hkind (by decide) fun hroom₁ => ?_
    · refine .bind fun token => .bind fun property => ?_
      split <;> infer_instance
    · have hprimary : InStep P (primary nested) (primary nested') c.advance c'.advance :=
        primary_inStep hnested (hroom₁.mono (by omega) (by omega))
      refine inStep_current ?_
      refine hprimary.bind_room (F := fun _ => ?_) hroom₁ fun property c₁ c₁' hroom₂ => ?_
      · split <;> infer_instance
      · cases property.name? with
        | some name => exact ih _ _ _ hroom₂
        | none => exact inStep_fail rfl hroom₂.pairs hroom₁.pairs
  | openBracket =>
    refine inStep_advance_of_kind hroom hkind (by decide) fun hroom₁ => ?_
    have hproperty := hnested (hroom₁.mono (Nat.le_of_lt hn) (Nat.le_of_lt hn'))
    refine hproperty.bind_room hroom₁ fun property c₁ c₁' hroom₂ => ?_
    exact inStep_expect hroom₂.pairs fun _ hpairs => ih _ _ _ (hroom₂.step hpairs)
  | _ => exact inStep_pure _ hroom.pairs

theorem member_inStep (hnested : InStepWithin P limit limit' nested nested')
    (hroom : P.Room (limit + 1) (limit' + 1) c c') :
    InStep P (member limit nested) (member limit' nested') c c' := by
  refine (primary_inStep hnested hroom).bind_consuming hroom fun owner c₁ c₁' hroom₁ => ?_
  exact memberTail_inStep hnested (Nat.le_refl _) (Nat.le_refl _) hroom₁

/-! ## Arguments and calls -/

theorem argumentsTail_inStep (hnested : InStepWithin P limit limit' nested nested')
    (hbound : bound ≤ limit) (hbound' : bound' ≤ limit') (hroom : P.Room bound bound' c c') :
    InStep P (argumentsTail nested bound) (argumentsTail nested' bound') c c' := by
  refine inStep_loop (s := ()) (x := fun n _ => argumentsTail nested n)
    (y := fun n _ => argumentsTail nested' n) (fun _ _ _ => argumentsTail_of_end)
    (fun _ _ _ => argumentsTail_of_end) ?_ hbound hbound' hroom
  intro n n' _ c c' hn hn' hroom ih
  refine inStep_kind hroom.pairs ?_
  generalize hkind : c.kind = kind
  cases kind with
  | comma =>
    refine inStep_advance_of_kind hroom hkind (by decide) fun hroom₁ => ?_
    have hargument := hnested (hroom₁.mono (Nat.le_of_lt hn) (Nat.le_of_lt hn'))
    refine hargument.bind_room hroom₁ fun argument c₁ c₁' hroom₂ => ?_
    exact (ih () _ _ hroom₂).bind fun others _ _ _ _ hpairs => inStep_pure _ hpairs
  | _ => exact inStep_pure _ hroom.pairs

theorem argumentsOpen_inStep (hnested : InStepWithin P limit limit' nested nested')
    (hbound : bound ≤ limit) (hbound' : bound' ≤ limit') (hroom : P.Room bound bound' c c') :
    InStep P (argumentsOpen bound nested) (argumentsOpen bound' nested') c c' := by
  refine inStep_kind hroom.pairs ?_
  generalize c.kind = kind
  cases kind with
  | closeParen => exact inStep_pure _ hroom.pairs
  | _ =>
    refine (hnested (hroom.mono hbound hbound')).bind_room hroom fun argument c₁ c₁' hroom₁ => ?_
    refine (argumentsTail_inStep hnested hbound hbound' hroom₁).bind ?_
    exact fun others _ _ _ _ hpairs => inStep_pure _ hpairs

theorem arguments_inStep (hnested : InStepWithin P limit limit' nested nested')
    (hbound : bound ≤ limit) (hbound' : bound' ≤ limit')
    (hroom : P.Room (bound + 1) (bound' + 1) c c') :
    InStep P (arguments bound nested) (arguments bound' nested') c c' := by
  refine inStep_expect_of_ne hroom (by decide) fun hroom₁ => ?_
  refine (argumentsOpen_inStep hnested hbound hbound' hroom₁).bind ?_
  intro es c₁ c₁' _ _ hpairs
  exact inStep_expect hpairs fun _ hpairs₁ => inStep_pure _ hpairs₁

theorem callTail_inStep {callee : Expr} (hnested : InStepWithin P limit limit' nested nested')
    (hbound : bound ≤ limit) (hbound' : bound' ≤ limit') (hroom : P.Room bound bound' c c') :
    InStep P (callTail nested bound callee) (callTail nested' bound' callee) c c' := by
  refine inStep_loop (x := callTail nested) (y := callTail nested')
    (fun _ _ _ => callTail_of_end) (fun _ _ _ => callTail_of_end) ?_ hbound hbound' hroom
  intro n n' callee c c' hn hn' hroom ih
  refine inStep_kind hroom.pairs ?_
  generalize c.kind = kind
  cases kind with
  | openParen =>
    have harguments := arguments_inStep hnested (Nat.le_of_lt hn) (Nat.le_of_lt hn') hroom
    exact harguments.bind_consuming hroom fun es c₁ c₁' hroom₁ => ih _ _ _ hroom₁
  | _ => exact inStep_pure _ hroom.pairs

theorem callOf_inStep (callee : Expr) (hnested : InStepWithin P limit limit' nested nested')
    (hroom : P.Room (limit + 1) (limit' + 1) c c') :
    InStep P (callOf callee limit nested) (callOf callee limit' nested') c c' := by
  have harguments := arguments_inStep hnested (Nat.le_refl _) (Nat.le_refl _) hroom
  refine harguments.bind_consuming hroom fun es c₁ c₁' hroom₁ => ?_
  exact callTail_inStep hnested (Nat.le_refl _) (Nat.le_refl _) hroom₁

theorem call_inStep (hnested : InStepWithin P limit limit' nested nested') :
    InStepWithin P (limit + 1) (limit' + 1) (call limit nested) (call limit' nested') := by
  intro c c' hroom
  refine (member_inStep hnested hroom).bind_consuming hroom fun callee c₁ c₁' hroom₁ => ?_
  exact callTail_inStep hnested (Nat.le_refl _) (Nat.le_refl _) hroom₁

/-! ## Products and sums -/

theorem binaryTail_inStep {op? : Kind → Option BinaryOp} {level : Level} {left : Expr}
    {operand operand' : Parser Expr} [Forward operand] [Forward operand']
    (hop : Operators op? level) (hoperand : InStepWithin P limit limit' operand operand')
    (hbound : bound ≤ limit) (hbound' : bound' ≤ limit') (hroom : P.Room bound bound' c c') :
    InStep P (binaryTail op? operand bound left) (binaryTail op? operand' bound' left) c c' := by
  refine inStep_loop (x := binaryTail op? operand) (y := binaryTail op? operand')
    (fun _ _ _ => binaryTail_of_end hop) (fun _ _ _ => binaryTail_of_end hop) ?_
    hbound hbound' hroom
  intro n n' left c c' hn hn' hroom ih
  refine inStep_kind hroom.pairs ?_
  generalize hfound : op? c.kind = found
  cases found with
  | some op =>
    obtain ⟨_, hkind⟩ := hop.1 hfound
    have hsign : op.kind ≠ .endOfInput := by cases op <;> decide
    refine inStep_advance_of_kind hroom hkind hsign fun hroom₁ => ?_
    have hright := hoperand (hroom₁.mono (Nat.le_of_lt hn) (Nat.le_of_lt hn'))
    exact hright.bind_room hroom₁ fun right c₁ c₁' hroom₂ => ih _ _ _ hroom₂
  | none => exact inStep_pure _ hroom.pairs

theorem multiplicative_inStep (hnested : InStepWithin P limit limit' nested nested') :
    InStepWithin P (limit + 1) (limit' + 1) (multiplicative limit nested)
      (multiplicative limit' nested') := by
  intro c c' hroom
  have hcall := call_inStep hnested
  refine (hcall hroom).bind_consuming hroom fun left c₁ c₁' hroom₁ => ?_
  exact binaryTail_inStep productOp_operators hcall (Nat.le_succ _) (Nat.le_succ _) hroom₁

theorem additive_inStep (hnested : InStepWithin P limit limit' nested nested') :
    InStepWithin P (limit + 1) (limit' + 1) (additive limit nested) (additive limit' nested') := by
  intro c c' hroom
  have hproduct := multiplicative_inStep hnested
  refine (hproduct hroom).bind_consuming hroom fun left c₁ c₁' hroom₁ => ?_
  exact binaryTail_inStep sumOp_operators hproduct (Nat.le_succ _) (Nat.le_succ _) hroom₁

/-! ## Object literals and assignments -/

theorem properties_inStep (hnested : InStepWithin P limit limit' nested nested')
    (hbound : bound ≤ limit) (hbound' : bound' ≤ limit') (hroom : P.Room bound bound' c c') :
    InStep P (properties nested bound) (properties nested' bound') c c' := by
  refine inStep_loop (s := ()) (x := fun n _ => properties nested n)
    (y := fun n _ => properties nested' n) (fun _ _ _ => properties_of_end)
    (fun _ _ _ => properties_of_end) ?_ hbound hbound' hroom
  intro n n' _ c c' hn hn' hroom ih
  refine inStep_kind hroom.pairs ?_
  generalize hkind : c.kind = kind
  cases kind with
  | closeCurly | endOfInput => exact inStep_pure _ hroom.pairs
  | identifier =>
    refine inStep_expect_of_ne (F := fun _ => ?_) hroom (by decide) fun hroom₁ => ?_
    · refine .bind fun behind => ?_
      split
      · infer_instance
      · infer_instance
      · refine .bind fun _ => .bind fun value => .bind fun last => ?_
        split <;> infer_instance
    · rw [value_eq hroom.pairs]
      refine inStep_kind hroom₁.pairs ?_
      generalize hnext : c.advance.kind = next
      cases next with
      | comma =>
        refine inStep_advance hroom₁.pairs fun hpairs => ?_
        refine (ih () _ _ (hroom₁.step hpairs)).bind ?_
        exact fun others _ _ _ _ hpairs₁ => inStep_pure _ hpairs₁
      | closeCurly => exact inStep_pure _ hroom₁.pairs
      | colon =>
        refine inStep_expect (F := fun _ => ?_) hroom₁.pairs fun _ hpairs => ?_
        · refine .bind fun value => .bind fun last => ?_
          split <;> infer_instance
        · have hroom₂ := hroom₁.step hpairs
          have hvalue := hnested (hroom₂.mono (Nat.le_of_lt hn) (Nat.le_of_lt hn'))
          refine hvalue.bind_room (F := fun _ => ?_) hroom₂ fun value c₁ c₁' hroom₃ => ?_
          · refine .bind fun last => ?_
            split <;> infer_instance
          · refine inStep_kind hroom₃.pairs ?_
            generalize hlast : c₁.kind = last
            cases last with
            | closeCurly => exact inStep_pure _ hroom₃.pairs
            | comma =>
              refine inStep_expect hroom₃.pairs fun _ hpairs => ?_
              refine (ih () _ _ (hroom₃.step hpairs)).bind ?_
              exact fun others _ _ _ _ hpairs₁ => inStep_pure _ hpairs₁
            | _ => exact inStep_expect_refused hroom₃.pairs (by rw [hlast]; decide)
      | _ => exact inStep_expect_refused hroom₁.pairs (by rw [hnext]; decide)
  | _ => exact inStep_expect_refused hroom.pairs (by rw [hkind]; decide)

theorem object_inStep (hnested : InStepWithin P limit limit' nested nested') :
    InStepWithin P (limit + 1) (limit' + 1) (object limit nested) (object limit' nested') := by
  intro c c' hroom
  refine inStep_kind hroom.pairs ?_
  generalize hkind : c.kind = kind
  cases kind with
  | openCurly =>
    refine inStep_advance_of_kind hroom hkind (by decide) fun hroom₁ => ?_
    refine (properties_inStep hnested (Nat.le_refl _) (Nat.le_refl _) hroom₁).bind ?_
    intro ps c₁ c₁' _ _ hpairs
    exact inStep_expect hpairs fun _ hpairs₁ => inStep_pure _ hpairs₁
  | _ => exact additive_inStep hnested hroom

theorem assignment_inStep (hnested : InStepWithin P limit limit' nested nested') :
    InStepWithin P (limit + 1) (limit' + 1) (assignment limit nested)
      (assignment limit' nested') := by
  intro c c' hroom
  refine (object_inStep hnested hroom).bind_consuming (F := fun _ => ?_) hroom
    fun target c₁ c₁' hroom₁ => ?_
  · refine .bind fun next => ?_
    split <;> infer_instance
  · refine inStep_kind hroom₁.pairs ?_
    generalize c₁.kind = kind
    cases kind with
    | assignment =>
      refine inStep_advance hroom₁.pairs fun hpairs => ?_
      refine (hnested (hroom₁.step hpairs)).bind ?_
      exact fun value _ _ _ _ hpairs₁ => inStep_pure _ hpairs₁
    | _ => exact inStep_pure _ hroom₁.pairs

end

/-! ## Closing the recursion -/

section

variable {P : Pairing} {c c' : Cursor}

theorem exprWithin_inStep (P : Pairing) (limit limit' : Nat) :
    InStepWithin P limit limit' (exprWithin limit) (exprWithin limit') := by
  intro c c' hroom
  refine inStep_rounds (s := ()) (x := fun n _ => exprWithin n) (y := fun n _ => exprWithin n)
    ?_ ?_ (Nat.le_refl limit) (Nat.le_refl limit') hroom
  · intro n n' _ c c' hpairs hend
    refine inStep_of_eq_error hpairs hpairs (fun _ => rfl) (exprWithin_of_end hend) ?_
    rw [← describe_eq hpairs]
    exact exprWithin_of_end ((kind_eq hpairs).trans hend)
  · intro n n' _ c c' _ _ hroom ih
    exact assignment_inStep (ih ()) hroom

/-- A level that takes its bounds from the tokens left needs no room. -/
theorem bounded_inStep {α : Type} {level : Nat → Parser Expr → Parser α}
    (hlevel : ∀ n n', InStepWithin P (n + 1) (n' + 1) (level n (exprWithin n))
      (level n' (exprWithin n'))) (h : P.Pairs c c') :
    InStep P (bounded level) (bounded level) c c' := by
  have hroom : P.Room (c.rest.length + 1) (c'.rest.length + 1) c c' :=
    ⟨h, Nat.le_succ _, Nat.le_succ _⟩
  exact (hlevel _ _ hroom).of_eq rfl rfl

theorem expression_inStep (h : P.Pairs c c') : InStep P expression expression c c' :=
  bounded_inStep (fun n n' => assignment_inStep (exprWithin_inStep P n n')) h

end

end Scriptlet.Parser
