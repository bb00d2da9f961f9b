import Scriptlet.Proofs.Expr.Sound
import Scriptlet.Proofs.Parse.Failure

/-!
# Failures of the readers of expressions

The failures of every reader of a level are explained by a token from where the reader starts
(`assignment_explained` and the theorems before it).  A part that is read behind others starts
where those have passed, and that they have passed anything is what their soundness says.

A reader of nested expressions is taken with its soundness and with the explanation of its
own failures, each where at most `limit` tokens are left.
-/

namespace Scriptlet

open Token (Kind)

/-- An expression that gives no name is not of the form of names. -/
theorem Expr.form_ne_identifier {e : Expr} (h : e.name? = none) : e.form ≠ .identifier := by
  intro hform
  cases e with
  | identifier name => cases h
  | assignment | binary | object | call | member | number | string => cases hform

/-- What stands behind a dot is blamed where it starts. -/
theorem Cursor.explains_nonIdentifierMember {c : Cursor} {form : Expr.Form}
    (hdot : c.kind = .dot) (hform : form ≠ .identifier) :
    c.Explains ⟨.nonIdentifierMember form, c.advance.current.span.start⟩ :=
  explains_of_remaining (c.remaining_eq_cons (by rw [hdot]; decide))
    ⟨hform, [], c.current, rfl, hdot⟩

namespace Parser

/-- The failures of a parser are explained from where it starts, where at most `limit` tokens
are left. -/
def ExplainedWithin {α : Type} (limit : Nat) (parser : Parser α) : Prop :=
  ∀ ⦃c : Cursor⦄, c.rest.length ≤ limit → Explained c parser c

section

variable {limit bound : Nat} {nested : Parser Expr} {c : Cursor}

/-- What is behind a nested expression starts with no more tokens left. -/
theorem ExplainedWithin.followed {α : Type} {f : Expr → Parser α}
    (hnested : ExplainedWithin limit nested) (hsound : SoundWithin limit nested)
    (hlen : c.rest.length ≤ limit)
    (hf : ∀ e c', c'.rest.length ≤ c.rest.length → Explained c' (f e) c') :
    Explained c (nested >>= f) c := by
  refine (hnested hlen).followed ?_
  intro e c' hrun
  obtain ⟨ts, hts, _⟩ := hsound hlen hrun
  have hlen' := hts.length_eq
  exact ⟨ts, hts, hf e c' (by omega)⟩

/-! ## Primary expressions and member accesses -/

theorem primary_explained (hnested : ExplainedWithin limit nested)
    (hsound : SoundWithin limit nested) (hlen : c.rest.length ≤ limit + 1) :
    Explained c (primary nested) c := by
  refine onFailure_bind_of_eq_ok rfl ?_
  generalize hkind : c.current.kind = kind
  split
  · exact onFailure_bind_of_eq_ok rfl (onFailure_pure _)
  · refine onFailure_bind_of_eq_ok rfl ?_
    split
    · exact onFailure_pure _
    next hread => exact onFailure_fail (Cursor.explains_current ⟨hkind, rfl, hread⟩)
  · exact onFailure_bind_of_eq_ok rfl (onFailure_pure _)
  · have hlen₁ := Cursor.length_rest_of_kind hkind (by decide)
    refine explained_advance hkind (by decide) (hnested.followed hsound (by omega) ?_)
    intro inner c₁ _
    exact (explained_expect _ _).bind fun _ _ _ => onFailure_pure _
  next hname hnumber hstring hparen =>
    refine explained_refuse ?_
    have hother : c.kind = kind := hkind
    rw [hother]
    simp only [List.mem_cons, List.not_mem_nil, or_false, not_or]
    exact ⟨hname, hnumber, hstring, hparen⟩

theorem memberTail_explained {owner : Expr} (hnested : ExplainedWithin limit nested)
    (hsound : SoundWithin limit nested) (hlen : c.rest.length ≤ limit) :
    Explained c (memberTail nested bound owner) c := by
  induction bound generalizing owner c with
  | zero => exact onFailure_pure _
  | succ bound ih =>
    refine onFailure_bind_of_eq_ok rfl ?_
    generalize hkind : c.kind = kind
    split
    · -- A property of another form is blamed from the dot on, so the dot is kept in view.
      have hdot := passes_of_kind hkind (by decide)
      have hlen₁ := hdot.length_eq
      simp only [List.length_singleton] at hlen₁
      refine onFailure_bind_of_eq_ok rfl (onFailure_bind_of_eq_ok rfl (OnFailure.bind ?_ ?_))
      · exact (primary_explained hnested hsound (by omega)).of_passes hdot
      · intro property c₁ hproperty
        obtain ⟨ts, hts, _⟩ := primary_sound hsound (by omega) hproperty
        have hlen₂ := hts.length_eq
        split
        · exact (ih (by omega)).of_passes (hdot.trans hts)
        next hname =>
          exact onFailure_fail
            (Cursor.explains_nonIdentifierMember hkind (Expr.form_ne_identifier hname))
    · have hlen₁ := Cursor.length_rest_of_kind hkind (by decide)
      refine explained_advance hkind (by decide) (hnested.followed hsound (by omega) ?_)
      intro property c₁ hlen₂
      refine explained_expect_bind (by decide) fun hclose => ih ?_
      have hlen₃ := Cursor.length_rest_of_kind hclose (by decide)
      omega
    · exact onFailure_pure _

theorem member_explained (hnested : ExplainedWithin limit nested)
    (hsound : SoundWithin limit nested) (hlen : c.rest.length ≤ limit + 1) :
    Explained c (member bound nested) c := by
  refine (primary_explained hnested hsound hlen).followed ?_
  intro owner c₁ howner
  obtain ⟨us, hus, hderives⟩ := primary_sound hsound hlen howner
  have hlen₁ := hus.length_eq
  have hpos := List.length_pos_iff.2 hderives.ne_nil
  exact ⟨us, hus, memberTail_explained hnested hsound (by omega)⟩

/-! ## Arguments and calls -/

theorem argumentsTail_explained (hnested : ExplainedWithin limit nested)
    (hsound : SoundWithin limit nested) (hlen : c.rest.length ≤ limit) :
    Explained c (argumentsTail nested bound) c := by
  induction bound generalizing c with
  | zero => exact onFailure_pure _
  | succ bound ih =>
    refine onFailure_bind_of_eq_ok rfl ?_
    generalize hkind : c.kind = kind
    split
    · have hlen₁ := Cursor.length_rest_of_kind hkind (by decide)
      refine explained_advance hkind (by decide) (hnested.followed hsound (by omega) ?_)
      intro argument c₁ hlen₂
      exact (ih (by omega)).bind fun _ _ _ => onFailure_pure _
    · exact onFailure_pure _

theorem argumentsOpen_explained (hnested : ExplainedWithin limit nested)
    (hsound : SoundWithin limit nested) (hlen : c.rest.length ≤ limit) :
    Explained c (argumentsOpen bound nested) c := by
  refine onFailure_bind_of_eq_ok rfl ?_
  split
  · exact onFailure_pure _
  · refine hnested.followed hsound hlen ?_
    intro argument c₁ hlen₁
    exact (argumentsTail_explained hnested hsound (by omega)).bind fun _ _ _ => onFailure_pure _

theorem arguments_explained (hnested : ExplainedWithin limit nested)
    (hsound : SoundWithin limit nested) (hlen : c.rest.length ≤ limit + 1) :
    Explained c (arguments bound nested) c := by
  refine explained_expect_bind (by decide) fun hopen => ?_
  have hlen₁ := Cursor.length_rest_of_kind hopen (by decide)
  refine (argumentsOpen_explained hnested hsound (by omega)).followed ?_
  intro es c₁ hes
  obtain ⟨us, hus, _⟩ := argumentsOpen_sound hsound (by omega) hes
  exact ⟨us, hus, (explained_expect _ _).bind fun _ _ _ => onFailure_pure _⟩

theorem callTail_explained {callee : Expr} (hnested : ExplainedWithin limit nested)
    (hsound : SoundWithin limit nested) (hlen : c.rest.length ≤ limit) :
    Explained c (callTail nested bound callee) c := by
  induction bound generalizing callee c with
  | zero => exact onFailure_pure _
  | succ bound ih =>
    refine onFailure_bind_of_eq_ok rfl ?_
    split
    · refine (arguments_explained hnested hsound (by omega)).followed ?_
      intro es c₁ hes
      obtain ⟨l, r, us, hus, _⟩ := arguments_sound hsound (by omega) hes
      have hlen₁ := hus.length_eq
      exact ⟨_, hus, ih (by omega)⟩
    · exact onFailure_pure _

theorem call_explained (hnested : ExplainedWithin limit nested)
    (hsound : SoundWithin limit nested) (hlen : c.rest.length ≤ limit + 1) :
    Explained c (call bound nested) c := by
  refine (member_explained hnested hsound hlen).followed ?_
  intro callee c₁ hcallee
  obtain ⟨us, hus, hderives⟩ := member_sound hsound hlen hcallee
  have hlen₁ := hus.length_eq
  have hpos := List.length_pos_iff.2 hderives.ne_nil
  exact ⟨us, hus, callTail_explained hnested hsound (by omega)⟩

/-! ## Products and sums -/

theorem binaryTail_explained {op? : Kind → Option BinaryOp} {operand : Parser Expr}
    {level : Level} {left : Expr} (hop : Operators op? level)
    (hoperand : ExplainedWithin limit operand) (hsound : OperandSound limit level.tighter operand)
    (hlen : c.rest.length ≤ limit) : Explained c (binaryTail op? operand bound left) c := by
  induction bound generalizing left c with
  | zero => exact onFailure_pure _
  | succ bound ih =>
    refine onFailure_bind_of_eq_ok rfl ?_
    split
    next op hfound =>
      obtain ⟨_, hkind⟩ := hop.1 hfound
      have hsign : op.kind ≠ .endOfInput := by cases op <;> decide
      have hlen₁ := Cursor.length_rest_of_kind hkind hsign
      refine explained_advance hkind hsign ((hoperand (by omega)).followed ?_)
      intro right c₁ hright
      obtain ⟨vs, hvs, _⟩ := hsound (by omega) hright
      have hlen₂ := hvs.length_eq
      exact ⟨vs, hvs, ih (by omega)⟩
    · exact onFailure_pure _

theorem multiplicative_explained (hnested : ExplainedWithin limit nested)
    (hsound : SoundWithin limit nested) (hbound : limit ≤ bound) :
    ExplainedWithin (limit + 1) (multiplicative bound nested) := by
  intro c hlen
  have hcall : ExplainedWithin (limit + 1) (call bound nested) :=
    fun _ => call_explained hnested hsound
  have hcalls : OperandSound (limit + 1) .call (call bound nested) :=
    fun _ _ _ hlen' => call_sound hsound hlen' hbound
  refine (hcall hlen).followed ?_
  intro left c₁ hleft
  obtain ⟨us, hus, _⟩ := hcalls hlen hleft
  have hlen₁ := hus.length_eq
  exact ⟨us, hus, binaryTail_explained productOp_operators hcall hcalls (by omega)⟩

theorem additive_explained (hnested : ExplainedWithin limit nested)
    (hsound : SoundWithin limit nested) (hbound : limit ≤ bound) :
    ExplainedWithin (limit + 1) (additive bound nested) := by
  intro c hlen
  have hproduct := multiplicative_explained hnested hsound hbound
  have hproducts := multiplicative_sound hsound hbound
  refine (hproduct hlen).followed ?_
  intro left c₁ hleft
  obtain ⟨us, hus, _⟩ := hproducts hlen hleft
  have hlen₁ := hus.length_eq
  exact ⟨us, hus, binaryTail_explained sumOp_operators hproduct hproducts (by omega)⟩

/-! ## Object literals and assignments -/

theorem properties_explained (hnested : ExplainedWithin limit nested)
    (hsound : SoundWithin limit nested) (hlen : c.rest.length ≤ limit) :
    Explained c (properties nested bound) c := by
  induction bound generalizing c with
  | zero => exact onFailure_pure _
  | succ bound ih =>
    refine onFailure_bind_of_eq_ok rfl ?_
    split
    · exact onFailure_pure _
    · exact onFailure_pure _
    · refine explained_expect_bind (by decide) fun hkey => onFailure_bind_of_eq_ok rfl ?_
      have hlen₁ := Cursor.length_rest_of_kind hkey (by decide)
      generalize hnext : c.advance.kind = next
      split
      · have hlen₂ := Cursor.length_rest_of_kind hnext (by decide)
        refine explained_advance hnext (by decide) ?_
        exact (ih (by omega)).bind fun _ _ _ => onFailure_pure _
      · exact onFailure_pure _
      · refine explained_expect_bind (by decide) fun hcolon => ?_
        have hlen₂ := Cursor.length_rest_of_kind hcolon (by decide)
        refine hnested.followed hsound (by omega) fun value c₁ hlen₃ => ?_
        refine onFailure_bind_of_eq_ok rfl ?_
        split
        · exact onFailure_pure _
        · refine explained_expect_bind (by decide) fun hcomma => ?_
          have hlen₄ := Cursor.length_rest_of_kind hcomma (by decide)
          exact (ih (by omega)).bind fun _ _ _ => onFailure_pure _

theorem object_explained (hnested : ExplainedWithin limit nested)
    (hsound : SoundWithin limit nested) (hlen : c.rest.length ≤ limit + 1)
    (hbound : limit ≤ bound) : Explained c (object bound nested) c := by
  refine onFailure_bind_of_eq_ok rfl ?_
  generalize hkind : c.kind = kind
  split
  · have hlen₁ := Cursor.length_rest_of_kind hkind (by decide)
    refine explained_advance hkind (by decide) ?_
    refine (properties_explained hnested hsound (by omega)).followed ?_
    intro ps c₁ hps
    obtain ⟨ts, hts, _⟩ := properties_sound hsound (by omega) hps
    exact ⟨ts, hts, (explained_expect _ _).bind fun _ _ _ => onFailure_pure _⟩
  · exact additive_explained hnested hsound hbound hlen

theorem assignment_explained (hnested : ExplainedWithin limit nested)
    (hsound : SoundWithin limit nested) (hbound : limit ≤ bound) :
    ExplainedWithin (limit + 1) (assignment bound nested) := by
  intro c hlen
  refine (object_explained hnested hsound hlen hbound).followed ?_
  intro target c₁ htarget
  obtain ⟨us, hus, _⟩ := object_sound hsound hlen hbound htarget
  have hlen₁ := hus.length_eq
  refine ⟨us, hus, onFailure_bind_of_eq_ok rfl ?_⟩
  generalize hkind : c₁.kind = kind
  split
  · have hlen₂ := Cursor.length_rest_of_kind hkind (by decide)
    refine explained_advance hkind (by decide) ?_
    exact (hnested (by omega)).bind fun _ _ _ => onFailure_pure _
  · exact onFailure_pure _

end

/-! ## Closing the recursion -/

theorem exprWithin_explained (limit : Nat) : ExplainedWithin limit (exprWithin limit) := by
  induction limit with
  | zero => exact fun _ => explained_refuse_of_length
  | succ limit ih => exact assignment_explained ih (exprWithin_sound limit) (Nat.le_refl limit)

theorem expression_explained (c : Cursor) : Explained c expression c :=
  assignment_explained (exprWithin_explained _) (exprWithin_sound c.rest.length) (Nat.le_refl _)
    (Nat.le_succ _)

end Parser

end Scriptlet
