import Mathlib
import Scriptlet.Proofs.Expr.Failure
import Scriptlet.Proofs.Program.Complete

/-!
# Failures of the readers of statements

A program that is not read is refused at one of its tokens, and what the failure says is true
of that token and of those right before it (`error_ofTokens_describes`).

Two readers blame a token for what stands before it: a binding blames the end of the input for
a constant without a value, and a heading blames the `(` for its parameters.  There the tokens
passed over are kept in view.
-/

namespace Scriptlet

open Token (Kind)

namespace Cursor

variable {c : Cursor}

/-- A constant without a value is blamed where the input ends. -/
theorem explains_missingConstInitializer (hword : c.kind = .constWord)
    (hname : c.advance.kind = .identifier) (hend : c.advance.advance.kind = .endOfInput) :
    c.Explains ⟨.missingConstInitializer c.advance.current.value,
      c.advance.advance.current.span.start⟩ := by
  have hremaining : c.remaining =
      [c.current, c.advance.current] ++ c.advance.advance.remaining := by
    rw [c.remaining_eq_cons (by rw [hword]; decide),
      c.advance.remaining_eq_cons (by rw [hname]; decide)]
    rfl
  exact explains_of_remaining hremaining
    ⟨hend, [], c.current, c.advance.current, rfl, hword, hname, rfl⟩

/-- A parameter that is no name is blamed where the parameters open. -/
theorem explains_nonIdentifierParameter {form : Expr.Form} (hname : c.kind = .identifier)
    (hopen : c.advance.kind = .openParen) (hform : form ≠ .identifier) :
    c.Explains ⟨.nonIdentifierParameter c.current.value form,
      c.advance.current.span.start⟩ :=
  explains_of_remaining (c.remaining_eq_cons (by rw [hname]; decide))
    ⟨hform, hopen, [], c.current, rfl, hname, rfl⟩

end Cursor

namespace Parser

section

variable {mode : Detection} {limit bound : Nat} {c : Cursor}

/-! ## Bindings -/

theorem binding_explained (hword : c.kind = .letWord ∨ c.kind = .constWord) :
    Explained c binding c := by
  have hfirst : c.Passes [c.current.terminal] c.advance :=
    Cursor.passes_advance (by rcases hword with hw | hw <;> rw [hw] <;> decide)
  refine onFailure_bind_of_eq_ok rfl (OnFailure.bind ?_ ?_)
  · exact (explained_expect _ _).of_passes hfirst
  intro name c₁ hname
  obtain ⟨hnamekind, rfl, rfl⟩ := expect_eq_ok_iff.1 hname
  refine onFailure_bind_of_eq_ok rfl ?_
  generalize hnext : c.advance.advance.current.kind = next
  generalize hw : c.current.kind = word
  split
  · exact onFailure_fail (Cursor.explains_missingConstInitializer hw hnamekind hnext)
  · exact onFailure_pure _
  · refine Explained.of_passes (hfirst.trans (passes_of_kind hnamekind (by decide))) ?_
    refine explained_expect_bind (by decide) fun _ => ?_
    exact (expression_explained _).bind fun _ _ _ => onFailure_pure _

/-! ## Bodies -/

theorem statements_explained {ends : Kind → Bool} {statement : Parser Stmt}
    (hstatement : ExplainedWithin limit statement) (hsound : SoundStatement mode limit statement)
    (hlen : c.rest.length ≤ limit) : Explained c (statements ends statement bound) c := by
  induction bound generalizing c with
  | zero => exact onFailure_pure _
  | succ bound ih =>
    refine onFailure_bind_of_eq_ok rfl ?_
    split
    · exact onFailure_pure _
    · refine (hstatement hlen).followed ?_
      intro s c₁ hs
      obtain ⟨us, hus, _⟩ := hsound hlen hs
      have hlen₁ := hus.length_eq
      exact ⟨us, hus, (ih (by omega)).bind fun _ _ _ => onFailure_pure _⟩

/-! ## Function declarations -/

/-- Looking for the word `async` never fails. -/
theorem asyncModifier_passes (c : Cursor) :
    ∃ isAsync c' ts, asyncModifier c = .ok isAsync c' ∧ c.Passes ts c' := by
  cases hasync : Detection.isAsyncWord c.current.terminal with
  | false => exact ⟨false, c, [], asyncModifier_of_other hasync, .refl c⟩
  | true =>
    have hkind : c.kind = .identifier := Detection.kind_of_isAsyncWord hasync
    exact ⟨true, c.advance, _, asyncModifier_of_word hasync, passes_of_kind hkind (by decide)⟩

/-- The form that is refused as a parameter is not that of names. -/
theorem parameterNames_ne_identifier {es : List Expr} {form : Expr.Form}
    (h : parameterNames es = .error form) : form ≠ .identifier := by
  induction es with
  | nil => cases h
  | cons e es ih =>
    rw [parameterNames] at h
    split at h
    · cases hnames : parameterNames es with
      | ok names =>
        rw [hnames] at h
        cases h
      | error form' =>
        rw [hnames] at h
        cases h
        exact ih hnames
    next hname =>
      cases h
      exact Expr.form_ne_identifier hname

theorem heading_explained (c : Cursor) : Explained c heading c := by
  obtain ⟨isAsync, c₁, ts, hmodifier, hts⟩ := asyncModifier_passes c
  refine onFailure_bind_of_eq_ok hmodifier (Explained.of_passes hts ?_)
  refine OnFailure.bind (explained_expect _ _) ?_
  intro name c₂ hname
  obtain ⟨hnamekind, rfl, rfl⟩ := expect_eq_ok_iff.1 hname
  have hpasses := passes_of_kind hnamekind (by decide)
  refine onFailure_bind_of_eq_ok rfl (OnFailure.bind ?_ ?_)
  · exact (arguments_explained (exprWithin_explained _) (exprWithin_sound c₁.advance.rest.length)
      (Nat.le_succ _)).of_passes hpasses
  intro es c₂ hes
  obtain ⟨l, r, us, hus, hl, _⟩ :=
    arguments_sound (exprWithin_sound c₁.advance.rest.length) (Nat.le_succ _) hes
  split
  next form hnames =>
    exact onFailure_fail (Cursor.explains_nonIdentifierParameter hnamekind
      (hus.kind_eq.trans hl) (parameterNames_ne_identifier hnames))
  · refine Explained.of_passes (hpasses.trans hus) ?_
    exact (explained_expect _ _).bind fun _ _ _ => onFailure_pure _

theorem function_explained {statement : Parser Stmt}
    (hstatement : ExplainedWithin limit statement) (hsound : SoundStatement mode limit statement)
    (hlen : c.rest.length ≤ limit + 1) (hbound : limit ≤ bound) :
    Explained c (function bound statement) c := by
  refine (heading_explained c).followed ?_
  intro head c₁ hhead
  obtain ⟨hs, hhs, hopens⟩ := heading_sound hhead
  have hlen₁ := hhs.length_eq
  have hpos := List.length_pos_iff.2 hopens.ne_nil
  refine ⟨hs, hhs, (statements_explained hstatement hsound (by omega)).followed ?_⟩
  intro ss c₂ hss
  obtain ⟨bs, hbs, _⟩ := statements_sound (fun _ => endsBody_mem) (by decide) hsound
    (by omega) (by omega) hss
  exact ⟨bs, hbs, (explained_expect _ _).bind fun _ _ _ => onFailure_pure _⟩

/-! ## Statements -/

theorem statementOver_explained {inner : Parser Stmt} (hinner : ExplainedWithin limit inner)
    (hsound : SoundStatement mode limit inner) (hbound : limit ≤ bound) :
    ExplainedWithin (limit + 1) (statementOver mode bound inner) := by
  intro c hlen
  refine onFailure_bind_of_eq_ok rfl ?_
  split
  · exact function_explained hinner hsound hlen hbound
  · refine onFailure_bind_of_eq_ok rfl ?_
    generalize hkind : c.kind = kind
    split
    · exact binding_explained (.inl hkind)
    · exact binding_explained (.inr hkind)
    · exact (expression_explained c).bind fun _ _ _ => onFailure_pure _

theorem statementWithin_explained (mode : Detection) (limit : Nat) :
    ExplainedWithin limit (statementWithin mode limit) := by
  induction limit with
  | zero => exact fun _ => explained_refuse_of_length
  | succ limit ih =>
    exact statementOver_explained ih (statementWithin_sound mode limit) (Nat.le_refl limit)

theorem program_explained (mode : Detection) (c : Cursor) : Explained c (program mode) c := by
  refine OnFailure.bind ?_ fun _ _ _ => onFailure_pure _
  exact statements_explained (statementWithin_explained mode _) (statementWithin_sound mode _)
    (Nat.le_refl _)

end

end Parser

namespace Program

variable {mode : Detection} {tokens : List Token} {c : Cursor} {d : Diagnostic}

/-- A failure of a program stands where one of its tokens starts, and what it says is true of
that token and of those before it. -/
theorem error_ofTokens_describes (hc : Cursor.ofTokens tokens = .ok c)
    (h : ofTokens mode tokens = .error d) :
    ∃ (before : List Token) (t : Token) (after : List Token), tokens = before ++ t :: after ∧
      d.position = t.span.start ∧ d.cause.TrueOf before t := by
  have hrun : (Parser.program mode).outcome c = .error d := by
    rw [ofTokens, hc] at h
    exact h
  obtain rfl := Cursor.remaining_of_ofTokens hc
  unfold Parser.outcome at hrun
  split at hrun
  next => cases hrun
  next hfails =>
    cases hrun
    exact Parser.program_explained mode c hfails

/-- A string among the parameters of an inner declaration is blamed on its `(`. -/
theorem error_ofTokens_describes_parameter : ∃ (tokens : List Token) (c : Cursor)
    (d : Diagnostic), Token.ofSource "" "f() \x7b async g(a, \"b\") \x7b\x7d \x7d" = .ok tokens ∧
      Cursor.ofTokens tokens = .ok c ∧ ofTokens .anchored tokens = .error d ∧
      d = ⟨.nonIdentifierParameter "g" .string, .ofNat "" 13⟩ ∧
      ∃ (before : List Token) (t : Token) (after : List Token), tokens = before ++ t :: after ∧
        d.position = t.span.start ∧ d.cause.TrueOf before t := by
  have hrun : ∃ (tokens : List Token) (c : Cursor) (d : Diagnostic),
      Token.ofSource "" "f() \x7b async g(a, \"b\") \x7b\x7d \x7d" = .ok tokens ∧
        Cursor.ofTokens tokens = .ok c ∧ ofTokens .anchored tokens = .error d ∧
        d = ⟨.nonIdentifierParameter "g" .string, .ofNat "" 13⟩ := by
    refine ⟨_, ⟨_, _, ?_, ?_⟩, _, by cbv, by cbv, by cbv, rfl⟩
    · decide
    · rfl
  obtain ⟨tokens, c, d, htokens, hc, hfails, hd⟩ := hrun
  exact ⟨tokens, c, d, htokens, hc, hfails, hd, error_ofTokens_describes hc hfails⟩

end Program

end Scriptlet
