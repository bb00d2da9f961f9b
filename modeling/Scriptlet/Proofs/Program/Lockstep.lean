import Mathlib
import Scriptlet.Proofs.Expr.Reach
import Scriptlet.Proofs.Program.Complete
import Scriptlet.Proofs.Program.Forward
import Scriptlet.Proofs.Program.Source
import Scriptlet.Proofs.Token.Relaid

/-!
# Layout plays no part

Where the tokens of a program stand decides nothing but the place of a failure.  Two token lists
that say the same are read in step, statement by statement, and a failure is blamed on tokens at
one place of the two lists.

`Program.layout_plays_no_part` says so of token lists and of sources.
-/

namespace Scriptlet

open Pairing
open Token (Kind)

namespace Parser

/-- Cursors that belong together stand before the same terminals, so the lookahead finds the
same. -/
def Detects (mode : Detection) (P : Pairing) : Prop :=
  ∀ ⦃c c' : Cursor⦄, P.Pairs c c' → mode.detects c'.remaining = mode.detects c.remaining

section

variable {P : Pairing} {mode : Detection} {c c' : Cursor} {limit limit' bound bound' : Nat}
  {inner inner' : Parser Stmt}

/-! ## Bindings and headings -/

theorem binding_inStep (h : P.Pairs c c') : InStep P binding binding c c' := by
  refine inStep_advance (F := fun _ => ?_) h fun hpairs => ?_
  · refine .bind fun name => .bind fun next => ?_
    split <;> infer_instance
  · have hkind : c'.current.kind = c.current.kind := kind_eq h
    rw [value_eq h, hkind]
    generalize c.current.kind = word
    refine inStep_expect (F := fun _ => ?_) hpairs fun _ hpairs₁ => inStep_current ?_
    · refine .bind fun next => ?_
      split <;> infer_instance
    · have hnext : c'.advance.advance.current.kind = c.advance.advance.current.kind :=
        kind_eq hpairs₁
      rw [value_eq hpairs, hnext]
      generalize c.advance.advance.current.kind = next
      cases next with
      | endOfInput =>
        cases word with
        | constWord => exact inStep_fail rfl hpairs₁ hpairs₁
        | _ => exact inStep_pure _ hpairs₁
      | _ =>
        refine inStep_expect hpairs₁ fun _ hpairs₂ => ?_
        exact (expression_inStep hpairs₂).bind fun value _ _ _ _ hpairs₃ => inStep_pure _ hpairs₃

theorem asyncModifier_inStep (h : P.Pairs c c') : InStep P asyncModifier asyncModifier c c' := by
  refine inStep_current ?_
  rw [P.terminal_eq h]
  split
  · exact inStep_advance h fun hpairs => inStep_pure _ hpairs
  · exact inStep_pure _ h

theorem heading_inStep (h : P.Pairs c c') : InStep P heading heading c c' := by
  refine (asyncModifier_inStep h).bind (F := fun _ => ?_) fun isAsync c₁ c₁' _ _ h₁ => ?_
  · refine .bind fun name => .bind fun opening => .bind fun parameters => ?_
    split <;> infer_instance
  · refine inStep_expect (F := fun _ => ?_) h₁ fun _ h₂ => inStep_current ?_
    · refine .bind fun opening => .bind fun parameters => ?_
      split <;> infer_instance
    · rw [value_eq h₁]
      have harguments : InStep P (bounded arguments) (bounded arguments) c₁.advance c₁'.advance :=
        bounded_inStep (fun n n' _ _ => arguments_inStep (exprWithin_inStep P n n') (Nat.le_refl n)
          (Nat.le_refl n')) h₂
      refine harguments.bind (F := fun _ => ?_) fun es c₂ c₂' _ _ h₃ => ?_
      · split <;> infer_instance
      · cases parameterNames es with
        | error form => exact inStep_fail rfl h₃ h₂
        | ok parameters => exact inStep_expect h₃ fun _ h₄ => inStep_pure _ h₄

/-! ## Statements -/

theorem statements_inStep [Consuming inner] [Consuming inner'] {ends : Kind → Bool}
    (hends : ends .endOfInput) (hinner : InStepWithin P limit limit' inner inner')
    (hbound : bound ≤ limit) (hbound' : bound' ≤ limit') (hroom : P.Room bound bound' c c') :
    InStep P (statements ends inner bound) (statements ends inner' bound') c c' := by
  have hstop (statement : Parser Stmt) (n : Nat) (_ : Unit) (c : Cursor)
      (hend : c.kind = .endOfInput) : statements ends statement n c = .ok [] c :=
    statements_of_ends (by rw [hend]; exact hends)
  refine inStep_loop (s := ()) (x := fun n _ => statements ends inner n)
    (y := fun n _ => statements ends inner' n) (hstop inner) (hstop inner') ?_ hbound hbound' hroom
  intro n n' _ c c' hn hn' hroom ih
  refine inStep_kind hroom.pairs ?_
  split
  · exact inStep_pure _ hroom.pairs
  · refine (hinner (hroom.mono hn hn')).bind_consuming hroom fun first c₁ c₁' hroom₁ => ?_
    exact (ih () _ _ hroom₁).bind fun others _ _ _ _ hpairs => inStep_pure _ hpairs

theorem function_inStep [Consuming inner] [Consuming inner']
    (hinner : InStepWithin P limit limit' inner inner')
    (hroom : P.Room (limit + 1) (limit' + 1) c c') :
    InStep P (function limit inner) (function limit' inner') c c' := by
  refine (heading_inStep hroom.pairs).bind_consuming hroom fun head c₁ c₁' hroom₁ => ?_
  refine (statements_inStep rfl hinner (Nat.le_refl _) (Nat.le_refl _) hroom₁).bind ?_
  intro body c₂ c₂' _ _ hpairs
  exact inStep_expect hpairs fun _ hpairs₁ => inStep_pure _ hpairs₁

theorem statementOver_inStep [Consuming inner] [Consuming inner'] (hdetects : Detects mode P)
    (hinner : InStepWithin P limit limit' inner inner') :
    InStepWithin P (limit + 1) (limit' + 1) (statementOver mode limit inner)
      (statementOver mode limit' inner') := by
  intro c c' hroom
  have hdetected : startsFunction mode c' = .ok (mode.detects c.remaining) c' := by
    rw [← hdetects hroom.pairs]
    rfl
  refine inStep_bind_of_eq_ok rfl hdetected ?_
  split
  · exact function_inStep hinner hroom
  · refine inStep_kind hroom.pairs ?_
    generalize c.kind = kind
    cases kind with
    | letWord | constWord => exact binding_inStep hroom.pairs
    | _ =>
      exact (expression_inStep hroom.pairs).bind fun e _ _ _ _ hpairs => inStep_pure _ hpairs

/-- No statement starts at the end of the input, whatever the bound is. -/
theorem statementWithin_of_end (h : c.kind = .endOfInput) :
    statementWithin mode bound c =
      .error ⟨.unrecognisedPrimary c.current.describe, c.position⟩ c := by
  cases bound with
  | zero => rfl
  | succ bound =>
    have hdetected : startsFunction mode c = .ok false c := by
      rw [startsFunction, Detection.detects_remaining]
      cases hfound : mode.recognises c.terminals with
      | false => rfl
      | true =>
        have hname := Detection.headKind_of_recognises hfound
        rw [← c.kind_eq_headKind, h] at hname
        cases hname
    have hexpression : exprWithin (c.rest.length + 1) c =
        .error ⟨.unrecognisedPrimary c.current.describe, c.position⟩ c := exprWithin_of_end h
    refine (bind_of_eq_ok hdetected).trans ((bind_of_eq_ok run_kind).trans ?_)
    rw [h]
    exact bind_of_eq_error hexpression

theorem statementWithin_inStep (hdetects : Detects mode P) (limit limit' : Nat) :
    InStepWithin P limit limit' (statementWithin mode limit) (statementWithin mode limit') := by
  intro c c' hroom
  refine inStep_rounds (s := ()) (x := fun n _ => statementWithin mode n)
    (y := fun n _ => statementWithin mode n) ?_ ?_ (Nat.le_refl limit) (Nat.le_refl limit') hroom
  · intro n n' _ c c' hpairs hend
    refine inStep_of_eq_error hpairs hpairs (fun _ => rfl) (statementWithin_of_end hend) ?_
    rw [← describe_eq hpairs]
    exact statementWithin_of_end ((kind_eq hpairs).trans hend)
  · intro n n' _ c c' _ _ hroom ih
    exact statementOver_inStep hdetects (ih ()) hroom

/-! ## Whole programs -/

theorem program_inStep (hdetects : Detects mode P) (h : P.Pairs c c') :
    InStep P (program mode) (program mode) c c' := by
  have hroom : P.Room c.rest.length c'.rest.length c c' := ⟨h, Nat.le_refl _, Nat.le_refl _⟩
  have hinner := statementWithin_inStep hdetects c.rest.length c'.rest.length
  have hbody : InStep P
      (statements endsProgram (statementWithin mode c.rest.length) c.rest.length)
      (statements endsProgram (statementWithin mode c'.rest.length) c'.rest.length) c c' :=
    statements_inStep rfl hinner (Nat.le_refl _) (Nat.le_refl _) hroom
  exact InStep.bind (hbody.of_eq rfl rfl) fun body _ _ _ _ hpairs => inStep_pure _ hpairs

end

end Parser

namespace Program

variable {mode : Detection}

/-! ## Lists that say the same -/

/-- Lists that say the same have like tokens at every place. -/
theorem exists_tokens_of_same {tokens tokens' : List Token} {i : Nat}
    (hsame : tokens'.map Token.terminal = tokens.map Token.terminal) (hi : i < tokens.length) :
    ∃ t t', tokens[i]? = some t ∧ tokens'[i]? = some t' ∧ t'.terminal = t.terminal := by
  have hmapped : (tokens'.map Token.terminal)[i]? = (tokens.map Token.terminal)[i]? := by rw [hsame]
  have ht := List.getElem?_eq_getElem hi
  rw [List.getElem?_map, List.getElem?_map, ht, Option.map_some] at hmapped
  obtain ⟨t', ht', hterminal⟩ := Option.map_eq_some_iff.1 hmapped
  exact ⟨_, t', ht, ht', hterminal⟩

/-- Token lists that say the same give the same program, or the same failure at one place of
both. -/
theorem ofTokens_same {c c' : Cursor}
    (hsame : c'.remaining.map Token.terminal = c.remaining.map Token.terminal) :
    (∃ p, ofTokens mode c.remaining = .ok p ∧ ofTokens mode c'.remaining = .ok p) ∨
      ∃ (cause : Cause) (i : Nat) (t t' : Token),
        c.remaining[i]? = some t ∧ c'.remaining[i]? = some t' ∧
        ofTokens mode c.remaining = .error ⟨cause, t.span.start⟩ ∧
        ofTokens mode c'.remaining = .error ⟨cause, t'.span.start⟩ := by
  have hplace {i : Nat} (hi : i ≤ c.rest.length) : i < c.remaining.length := by
    rw [Cursor.length_remaining]
    omega
  let P := Pairing.samePlace c c' 0 c.rest.length fun i _ hi => by
    obtain ⟨t, t', ht, ht', hterminal⟩ := exists_tokens_of_same hsame (hplace hi)
    rw [Cursor.current_skip ht, Cursor.current_skip ht', hterminal]
  have hdetects : Parser.Detects mode P := by
    rintro _ _ ⟨i, _, hi, rfl, rfl⟩
    obtain ⟨_, _, _, ht', _⟩ := exists_tokens_of_same hsame (hplace hi)
    have hplace' := (List.getElem?_eq_some_iff.1 ht').1
    rw [Detection.detects, Detection.detects, Cursor.remaining_skip (hplace hi),
      Cursor.remaining_skip hplace', List.map_drop, List.map_drop, hsame]
  have hstart : P.Pairs c c' := ⟨0, Nat.le_refl 0, Nat.zero_le _, rfl, rfl⟩
  obtain ⟨r, c₁, hends⟩ := Parser.exists_ends (Parser.program mode) c
  have hwithin : (c.skip c.rest.length).rest.length ≤ c₁.rest.length := by
    rw [Cursor.rest_skip, List.drop_length]
    exact Nat.zero_le _
  obtain ⟨r', c₁', hends', _, houtcome⟩ :=
    Parser.program_inStep hdetects hstart hends hwithin
  have hrun := ofTokens_of_ends hends
  have hrun' := ofTokens_of_ends hends'
  cases houtcome with
  | ok p => exact .inl ⟨p, hrun, hrun'⟩
  | error cause hk _ =>
    obtain ⟨i, _, hi, rfl, rfl⟩ := hk
    obtain ⟨t, t', ht, ht', _⟩ := exists_tokens_of_same hsame (hplace hi)
    rw [Cursor.position, Cursor.current_skip ht] at hrun
    rw [Cursor.position, Cursor.current_skip ht'] at hrun'
    exact .inr ⟨cause, i, t, t', ht, ht', hrun, hrun'⟩

/-- The layout of a program and the name of its file decide nothing but the place of a failure.
Two token lists that differ in the places of their tokens give the same program, or the same
failure at tokens that stand at one place of the two lists.  So two sources that differ in their
blanks, in their comments and in the way their strings are written give the same program, or
fail for the same cause. -/
theorem layout_plays_no_part (mode : Detection) :
    (∀ (tokens tokens' : List Token) (c c' : Cursor),
      Cursor.ofTokens tokens = .ok c → Cursor.ofTokens tokens' = .ok c' →
      tokens'.map Token.terminal = tokens.map Token.terminal →
        (∃ p, ofTokens mode tokens = .ok p ∧ ofTokens mode tokens' = .ok p) ∨
          ∃ (cause : Cause) (i : Nat) (t t' : Token), tokens[i]? = some t ∧ tokens'[i]? = some t' ∧
            ofTokens mode tokens = .error ⟨cause, t.span.start⟩ ∧
            ofTokens mode tokens' = .error ⟨cause, t'.span.start⟩) ∧
    ∀ file file' source source' : String, Token.Relaid source.toList source'.toList →
      (∃ p, ofSource mode file source = .ok p ∧ ofSource mode file' source' = .ok p) ∨
        ∃ (cause : Cause) (place place' : Position),
          ofSource mode file source = .error ⟨cause, place⟩ ∧
          ofSource mode file' source' = .error ⟨cause, place'⟩ := by
  constructor
  · intro tokens tokens' c c' hc hc' hsame
    obtain rfl := Cursor.remaining_of_ofTokens hc
    obtain rfl := Cursor.remaining_of_ofTokens hc'
    exact ofTokens_same hsame
  · intro file file' source source' hrelaid
    obtain ⟨tokens, tokens', htokens, htokens', hsame⟩ := (Token.relaid_iff file file').1 hrelaid
    obtain ⟨c, rfl, _⟩ := exists_cursor_of_ofSource htokens
    obtain ⟨c', rfl, _⟩ := exists_cursor_of_ofSource htokens'
    rw [ofSource_of_tokens htokens, ofSource_of_tokens htokens']
    rcases ofTokens_same hsame with hread | ⟨cause, _, t, t', _, _, hfails, hfails'⟩
    · exact .inl hread
    · exact .inr ⟨cause, _, _, hfails, hfails'⟩

/-- A comment, a newline and another escape leave a program as it is, and a missing comma is
complained of at the same token of another layout. -/
theorem layout_plays_no_part_comment :
    Token.Relaid "x=\"\\n\"".toList " x = //=\n\"\\x0a\"".toList ∧
    (∃ p, ofSource .anchored "a" "x=\"\\n\"" = .ok p ∧
      ofSource .anchored "b" " x = //=\n\"\\x0a\"" = .ok p) ∧
    ∃ (tokens tokens' : List Token) (cause : Cause) (i : Nat) (t t' : Token),
      Token.ofSource "a" "f(x y)" = .ok tokens ∧ Token.ofSource "b" "f( x\ny)" = .ok tokens' ∧
      tokens'.map Token.terminal = tokens.map Token.terminal ∧
      tokens[i]? = some t ∧ tokens'[i]? = some t' ∧
      ofTokens .forwardScan tokens = .error ⟨cause, t.span.start⟩ ∧
      ofTokens .forwardScan tokens' = .error ⟨cause, t'.span.start⟩ ∧
      t.span.start = .ofNat "a" 4 ∧ t'.span.start = .ofNat "b" 5 := by
  have hrelaid : Token.Relaid "x=\"\\n\"".toList " x = //=\n\"\\x0a\"".toList :=
    (Token.relaid_iff "a" "b").2 ⟨_, _, by cbv, by cbv, by cbv⟩
  refine ⟨hrelaid, ?_, ?_⟩
  · rcases (layout_plays_no_part .anchored).2 "a" "b" _ _ hrelaid with h | ⟨_, _, _, hfails, _⟩
    · exact h
    · have hread : ∃ p, ofSource .anchored "a" "x=\"\\n\"" = .ok p := ⟨_, by cbv⟩
      obtain ⟨p, hread⟩ := hread
      cases hread.symm.trans hfails
  · have hfails : ∃ (tokens tokens' : List Token) (cause : Cause),
        Token.ofSource "a" "f(x y)" = .ok tokens ∧ Token.ofSource "b" "f( x\ny)" = .ok tokens' ∧
        tokens'.map Token.terminal = tokens.map Token.terminal ∧
        ofTokens .forwardScan tokens = .error ⟨cause, .ofNat "a" 4⟩ ∧
        ofTokens .forwardScan tokens' = .error ⟨cause, .ofNat "b" 5⟩ :=
      ⟨_, _, _, by cbv, by cbv, by cbv, by cbv, by cbv⟩
    obtain ⟨tokens, tokens', cause, htokens, htokens', hsame, hfails, hfails'⟩ := hfails
    obtain ⟨c, hc, _⟩ := exists_cursor_of_ofSource htokens
    obtain ⟨c', hc', _⟩ := exists_cursor_of_ofSource htokens'
    have hstart := Cursor.ofTokens_eq_ok_iff.2 hc
    have hstart' := Cursor.ofTokens_eq_ok_iff.2 hc'
    rcases (layout_plays_no_part .forwardScan).1 tokens tokens' c c' hstart hstart' hsame with
      ⟨p, hread, _⟩ | ⟨_, i, t, t', ht, ht', h, h'⟩
    · cases hread.symm.trans hfails
    · obtain ⟨rfl, hplace⟩ := Diagnostic.mk.inj (Except.error.inj (hfails.symm.trans h))
      obtain ⟨_, hplace'⟩ := Diagnostic.mk.inj (Except.error.inj (hfails'.symm.trans h'))
      exact ⟨tokens, tokens', cause, i, t, t', htokens, htokens', hsame, ht, ht', h, h',
        hplace.symm, hplace'.symm⟩

end Program

end Scriptlet
