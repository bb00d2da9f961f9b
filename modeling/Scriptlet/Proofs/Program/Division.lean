import Mathlib
import Scriptlet.Proofs.Program.Complete

/-!
# The tokens of each statement

Nothing in a token list says where a statement ends.  Still the tokens of a program
that was read are divided up among its statements: each statement has a stretch of
tokens of its own, the stretches stand one behind the other in the order of the
statements, and the tokens inside a declaration are divided up again among the
statements of its body (`Program.divides_tokens`).
-/

namespace Scriptlet

/-! ## Stretches of tokens -/

/-- A statement consists of some tokens. -/
inductive Stmt.Consists : Stmt → List Token → Prop where
  /-- `let name = value`, or the same with `const`. -/
  | binding {word name sign : Token} {value : Expr} {tokens : List Token}
      (hword : word.kind = .letWord ∨ word.kind = .constWord) (hname : name.kind = .identifier)
      (hsign : sign.kind = .assignment)
      (hvalue : Derives (.expr .assignment value) (tokens.map Token.terminal)) :
      Consists (.binding name.value (word.kind = .constWord) (some value))
        (word :: name :: sign :: tokens)
  /-- `let name` -/
  | bareBinding {word name : Token} (hword : word.kind = .letWord)
      (hname : name.kind = .identifier) : Consists (.binding name.value false none) [word, name]
  /-- A heading, a stretch for each statement of the body, and a brace. -/
  | function {close : Token} {head : Parser.Heading} {body : List Stmt} {heading : List Token}
      {stretches : List (List Token)} (hheading : Opens head (heading.map Token.terminal))
      (hbody : List.Forall₂ Consists body stretches) (hne : ∀ tokens ∈ stretches, tokens ≠ [])
      (hclose : close.kind = .closeCurly) :
      Consists (.function head.name head.parameters head.isAsync body)
        (heading ++ (stretches.flatten ++ [close]))
  /-- A bare expression. -/
  | expression {e : Expr} {tokens : List Token}
      (he : Derives (.expr .assignment e) (tokens.map Token.terminal)) :
      Consists (.expression e) tokens

/-- The tokens of a part are divided up among its statements. -/
def Part.Divides (tokens : List Token) : Part → Prop
  | .statement s => s.Consists tokens
  | .body ss => ∃ stretches, tokens = stretches.flatten ∧ List.Forall₂ Stmt.Consists ss stretches ∧
      ∀ stretch ∈ stretches, stretch ≠ []

theorem Reads.divides {mode : Detection} {part : Part} {ts rest : List Terminal}
    (h : Reads mode part ts rest) {tokens : List Token} (htokens : tokens.map Token.terminal = ts) :
    part.Divides tokens := by
  induction h generalizing tokens with
  | binding hw ht hq he =>
    obtain ⟨word, others, rfl, rfl, hothers⟩ := List.map_eq_cons_iff.1 htokens
    obtain ⟨name, behind, rfl, rfl, hbehind⟩ := List.map_eq_cons_iff.1 hothers
    obtain ⟨sign, value, rfl, rfl, rfl⟩ := List.map_eq_cons_iff.1 hbehind
    exact .binding hw ht hq he.derives
  | bareBinding hw ht =>
    obtain ⟨word, others, rfl, rfl, hothers⟩ := List.map_eq_cons_iff.1 htokens
    obtain ⟨name, rfl, rfl⟩ := List.map_eq_singleton_iff.1 hothers
    exact .bareBinding hw ht
  | function hopens _ hclose ih =>
    obtain ⟨heading, others, rfl, rfl, hothers⟩ := List.map_eq_append_iff.1 htokens
    obtain ⟨inner, closes, rfl, hinner, hcloses⟩ := List.map_eq_append_iff.1 hothers
    obtain ⟨close, rfl, rfl⟩ := List.map_eq_singleton_iff.1 hcloses
    obtain ⟨stretches, rfl, hbody, hne⟩ := ih hinner
    exact .function hopens hbody hne hclose
  | expression he =>
    rw [← htokens] at he
    exact .expression he.derives
  | nil =>
    rw [List.map_eq_nil_iff.1 htokens]
    exact ⟨[], rfl, .nil, List.forall_mem_nil _⟩
  | cons hs _ ihs ihss =>
    obtain ⟨first, others, rfl, hfirst, hothers⟩ := List.map_eq_append_iff.1 htokens
    obtain ⟨stretches, rfl, hbody, hne⟩ := ihss hothers
    have hfirstne : first ≠ [] := by
      rintro rfl
      exact hs.ne_nil hfirst.symm
    exact ⟨first :: stretches, rfl, .cons (ihs hfirst) hbody,
      List.forall_mem_cons.2 ⟨hfirstne, hne⟩⟩

/-! ## Programs -/

namespace Program

/-- The tokens of a program that was read are divided up among its statements, and the
end mark stands behind them. -/
theorem divides_tokens {mode : Detection} {tokens : List Token} {p : Program}
    (h : ofTokens mode tokens = .ok p) : ∃ (stretches : List (List Token)) (mark : Token),
      tokens = stretches.flatten ++ [mark] ∧ mark.kind = .endOfInput ∧
      (∀ t ∈ stretches.flatten, t.kind ≠ .endOfInput) ∧
      (∀ stretch ∈ stretches, stretch ≠ []) ∧ List.Forall₂ Stmt.Consists p.body stretches := by
  obtain ⟨c, hc, hreads⟩ := ofTokens_eq_ok_iff.1 h
  have hterminals : c.rest.map Token.terminal = c.terminals := rfl
  obtain ⟨stretches, hrest, hbody, hne⟩ := hreads.divides hterminals
  refine ⟨stretches, c.closing, ?_, c.closing_isEnd, ?_, hne, hbody⟩
  · rw [← hrest, ← Cursor.remaining_of_ofTokens hc]
    rfl
  · rw [← hrest]
    exact c.rest_open

/-- A declaration whose only parameter stands in parentheses, with two statements in its
body, is read before a binding without a value. -/
theorem divides_tokens_async : ∃ (tokens : List Token) (p : Program),
    Token.ofSource "" "async f((a)) \x7b b \x7bc\x7d \x7d let d" = .ok tokens ∧
      ofTokens .anchored tokens = .ok p ∧
      p.body = [.function "f" ["a"] true
          [.expression (.identifier "b"), .expression (.object [.shorthand "c"])],
        .binding "d" false none] ∧
      ∃ (stretches : List (List Token)) (mark : Token),
        tokens = stretches.flatten ++ [mark] ∧ mark.kind = .endOfInput ∧
        (∀ t ∈ stretches.flatten, t.kind ≠ .endOfInput) ∧
        (∀ stretch ∈ stretches, stretch ≠ []) ∧ List.Forall₂ Stmt.Consists p.body stretches := by
  have hsource : ∃ tokens,
      Token.ofSource "" "async f((a)) \x7b b \x7bc\x7d \x7d let d" = .ok tokens ∧
      ofTokens .anchored tokens = .ok ⟨[.function "f" ["a"] true
        [.expression (.identifier "b"), .expression (.object [.shorthand "c"])],
        .binding "d" false none]⟩ := by
    refine ⟨_, by cbv, by cbv⟩
  obtain ⟨tokens, htokens, hread⟩ := hsource
  exact ⟨tokens, _, htokens, hread, rfl, divides_tokens hread⟩

end Program

end Scriptlet
