import Scriptlet.Program.Parse
import Scriptlet.Proofs.Expr.Forward

/-!
# The readers of programs move forward

The readers of the parts of a program move the cursor forward.  A reader that returns a statement
has consumed a token for it, since it asks for a name or reads an expression.
-/

namespace Scriptlet.Parser

open Token (Kind)

/-! ## Bindings and headings -/

instance (mode : Detection) : Forward (startsFunction mode) :=
  .of_eq_ok (fun _ => rfl) fun c => ⟨[], .refl c⟩

instance : Consuming binding := by
  have (word : Token) :=
    consuming_expect .identifier ("expected a name after `" ++ word.value ++ "`") (by decide)
  unfold binding
  refine .bind_right fun word => .bind fun name => .bind fun next => ?_
  split <;> infer_instance

instance : Forward asyncModifier := by
  unfold asyncModifier
  infer_instance

instance : Consuming heading := by
  have := consuming_expect .identifier
    "expected a function name, shaped like name(parameters) \x7b ... \x7d" (by decide)
  unfold heading
  refine .bind_right fun isAsync => .bind fun name => .bind fun opening => ?_
  refine .bind fun parameters => ?_
  split <;> infer_instance

/-! ## Statements -/

section

variable {bound : Nat} {statement : Parser Stmt} [Forward statement]

instance (ends : Kind → Bool) : Forward (statements ends statement bound) := by
  induction bound with
  | zero => exact inferInstanceAs (Forward (pure []))
  | succ bound ih =>
    unfold statements
    infer_instance

instance : Consuming (function bound statement) := by
  unfold function
  infer_instance

instance (mode : Detection) : Consuming (statementOver mode bound statement) := by
  unfold statementOver
  refine .bind_right fun detected => ?_
  split
  · infer_instance
  · refine .bind_right fun next => ?_
    split <;> infer_instance

end

instance (mode : Detection) (bound : Nat) : Consuming (statementWithin mode bound) := by
  induction bound with
  | zero => exact inferInstanceAs (Consuming refuse)
  | succ bound ih =>
    exact inferInstanceAs (Consuming (statementOver mode bound (statementWithin mode bound)))

/-! ## Whole programs -/

instance {α : Type} {mode : Detection} {part : Nat → Parser Stmt → Parser α}
    [∀ bound, Forward (part bound (statementWithin mode bound))] :
    Forward (boundedOver mode part) where
  passes {c _ _} h := by
    have hpart : boundedOver mode part c =
      part c.rest.length (statementWithin mode c.rest.length) c := rfl
    exact Forward.passes (h.of_eq hpart)

instance (mode : Detection) : Forward (statement mode) :=
  inferInstanceAs (Forward (boundedOver mode (statementOver mode)))

instance (mode : Detection) : Forward (declaration mode) :=
  inferInstanceAs (Forward (boundedOver mode function))

instance (mode : Detection) : Forward (program mode) := by
  unfold program
  infer_instance

end Scriptlet.Parser

namespace Scriptlet.Program

variable {mode : Detection}

/-- The program of a token list, or its failure, is what the run over the list ends with. -/
theorem ofTokens_of_ends {c c₁ : Cursor} {r : Except Diagnostic Program}
    (h : Parser.Ends (Parser.program mode) c r c₁) : ofTokens mode c.remaining = r := by
  have hrun : ofTokens mode c.remaining = (Parser.program mode).outcome c := by
    rw [ofTokens, Cursor.ofTokens_remaining]
    rfl
  rw [hrun, Parser.outcome]
  cases h with
  | ok h => rw [h]
  | error h => rw [h]

theorem ofSource_of_tokens {file source : String} {tokens : List Token}
    (h : Token.ofSource file source = .ok tokens) :
    ofSource mode file source = ofTokens mode tokens := by
  rw [ofSource, h]
  rfl

end Scriptlet.Program
