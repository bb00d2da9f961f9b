import Scriptlet.Proofs.Expr.Complete
import Scriptlet.Proofs.Expr.Terminals

/-!
# Expressions read back

The text of an expression is split into tokens, and wherever these tokens stand
the reader makes the same expression of them and stops behind them.  Only a token
that goes on an expression must not come next.

Nothing is asked of the shape of the expression, so this holds of expressions
that were made by hand, too.
-/

namespace Scriptlet.Expr

/-- An expression is read back from its text, whatever tokens follow that do not
go on it. -/
theorem reads_back {e : Expr} (h : e.Printable) (file : String) :
    ∃ tokens mark, Token.ofSource file e.written = .ok (tokens ++ [mark]) ∧
      mark.kind = .endOfInput ∧
      ∀ rest after, Cursor.ofTokens rest = .ok after →
        after.kind ∉ [.assignment, .plus, .dash, .star, .slash, .percent, .openParen, .dot,
          .openBracket] →
        ∃ c, Cursor.ofTokens (tokens ++ rest) = .ok c ∧ Parser.expression c = .ok e after := by
  obtain ⟨tokens, htokens, hsource⟩ := (h.spelled [] Token.separate_nil).ofText_eq file 0
  refine ⟨tokens, _, hsource, rfl, ?_⟩
  intro rest after hrest hafter
  have hopen : ∀ t ∈ tokens, t.kind ≠ .endOfInput := by
    intro t ht
    have hmem : t.terminal ∈ e.terminals := by
      rw [← htokens]
      exact List.mem_map_of_mem ht
    exact h.derives.kind_ne_end t.terminal hmem
  obtain ⟨c, hc, hpasses⟩ := Cursor.exists_ofTokens_append hopen hrest
  rw [htokens] at hpasses
  refine ⟨c, hc, Parser.expression_complete hpasses (.free h.derives_loose ?_)⟩
  rw [Level.continuedBy_assignment, ← Cursor.kind_eq_headKind]
  exact hafter

/-- An access to an assignment is read back before a brace. -/
theorem reads_back_member_of_assignment :
    ∃ (e : Expr) (after : Cursor), e.Printable ∧ e.written = "(a = 0.5).b" ∧
      after.kind = .closeCurly ∧
      ∃ tokens mark c, Token.ofSource "" e.written = .ok (tokens ++ [mark]) ∧
        Cursor.ofTokens (tokens ++ after.remaining) = .ok c ∧
        Parser.expression c = .ok e after := by
  have ha : Lexeme.IsName "a" :=
    Lexeme.isName_iff.2 ⟨'a', [], rfl, rfl, List.forall_mem_nil _, rfl⟩
  have hb : Lexeme.IsName "b" :=
    Lexeme.isName_iff.2 ⟨'b', [], rfl, rfl, List.forall_mem_nil _, rfl⟩
  let half : Fin finiteCount := ⟨1022 * 2 ^ 52, by decide⟩
  have h : Printable (.member (.assignment (.identifier "a") (.number (.finite false half)))
      (.identifier "b") false) := .dot (.assignment (.identifier ha) (.number half)) hb
  let after : Cursor :=
    ⟨[⟨.closeCurly, "\x7d", .ofSize "" 0 1⟩], Token.endMark "" 1, by decide, rfl⟩
  obtain ⟨tokens, mark, hsource, _, hread⟩ := reads_back h ""
  obtain ⟨c, hc, hrun⟩ :=
    hread after.remaining after (Cursor.ofTokens_remaining after) (by decide)
  exact ⟨_, after, h, by decide +kernel, rfl, tokens, mark, c, hsource, hc, hrun⟩

end Scriptlet.Expr
