import Scriptlet.Diagnostic.Basic

/-!
# Cursors

A cursor walks over a token list that is closed by its only end mark.  It keeps
the tokens before the end mark that are still to come.  When none is left the
current token is the end mark, and the cursor stays there.

`ofTokens` makes a cursor of a list or says what is wrong with the list.  Of
two faults an end mark that stands too early is reported first.
-/

namespace Scriptlet

/-- A place in a closed token list. -/
structure Cursor where
  /-- The tokens still to come, without the end mark. -/
  rest : List Token
  /-- The end mark. -/
  closing : Token
  /-- No end mark is among the tokens still to come. -/
  rest_open : ∀ t ∈ rest, t.kind ≠ .endOfInput
  /-- The end mark is one. -/
  closing_isEnd : closing.kind = .endOfInput

namespace Cursor

/-- A cursor at the first token of a list. -/
def ofTokens (tokens : List Token) : Except Diagnostic Cursor :=
  match hearly : tokens.dropLast.find? (·.kind = .endOfInput) with
  | some early => .error ⟨.misplacedEndOfInput, early.span.start⟩
  | none =>
      match tokens.getLast? with
      | none => .error ⟨.missingEndOfInput, .nowhere⟩
      | some last =>
          if hlast : last.kind = .endOfInput then
            .ok ⟨tokens.dropLast, last, fun t ht hend => by
              simpa [hend] using List.find?_eq_none.1 hearly t ht, hlast⟩
          else .error ⟨.missingEndOfInput, last.span.stop⟩

/-- The current token. -/
def current (c : Cursor) : Token := c.rest.headD c.closing

/-- The kind of the current token. -/
def kind (c : Cursor) : Token.Kind := c.current.kind

/-- The place of the current token. -/
def position (c : Cursor) : Position := c.current.span.start

/-- The tokens from the current one on, with the end mark. -/
def remaining (c : Cursor) : List Token := c.rest ++ [c.closing]

/-- Whether a token comes before the end mark. -/
def hasTokens (c : Cursor) : Bool := c.kind ≠ .endOfInput

/-- The cursor one token further, or where it is at the end mark. -/
def advance (c : Cursor) : Cursor where
  rest := c.rest.tail
  closing := c.closing
  rest_open t h := c.rest_open t (List.mem_of_mem_tail h)
  closing_isEnd := c.closing_isEnd

/-- The place of the current token in a list of that many tokens. -/
def index (c : Cursor) (total : Nat) : Nat := total - 1 - c.rest.length

/-- A cursor is at the end mark just when no token is left. -/
theorem kind_eq_endOfInput_iff (c : Cursor) : c.kind = .endOfInput ↔ c.rest = [] := by
  obtain ⟨rest, closing, hrest, hclosing⟩ := c
  cases rest with
  | nil => simpa [kind, current] using hclosing
  | cons t rest => simpa [kind, current] using hrest t (by simp)

/-- Every token list that makes a cursor is what remains of it. -/
theorem remaining_of_ofTokens {tokens : List Token} {c : Cursor} (h : ofTokens tokens = .ok c) :
    c.remaining = tokens := by
  unfold ofTokens at h
  split at h
  · cases h
  · split at h
    · cases h
    · rename_i last hlast
      split at h
      · cases h
        obtain ⟨front, rfl⟩ := List.getLast?_eq_some_iff.1 hlast
        simp [remaining]
      · cases h

end Cursor

end Scriptlet
