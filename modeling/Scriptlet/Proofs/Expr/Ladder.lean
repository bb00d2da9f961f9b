import Mathlib
import Scriptlet.Proofs.Expr.Complete

/-!
# The ladder at every place of a token list

The reader of expressions may be started at any token of a list.  What it reads
are the tokens from there up to the place where it stops, and these make up the
expression that it returns.  Conversely it reads whatever makes up an expression,
unless the token behind goes on the expression.  `expression_follows_grammar` says
both.

Places are counted from the start of the list, and `tokens.extract p q` is the
part from the place `p` up to the place `q`.
-/

namespace Scriptlet

namespace Cursor

variable {c c' : Cursor} {p q : Nat}

/-! ## Places in a list -/

/-- The cursor some tokens further, or at the end mark. -/
def skip (c : Cursor) : Nat → Cursor
  | 0 => c
  | count + 1 => c.advance.skip count

@[simp] theorem rest_skip (c : Cursor) (count : Nat) : (c.skip count).rest = c.rest.drop count := by
  induction count generalizing c with
  | zero => rfl
  | succ count ih =>
    rw [skip, ih]
    exact List.drop_tail

@[simp] theorem closing_skip (c : Cursor) (count : Nat) : (c.skip count).closing = c.closing := by
  induction count generalizing c with
  | zero => rfl
  | succ count ih => exact ih c.advance

@[simp] theorem length_remaining (c : Cursor) : c.remaining.length = c.rest.length + 1 := by
  rw [remaining, List.length_append, List.length_singleton]

/-- What remains at a place is the rest of the list. -/
theorem remaining_skip (h : p < c.remaining.length) :
    (c.skip p).remaining = c.remaining.drop p := by
  rw [length_remaining] at h
  rw [remaining, remaining, rest_skip, closing_skip, List.drop_append_of_le_length (by omega)]

/-- The current token at a place is the one that stands there. -/
theorem current_skip {t : Token} (h : c.remaining[p]? = some t) : (c.skip p).current = t := by
  obtain ⟨hlen, rfl⟩ := List.getElem?_eq_some_iff.1 h
  have hhead : (c.skip p).remaining.head? = some c.remaining[p] := by
    rw [remaining_skip hlen, List.head?_drop, h]
  rw [remaining, List.head?_append] at hhead
  rw [current, List.headD_eq_head?_getD]
  cases hrest : (c.skip p).rest with
  | nil =>
    rw [hrest] at hhead
    exact Option.some.inj hhead
  | cons t rest =>
    rw [hrest] at hhead
    exact Option.some.inj hhead

/-- A part that ends before the end mark leaves the end mark out. -/
theorem extract_remaining (hq : q < c.remaining.length) :
    c.remaining.extract p q = (c.rest.drop p).take (q - p) := by
  rw [length_remaining] at hq
  rw [List.extract_eq_take_drop, remaining]
  by_cases hp : p ≤ c.rest.length
  · rw [List.drop_append_of_le_length hp,
      List.take_append_of_le_length (by rw [List.length_drop]; omega)]
  · have hempty : q - p = 0 := by omega
    rw [hempty, List.take_zero, List.take_zero]

/-- From one place to a later one a cursor passes over the part between them. -/
theorem passes_skip (hpq : p ≤ q) (hq : q < c.remaining.length) :
    (c.skip p).Passes ((c.remaining.extract p q).map Token.terminal) (c.skip q) := by
  refine ⟨c.remaining.extract p q, rfl, ?_, ?_⟩
  · have hdrop : c.rest.drop q = (c.rest.drop p).drop (q - p) := by
      rw [List.drop_drop, Nat.add_sub_cancel' hpq]
    rw [rest_skip, rest_skip, extract_remaining hq, hdrop, List.take_append_drop]
  · rw [closing_skip, closing_skip]

/-- Wherever a cursor gets to is a place of the list. -/
theorem Passes.exists_skip {ts : List Terminal} (h : (c.skip p).Passes ts c')
    (hp : p < c.remaining.length) :
    ∃ q, p ≤ q ∧ q < c.remaining.length ∧ c' = c.skip q ∧
      ts = (c.remaining.extract p q).map Token.terminal := by
  have hlen := h.length_eq
  rw [rest_skip, List.length_drop] at hlen
  obtain ⟨tokens, rfl, hrest, hclosing⟩ := h
  rw [rest_skip] at hrest
  rw [length_remaining] at hp
  rw [List.length_map] at hlen
  have hq : p + tokens.length < c.remaining.length := by
    rw [length_remaining]
    omega
  refine ⟨p + tokens.length, Nat.le_add_right _ _, hq, ext_rest ?_ ?_, ?_⟩
  · rw [rest_skip, ← List.drop_drop, hrest, List.drop_left]
  · rw [closing_skip, ← hclosing, closing_skip]
  · rw [extract_remaining hq, Nat.add_sub_cancel_left, hrest, List.take_left]

end Cursor

namespace Parser

/-- The reader of expressions follows the grammar wherever it is started: what it
reads makes up the expression that it returns, and it reads whatever makes up an
expression before a token that does not go on it.  A number is part of the grammar
when its text denotes one. -/
theorem expression_follows_grammar {tokens : List Token} {c : Cursor} {p : Nat}
    (hc : Cursor.ofTokens tokens = .ok c) (hp : p < tokens.length) :
    (∀ e c', expression (c.skip p) = .ok e c' →
      ∃ q, p ≤ q ∧ q < tokens.length ∧ c' = c.skip q ∧
        Derives (.expr .assignment e) ((tokens.extract p q).map Token.terminal)) ∧
    ∀ e q next, p ≤ q → tokens[q]? = some next →
      Derives (.expr .assignment e) ((tokens.extract p q).map Token.terminal) →
      next.kind ∉ [.assignment, .plus, .dash, .star, .slash, .percent, .openParen, .dot,
        .openBracket] →
      expression (c.skip p) = .ok e (c.skip q) := by
  obtain rfl := Cursor.remaining_of_ofTokens hc
  constructor
  · intro e c' hread
    obtain ⟨ts, hpasses, hderives, _⟩ := expression_sound hread
    obtain ⟨q, hpq, hq, rfl, rfl⟩ := hpasses.exists_skip hp
    exact ⟨q, hpq, hq, rfl, hderives⟩
  · intro e q next hpq hnext hderives hstop
    have hq := (List.getElem?_eq_some_iff.1 hnext).1
    refine expression_complete (Cursor.passes_skip hpq hq) (.free hderives ?_)
    rw [Level.continuedBy_assignment, ← Cursor.kind_eq_headKind, Cursor.kind,
      Cursor.current_skip hnext]
    exact hstop

/-- An access whose name stands in parentheses is read behind the sign of an
assignment, up to the name that follows it. -/
theorem expression_follows_grammar_access :
    ∃ (tokens : List Token) (c : Cursor), tokens.length = 9 ∧ Cursor.ofTokens tokens = .ok c ∧
      Derives (.expr .assignment (.member (.identifier "a") (.identifier "b") false))
        ((tokens.extract 2 7).map Token.terminal) ∧
      expression (c.skip 2) =
        .ok (.member (.identifier "a") (.identifier "b") false) (c.skip 7) ∧
      ∃ q, 2 ≤ q ∧ q < tokens.length ∧ c.skip 7 = c.skip q ∧
        Derives (.expr .assignment (.member (.identifier "a") (.identifier "b") false))
          ((tokens.extract 2 q).map Token.terminal) := by
  let c : Cursor :=
    ⟨[⟨.identifier, "x", .ofSize "" 0 1⟩, ⟨.assignment, "=", .ofSize "" 2 1⟩,
      ⟨.identifier, "a", .ofSize "" 4 1⟩, ⟨.dot, ".", .ofSize "" 5 1⟩,
      ⟨.openParen, "(", .ofSize "" 6 1⟩, ⟨.identifier, "b", .ofSize "" 7 1⟩,
      ⟨.closeParen, ")", .ofSize "" 8 1⟩, ⟨.identifier, "c", .ofSize "" 10 1⟩],
      Token.endMark "" 11, by decide, rfl⟩
  have hname (name : String) : Derives (.expr .primary (.identifier name)) [⟨.identifier, name⟩] :=
    .name (t := ⟨.identifier, name⟩) rfl
  have hgroup : Derives (.expr .primary (.identifier "b"))
      [⟨.openParen, "("⟩, ⟨.identifier, "b"⟩, ⟨.closeParen, ")"⟩] :=
    .group rfl ((hname "b").loosen_to (by decide)) rfl
  have hderives : Derives (.expr .assignment (.member (.identifier "a") (.identifier "b") false))
      ((c.remaining.extract 2 7).map Token.terminal) :=
    (Derives.dot (d := ⟨.dot, "."⟩) ((hname "a").loosen_to (by decide)) rfl hgroup).loosen_to
      (by decide)
  have hc := Cursor.ofTokens_remaining c
  obtain ⟨hsound, hcomplete⟩ := expression_follows_grammar hc (p := 2) (by decide)
  have hread := hcomplete _ 7 _ (by decide) rfl hderives (by decide)
  exact ⟨c.remaining, c, rfl, hc, hderives, hread, hsound _ _ hread⟩

end Parser

end Scriptlet
