import Scriptlet.Proofs.Expr.Ladder
import Scriptlet.Proofs.Expr.Lockstep

/-!
# How far the readers of expressions look

A reader of expressions looks at no token behind the one where it stops, neither where it
succeeds nor where it fails.  So two token lists that agree up to there are read alike, whatever
comes behind (`Entry.run_looks_one_ahead`).  In particular a complaint about a token stands
whatever the tokens behind it are.

The two lists are walked over side by side, cursor by cursor at the same place.
-/

namespace Scriptlet

open Token (Kind)

/-! ## Lists that agree from one place to another -/

theorem Cursor.advance_skip (c : Cursor) (count : Nat) :
    (c.skip count).advance = c.skip (count + 1) := by
  refine ext_rest ?_ ?_
  · have hrest : (c.skip count).advance.rest = (c.skip count).rest.tail := rfl
    rw [hrest, rest_skip, rest_skip, List.tail_drop]
  · have hclosing : (c.skip count).advance.closing = (c.skip count).closing := rfl
    rw [hclosing, closing_skip, closing_skip]

/-- Cursors at the same place, up to the place `q`, of two lists that have like tokens from the
place `p` on up to there. -/
def Pairing.samePlace (start start' : Cursor) (p q : Nat)
    (hsame : ∀ i, p ≤ i → i ≤ q →
      (start'.skip i).current.terminal = (start.skip i).current.terminal) : Pairing where
  Pairs c c' := ∃ i, p ≤ i ∧ i ≤ q ∧ c = start.skip i ∧ c' = start'.skip i
  Within c := (start.skip q).rest.length ≤ c.rest.length
  terminal_eq := by
    rintro _ _ ⟨i, hp, hq, rfl, rfl⟩
    exact hsame i hp hq
  pairs_advance := by
    rintro _ _ ⟨i, hp, hq, rfl, rfl⟩ hwithin
    by_cases hlt : i < q
    · exact ⟨i + 1, by omega, hlt, start.advance_skip i, start'.advance_skip i⟩
    · -- A run that takes a step at the last place is followed further only if that is the end.
      obtain rfl : i = q := by omega
      have hend : (start.skip i).kind = .endOfInput := by
        by_contra hkind
        have hlen := Cursor.length_rest_of_kind rfl hkind
        omega
      have hend' : (start'.skip i).kind = .endOfInput :=
        (congrArg Terminal.kind (hsame i hp hq)).trans hend
      exact ⟨i, hp, hq, Parser.advance_of_end hend, Parser.advance_of_end hend'⟩
  within_of_passes h hwithin := by
    have hlen := h.length_eq
    omega

namespace Parser

/-- The readers of the ladder that may be started on their own. -/
inductive Entry : Type → Type where
  | expression : Entry Expr
  | assignment : Entry Expr
  | object : Entry Expr
  | additive : Entry Expr
  | multiplicative : Entry Expr
  | call : Entry Expr
  | callOf (callee : Expr) : Entry Expr
  | arguments : Entry (List Expr)
  | member : Entry Expr
  | primary : Entry Expr

/-- The reader that is started. -/
def Entry.run {α : Type} : Entry α → Parser α
  | .expression => Parser.expression
  | .assignment => bounded Parser.assignment
  | .object => bounded Parser.object
  | .additive => bounded Parser.additive
  | .multiplicative => bounded Parser.multiplicative
  | .call => bounded Parser.call
  | .callOf callee => bounded (Parser.callOf callee)
  | .arguments => bounded Parser.arguments
  | .member => bounded Parser.member
  | .primary => bounded fun _ => Parser.primary

variable {α : Type}

instance (entry : Entry α) : Forward entry.run := by
  cases entry <;> (unfold Entry.run; infer_instance)

theorem Entry.run_inStep {P : Pairing} {c c' : Cursor} (entry : Entry α) (h : P.Pairs c c') :
    InStep P entry.run entry.run c c' := by
  have hnested := exprWithin_inStep P
  cases entry with
  | expression => exact expression_inStep h
  | assignment => exact bounded_inStep (fun n n' => assignment_inStep (hnested n n')) h
  | object => exact bounded_inStep (fun n n' => object_inStep (hnested n n')) h
  | additive => exact bounded_inStep (fun n n' => additive_inStep (hnested n n')) h
  | multiplicative => exact bounded_inStep (fun n n' => multiplicative_inStep (hnested n n')) h
  | call => exact bounded_inStep (fun n n' => call_inStep (hnested n n')) h
  | callOf callee => exact bounded_inStep (fun n n' _ _ => callOf_inStep callee (hnested n n')) h
  | arguments =>
    refine bounded_inStep (fun n n' _ _ => ?_) h
    exact arguments_inStep (hnested n n') (Nat.le_refl n) (Nat.le_refl n')
  | member => exact bounded_inStep (fun n n' _ _ => member_inStep (hnested n n')) h
  | primary => exact bounded_inStep (fun n n' _ _ => primary_inStep (hnested n n')) h

/-- From one place to another a run comes only forwards. -/
theorem Ends.le_of_skip {parser : Parser α} [Forward parser] {c : Cursor}
    {r : Except Diagnostic α} {p q : Nat} (hp : p < c.remaining.length)
    (hq : q < c.remaining.length) (h : Ends parser (c.skip p) r (c.skip q)) : p ≤ q := by
  obtain ⟨ts, hts⟩ := Forward.passes h
  have hlen := hts.length_eq
  rw [Cursor.length_remaining] at hp hq
  rw [Cursor.rest_skip, Cursor.rest_skip, List.length_drop, List.length_drop] at hlen
  omega

/-- Over tokens that agree up to where a reader stops, it does the same, and the token that it
complains of is the one where it stops. -/
theorem Entry.ends_of_same {entry : Entry α} {c c' : Cursor} {r : Except Diagnostic α} {p q : Nat}
    (hpq : p ≤ q) (hq : q < c.remaining.length)
    (hsame : ∀ i, p ≤ i → i ≤ q → (c'.skip i).current = (c.skip i).current)
    (h : Ends entry.run (c.skip p) r (c.skip q)) :
    Ends entry.run (c'.skip p) r (c'.skip q) ∧
      ∀ d, r = .error d → d.cause.tellsFound → d.position = (c.skip q).position := by
  let P := Pairing.samePlace c c' p q fun i hpi hiq => congrArg Token.terminal (hsame i hpi hiq)
  have hstart : P.Pairs (c.skip p) (c'.skip p) := ⟨p, Nat.le_refl p, hpq, rfl, rfl⟩
  obtain ⟨r', c₁', hends', ⟨i, hpi, hiq, hi, rfl⟩, houtcome⟩ :=
    entry.run_inStep hstart h (Nat.le_refl _)
  obtain rfl : i = q := by
    have hlen := congrArg (fun c₁ : Cursor => c₁.rest.length) hi
    rw [Cursor.length_remaining] at hq
    simp only [Cursor.rest_skip, List.length_drop] at hlen
    omega
  cases houtcome with
  | ok a => exact ⟨hends', fun d hd => by cases hd⟩
  | error cause hk hstop =>
    obtain ⟨j, hpj, hjq, rfl, rfl⟩ := hk
    have hposition : (c'.skip j).position = (c.skip j).position :=
      congrArg (fun t => t.span.start) (hsame j hpj hjq)
    rw [hposition] at hends'
    refine ⟨hends', ?_⟩
    rintro d ⟨rfl⟩ htells
    rw [← hstop htells]

/-- A reader of the ladder that is started at a place `p` of a token list stops at some place `q`.
What it returns, or the failure it ends with, and that it stops there, is decided by the tokens
from `p` up to `q`, with that at `q`: any list with the same tokens there is read alike.  If it
complains of a token, that is the one at `q`, so nothing behind can mend it. -/
theorem Entry.run_looks_one_ahead (entry : Entry α) {tokens : List Token} {c : Cursor} {p : Nat}
    (hc : Cursor.ofTokens tokens = .ok c) (hp : p < tokens.length) :
    (∃ r q, p ≤ q ∧ q < tokens.length ∧ Ends entry.run (c.skip p) r (c.skip q)) ∧
      ∀ r q, q < tokens.length → Ends entry.run (c.skip p) r (c.skip q) →
        (∀ d, r = .error d → d.cause.tellsFound →
          ∃ t, tokens[q]? = some t ∧ d.position = t.span.start) ∧
        ∀ tokens' c', Cursor.ofTokens tokens' = .ok c' →
          (∀ i, p ≤ i → i ≤ q → tokens'[i]? = tokens[i]?) →
            q < tokens'.length ∧ Ends entry.run (c'.skip p) r (c'.skip q) := by
  obtain rfl := Cursor.remaining_of_ofTokens hc
  constructor
  · obtain ⟨r, c₁, hends⟩ := exists_ends entry.run (c.skip p)
    obtain ⟨ts, hts⟩ := Forward.passes hends
    obtain ⟨q, hpq, hq, rfl, _⟩ := hts.exists_skip hp
    exact ⟨r, q, hpq, hq, hends⟩
  · intro r q hq hends
    have hpq := hends.le_of_skip hp hq
    constructor
    · intro d hd htells
      have hself := Entry.ends_of_same hpq hq (fun _ _ _ => rfl) hends
      have htoken := List.getElem?_eq_getElem hq
      refine ⟨_, htoken, (hself.2 d hd htells).trans ?_⟩
      exact congrArg (fun t => t.span.start) (Cursor.current_skip htoken)
    · intro tokens' c' hc' hagree
      obtain rfl := Cursor.remaining_of_ofTokens hc'
      have htoken (i : Nat) (hiq : i ≤ q) := List.getElem?_eq_getElem (Nat.lt_of_le_of_lt hiq hq)
      refine ⟨?_, (Entry.ends_of_same hpq hq (fun i hpi hiq => ?_) hends).1⟩
      · have hlast := hagree q hpq (Nat.le_refl q)
        rw [htoken q (Nat.le_refl q)] at hlast
        exact (List.getElem?_eq_some_iff.1 hlast).1
      · have hsame := hagree i hpi hiq
        rw [htoken i hiq] at hsame
        rw [Cursor.current_skip hsame, Cursor.current_skip (htoken i hiq)]

/-- A name where the arguments should go on or be closed is complained of, though another list
has another token behind it, and another one before the parenthesis. -/
theorem Entry.run_looks_one_ahead_arguments : ∃ (tokens tokens' : List Token) (c c' : Cursor)
    (d : Diagnostic), Cursor.ofTokens tokens = .ok c ∧ Cursor.ofTokens tokens' = .ok c' ∧
      tokens.length = 6 ∧ tokens'.length = 5 ∧ tokens[0]? ≠ tokens'[0]? ∧
      d = ⟨.unexpectedToken .closeParen "Identifier (b)" "missing `)`", .ofNat "" 4⟩ ∧
      Ends Entry.arguments.run (c.skip 1) (.error d) (c.skip 3) ∧
      (∃ t, tokens[3]? = some t ∧ d.position = t.span.start) ∧
      Ends Entry.arguments.run (c'.skip 1) (.error d) (c'.skip 3) := by
  let shared : List Token := [⟨.openParen, "(", .ofSize "" 1 1⟩, ⟨.identifier, "a", .ofSize "" 2 1⟩,
    ⟨.identifier, "b", .ofSize "" 4 1⟩]
  let c : Cursor := ⟨⟨.identifier, "f", .ofSize "" 0 1⟩ :: shared ++
    [⟨.closeParen, ")", .ofSize "" 5 1⟩], Token.endMark "" 6, by decide, rfl⟩
  let c' : Cursor := ⟨⟨.string, "g", .ofSize "" 0 1⟩ :: shared, Token.endMark "" 5, by decide, rfl⟩
  let d : Diagnostic :=
    ⟨.unexpectedToken .closeParen "Identifier (b)" "missing `)`", .ofNat "" 4⟩
  have hc := Cursor.ofTokens_remaining c
  have hc' := Cursor.ofTokens_remaining c'
  have hends : Ends Entry.arguments.run (c.skip 1) (.error d) (c.skip 3) := .error rfl
  obtain ⟨hblame, hother⟩ :=
    (Entry.run_looks_one_ahead .arguments hc (by decide)).2 _ 3 (by decide) hends
  have hagree : ∀ i, 1 ≤ i → i ≤ 3 → c'.remaining[i]? = c.remaining[i]? := by
    intro i hi hi'
    obtain rfl | rfl | rfl : i = 1 ∨ i = 2 ∨ i = 3 := by omega
    all_goals rfl
  exact ⟨c.remaining, c'.remaining, c, c', d, hc, hc', rfl, rfl, by decide, rfl, hends,
    hblame d rfl rfl, (hother _ c' hc' hagree).2⟩

end Parser

end Scriptlet
