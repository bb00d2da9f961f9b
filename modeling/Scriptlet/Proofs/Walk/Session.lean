import Mathlib
import Scriptlet.Proofs.Walk.Progress

/-!
# Sessions

Whoever holds a cursor may do with it what they like: look at tokens, step over them, ask for one
of some kind, and start any reader.  A session is a list of such operations, one after another.  A
failure in the middle of a construct leaves the cursor there, and the session goes on.

As a walk an operation may be broken off or leave the token list, and then a session has no
answer (`Parser.visits`).  From a place of the list, and with a clock that is long enough, this
never happens: a session comes by places of the list only, and each is not before the last
(`Parser.visits_inside`).
-/

namespace Scriptlet.Parser

open Token (Kind)

variable {α : Type}

/-! ## Operations -/

/-- What may be done with a cursor. -/
inductive Operation : Type → Type 1 where
  /-- Looks at the current token. -/
  | current : Operation Token
  /-- Looks at all tokens from the current one on. -/
  | remaining : Operation (List Token)
  /-- Steps over the current token. -/
  | advance : Operation Token
  /-- Steps over a token of the given kind, or fails with the message. -/
  | expect (expected : Kind) (message : String) : Operation Token
  /-- Asks whether a function declaration starts here. -/
  | startsFunction (mode : Detection) : Operation Bool
  /-- Starts a reader. -/
  | read {α : Type} (routine : Routine α) : Operation α

namespace Operation

/-- The parser of an operation. -/
def run {α : Type} : Operation α → Parser α
  | .current => Parser.current
  | .remaining => fun c => .ok c.remaining c
  | .advance => Parser.advance
  | .expect expected message => Parser.expect expected message
  | .startsFunction mode => Parser.startsFunction mode
  | .read routine => routine.run

/-- The walk of an operation. -/
def walk {α : Type} : Operation α → Nat → Walk α
  | .current => fun _ => Walk.current
  | .remaining => fun _ => Walk.remaining
  | .advance => fun _ => Walk.advance
  | .expect expected message => fun _ => Walk.expect expected message
  | .startsFunction mode => fun _ => Walk.startsFunction mode
  | .read routine => routine.walk

variable {c : Cursor} {p : Nat}

/-- The walk of an operation ends like its parser. -/
theorem follows (operation : Operation α) (hp : p < c.remaining.length) :
    Walk.Follows c operation.walk operation.run p := by
  cases operation with
  | current => exact .ok hp rfl (Walk.ends_of_outcome (Walk.outcome_current hp))
  | remaining => exact .ok hp rfl (Walk.ends_of_outcome (Walk.outcome_remaining hp))
  | advance => exact Walk.follows_advance hp
  | expect expected message => exact Walk.follows_expect expected message hp
  | startsFunction mode =>
    exact .ok hp rfl (Walk.ends_of_outcome (Walk.outcome_startsFunction hp))
  | read routine => exact routine.follows hp

instance (operation : Operation α) : Forward operation.run := by
  cases operation with
  | remaining => exact .of_eq_ok (fun _ => rfl) fun c => ⟨[], .refl c⟩
  | _ => unfold run; infer_instance

/-- An operation stops at a place of the list that is not before the one where it started. -/
theorem exists_stop (operation : Operation α) (hp : p < c.remaining.length) :
    ∃ r q, p ≤ q ∧ q < c.remaining.length ∧ Ends operation.run (c.skip p) r (c.skip q) ∧
      Walk.Ends operation.walk c.remaining p (r.mapError .failure) q := by
  obtain ⟨r, q, hq, hends, hwalk⟩ := (operation.follows hp).exists_ends
  exact ⟨r, q, hends.le_of_skip hp hq, hq, hends, hwalk⟩

end Operation

/-! ## Sessions -/

/-- The places where the operations of a session stop, one after another.  It goes on after a
failure, and has no answer if an operation is broken off or leaves the list. -/
def visits (clock : Nat) (tokens : List Token) : List (Sigma Operation) → Nat → Option (List Nat)
  | [], _ => some []
  | operation :: operations, place =>
      match (operation.2.walk clock).outcome tokens place with
      | none | some (.error .outside, _) => none
      | some (_, next) => (visits clock tokens operations next).map (next :: ·)

/-- The cursors that the operations of a session leave behind, one after another. -/
def cursors : List (Sigma Operation) → Cursor → List Cursor
  | [], _ => []
  | operation :: operations, c =>
      match operation.2.run c with
      | .ok _ next | .error _ next => next :: cursors operations next

section

variable {c c' : Cursor} {tokens : List Token} {p q : Nat} {operation : Operation α}
  {operations : List (Sigma Operation)} {r : Except Diagnostic α}

theorem visits_cons {clock : Nat}
    (h : (operation.walk clock).outcome tokens p = some (r.mapError .failure, q)) :
    visits clock tokens (⟨α, operation⟩ :: operations) p =
      (visits clock tokens operations q).map (q :: ·) := by
  rw [visits, h]
  cases r <;> rfl

theorem cursors_cons (h : Ends operation.run c r c') :
    cursors (⟨α, operation⟩ :: operations) c = c' :: cursors operations c' := by
  rw [cursors]
  cases h with
  | ok hrun => rw [hrun]
  | error hrun => rw [hrun]

/-- From a place of the list a session comes forwards, from one place of the list to the next. -/
theorem exists_visits (operations : List (Sigma Operation)) (hp : p < c.remaining.length) :
    ∃ places, (∃ enough, ∀ clock, enough ≤ clock →
        visits clock c.remaining operations p = some places) ∧
      places.length = operations.length ∧ cursors operations (c.skip p) = places.map c.skip ∧
      (p :: places).Pairwise (· ≤ ·) ∧ ∀ q ∈ places, q < c.remaining.length := by
  induction operations generalizing p with
  | nil =>
    exact ⟨[], ⟨0, fun _ _ => rfl⟩, rfl, rfl, List.pairwise_singleton _ p,
      fun q hq => absurd hq List.not_mem_nil⟩
  | cons operation operations ih =>
    obtain ⟨r, q, hpq, hq, hends, enough, hwalk⟩ := operation.2.exists_stop hp
    obtain ⟨places, ⟨enough', hvisits⟩, hlength, hcursors, hsorted, hinside⟩ := ih hq
    refine ⟨q :: places, ⟨max enough enough', fun clock hclock => ?_⟩, congrArg Nat.succ hlength,
      ?_, ?_, List.forall_mem_cons.2 ⟨hq, hinside⟩⟩
    · rw [visits_cons (hwalk clock (Nat.le_trans (Nat.le_max_left _ _) hclock)),
        hvisits clock (Nat.le_trans (Nat.le_max_right _ _) hclock)]
      rfl
    · rw [cursors_cons hends, hcursors]
      rfl
    · refine List.pairwise_cons.2 ⟨fun i hi => ?_, hsorted⟩
      rcases List.mem_cons.1 hi with rfl | hi
      · exact hpq
      · exact Nat.le_trans hpq ((List.pairwise_cons.1 hsorted).1 i hi)

end

/-- A session with a cursor keeps to its token list, whatever the operations are and wherever it
starts.  With a clock that is long enough each of them ends, and it stops at a place that is not
before the last one and not behind that of the end mark.  The cursors that the parsers leave
behind stand at the same places: the current token is the one at the place, and the tokens still
to come are those from there on.  To ask for a token in vain does not move the place. -/
theorem visits_inside (operations : List (Sigma Operation)) {tokens : List Token} {c : Cursor}
    {p : Nat} (hc : Cursor.ofTokens tokens = .ok c) (hp : p < tokens.length) :
    ∃ places, (∃ enough, ∀ clock, enough ≤ clock →
        visits clock tokens operations p = some places) ∧
      places.length = operations.length ∧ (p :: places).Pairwise (· ≤ ·) ∧
      cursors operations (c.skip p) = places.map c.skip ∧
      ∀ q ∈ p :: places, q ≤ tokens.length - 1 ∧ tokens[q]? = some (c.skip q).current ∧
        tokens.drop q = (c.skip q).remaining ∧
        ∀ expected message stop r,
          (Walk.expect expected message).outcome tokens q = some (.error stop, r) → r = q := by
  obtain rfl := Cursor.remaining_of_ofTokens hc
  obtain ⟨places, hvisits, hlength, hcursors, hsorted, hinside⟩ := exists_visits operations hp
  refine ⟨places, hvisits, hlength, hsorted, hcursors, fun q hq => ?_⟩
  have hall : ∀ i ∈ p :: places, i < c.remaining.length := List.forall_mem_cons.2 ⟨hp, hinside⟩
  have hplace := hall q hq
  refine ⟨Nat.le_sub_one_of_lt hplace, Walk.getElem?_remaining hplace,
    (Cursor.remaining_skip hplace).symm, fun _ _ _ _ h => Walk.place_of_expect hplace h⟩

/-- A session over `f(a,)}` that starts at the name and asks for a comma in vain.  The statement
there fails at the parenthesis behind the comma.  Two steps lead over this parenthesis and the
brace, with arguments that fail between them, and at the end mark neither a step nor a binding
moves the place. -/
theorem visits_inside_failures : ∃ (tokens : List Token) (c : Cursor) (enough : Nat),
    Cursor.ofTokens tokens = .ok c ∧ tokens.length = 7 ∧ ∀ clock, enough ≤ clock →
      visits clock tokens [⟨_, .expect .comma "missing `,`"⟩, ⟨_, .read (.statement .anchored)⟩,
        ⟨_, .advance⟩, ⟨_, .read (.level .arguments)⟩, ⟨_, .advance⟩, ⟨_, .advance⟩,
        ⟨_, .read .binding⟩, ⟨_, .remaining⟩] 0 = some [0, 4, 5, 5, 6, 6, 6, 6] := by
  let c : Cursor := ⟨[⟨.identifier, "f", .ofSize "" 0 1⟩, ⟨.openParen, "(", .ofSize "" 1 1⟩,
    ⟨.identifier, "a", .ofSize "" 2 1⟩, ⟨.comma, ",", .ofSize "" 3 1⟩,
    ⟨.closeParen, ")", .ofSize "" 4 1⟩, ⟨.closeCurly, "\x7d", .ofSize "" 5 1⟩],
    Token.endMark "" 6, by decide, rfl⟩
  let operations : List (Sigma Operation) := [⟨_, .expect .comma "missing `,`"⟩,
    ⟨_, .read (.statement .anchored)⟩, ⟨_, .advance⟩, ⟨_, .read (.level .arguments)⟩,
    ⟨_, .advance⟩, ⟨_, .advance⟩, ⟨_, .read .binding⟩, ⟨_, .remaining⟩]
  have hc := Cursor.ofTokens_remaining c
  obtain ⟨places, ⟨enough, hvisits⟩, _, _, hcursors, hall⟩ :=
    visits_inside operations hc (p := 0) (by decide)
  have hindex (q : Nat) (hq : q ∈ places) : (c.skip q).index c.remaining.length = q :=
    Cursor.index_skip (List.getElem?_eq_some_iff.1 (hall q (.tail 0 hq)).2.1).1
  have hplaces : places = [0, 4, 5, 5, 6, 6, 6, 6] := calc
    places = (places.map c.skip).map (·.index c.remaining.length) := by
      rw [List.map_map]
      exact (List.map_id places).symm.trans (List.map_congr_left fun q hq => (hindex q hq).symm)
    _ = (cursors operations (c.skip 0)).map (·.index c.remaining.length) := by rw [hcursors]
    _ = [0, 4, 5, 5, 6, 6, 6, 6] := rfl
  rw [hplaces] at hvisits
  exact ⟨c.remaining, c, enough, hc, rfl, hvisits⟩

end Scriptlet.Parser
