import Mathlib
import Scriptlet.Proofs.Expr.Reach

/-!
# Walks

A cursor cannot leave its token list, and a parser is given bounds for its loops that are taken
from the list.  Neither is granted to a *walk*.  It keeps the whole list and the place where it
stands, and it is only timed.  Every reader that is entered and every round of a loop takes one
tick off its clock, and when the clock has run out the walk is broken off.

So there are two more ways for a walk to come out.  One that goes to a place outside of the list,
or asks for the tokens there, stops with `outside`.  One that is broken off whatever its clock is
goes on for ever, and `Walk.Ends` says that it does not: with a clock that is long enough it ends.

`Follows` says that a walk from a place of a list ends like the run of a parser from the cursor
there, and that it ends at a place of the list.  So it neither leaves the list nor goes on for
ever.  There is one rule for each way of putting walks together.  A loop of a parser has a bound,
and `Room` says that it is enough.
-/

namespace Scriptlet

open Token (Kind)

/-! ## Walks and their ends -/

/-- Why a walk stops without a result. -/
inductive Walk.Stop where
  /-- A failure of the program that is read. -/
  | failure (diagnostic : Diagnostic)
  /-- A place outside of the list was gone to or asked for. -/
  | outside

/-- A reader of a part of a token list, which is given by the whole list and a place.  The place
is kept in a stop, too. -/
abbrev Walk := ReaderT (List Token) (ExceptT Walk.Stop (StateT Nat Option))

namespace Walk

variable {α β : Type}

/-- What a walk from a place of a list returns or why it stops, and where, unless it is broken
off. -/
def outcome (walk : Walk α) (tokens : List Token) (place : Nat) : Option (Except Stop α × Nat) :=
  walk tokens place

/-- A walk whose clock has run out. -/
def spent : Walk α := fun _ _ => none

/-- A walk ends with this outcome, at that place, whatever the clock shows that is long enough. -/
def Ends (walk : Nat → Walk α) (tokens : List Token) (place : Nat) (result : Except Stop α)
    (stop : Nat) : Prop :=
  ∃ enough, ∀ clock, enough ≤ clock → (walk clock).outcome tokens place = some (result, stop)

/-- The token at the place. -/
def current : Walk Token := do
  let tokens ← read
  match tokens[← get]? with
  | some token => return token
  | none => throw .outside

/-- The kind of the token at the place. -/
def kind : Walk Kind := do
  let token ← current
  return token.kind

/-- The tokens from the place on. -/
def remaining : Walk (List Token) := do
  let tokens ← read
  let place ← get
  if place ≤ tokens.length then return tokens.drop place else throw .outside

/-- Goes to the next place. -/
def step : Walk Unit := do
  let tokens ← read
  let place ← get
  if place + 1 < tokens.length then set (place + 1) else throw .outside

/-- The token at the place, and a step to the next place unless it is an end mark. -/
def advance : Walk Token := do
  let token ← current
  if token.kind ≠ .endOfInput then step
  return token

/-- Stops with a failure. -/
def fail (cause : Cause) (position : Position) : Walk α := throw (.failure ⟨cause, position⟩)

/-- A step over a token of the given kind, or a failure with the message. -/
def expect (expected : Kind) (message : String) : Walk Token := do
  let token ← current
  if token.kind = expected then advance
  else fail (.unexpectedToken expected token.describe message) token.span.start

/-- A failure since no expression starts at the place. -/
def refuse : Walk α := do
  let token ← current
  fail (.unrecognisedPrimary token.describe) token.span.start

/-- A walk goes on where its first part has ended. -/
theorem outcome_bind_of_ok {x : Walk α} {f : α → Walk β} {tokens : List Token} {p q : Nat} {a : α}
    (h : x.outcome tokens p = some (.ok a, q)) :
    (x >>= f).outcome tokens p = (f a).outcome tokens q := by
  have hx : x tokens p = some (.ok a, q) := h
  simp only [outcome, bind, ReaderT.bind, ExceptT.bind, ExceptT.mk, StateT.bind, hx,
    Option.bind_some, ExceptT.bindCont]

/-- A walk stops where its first part stops. -/
theorem outcome_bind_of_error {x : Walk α} {f : α → Walk β} {tokens : List Token} {p q : Nat}
    {stop : Stop} (h : x.outcome tokens p = some (.error stop, q)) :
    (x >>= f).outcome tokens p = some (.error stop, q) := by
  have hx : x tokens p = some (.error stop, q) := h
  simp only [outcome, bind, ReaderT.bind, ExceptT.bind, ExceptT.mk, StateT.bind, hx,
    Option.bind_some, ExceptT.bindCont]
  rfl

/-- A walk that looks at no clock ends as it comes out. -/
theorem ends_of_outcome {walk : Walk α} {tokens : List Token} {p q : Nat} {r : Except Stop α}
    (h : walk.outcome tokens p = some (r, q)) : Ends (fun _ => walk) tokens p r q :=
  ⟨0, fun _ _ => h⟩

/-- One tick more makes no difference. -/
theorem Ends.of_succ {walk : Nat → Walk α} {tokens : List Token} {p q : Nat} {r : Except Stop α}
    (h : Ends (fun clock => walk (clock + 1)) tokens p r q) : Ends walk tokens p r q := by
  obtain ⟨enough, h⟩ := h
  refine ⟨enough + 1, fun clock hclock => ?_⟩
  obtain ⟨clock, rfl⟩ := Nat.exists_eq_add_of_le' (Nat.le_of_add_left_le hclock)
  exact h clock (Nat.le_of_succ_le_succ hclock)

section

variable {x : Nat → Walk α} {f : Nat → α → Walk β} {tokens : List Token} {p q i : Nat} {a : α}

/-- A walk goes on where its first part has ended. -/
theorem Ends.bind_of_ok {r : Except Stop β} (hx : Ends x tokens p (.ok a) q)
    (hf : Ends (fun clock => f clock a) tokens q r i) :
    Ends (fun clock => x clock >>= f clock) tokens p r i := by
  obtain ⟨enough, hx⟩ := hx
  obtain ⟨enough', hf⟩ := hf
  refine ⟨max enough enough', fun clock hclock => ?_⟩
  rw [outcome_bind_of_ok (hx clock (Nat.le_trans (Nat.le_max_left _ _) hclock))]
  exact hf clock (Nat.le_trans (Nat.le_max_right _ _) hclock)

/-- A walk stops where its first part stops. -/
theorem Ends.bind_of_error {stop : Stop} (hx : Ends x tokens p (.error stop) q) :
    Ends (fun clock => x clock >>= f clock) tokens p (.error stop) q := by
  obtain ⟨enough, hx⟩ := hx
  exact ⟨enough, fun clock hclock => outcome_bind_of_error (hx clock hclock)⟩

end

/-! ## Walks and runs -/

variable {c : Cursor} {p : Nat}

/-- A walk from a place ends like the run of a parser from the cursor there. -/
inductive Follows (c : Cursor) (walk : Nat → Walk α) (parser : Parser α) (p : Nat) : Prop where
  /-- Both return the same. -/
  | ok {a : α} {q : Nat} (hq : q < c.remaining.length)
      (hrun : parser (c.skip p) = .ok a (c.skip q))
      (hwalk : Ends walk c.remaining p (.ok a) q)
  /-- Both fail alike. -/
  | error {d : Diagnostic} {q : Nat} (hq : q < c.remaining.length)
      (hrun : parser (c.skip p) = .error d (c.skip q))
      (hwalk : Ends walk c.remaining p (.error (.failure d)) q)

/-- A run that a walk follows ends at a place of the list, and the walk ends there, too. -/
theorem Follows.exists_ends {walk : Nat → Walk α} {parser : Parser α}
    (h : Follows c walk parser p) :
    ∃ r q, q < c.remaining.length ∧ Parser.Ends parser (c.skip p) r (c.skip q) ∧
      Ends walk c.remaining p (r.mapError .failure) q := by
  cases h with
  | ok hq hrun hwalk => exact ⟨_, _, hq, .ok hrun, hwalk⟩
  | error hq hrun hwalk => exact ⟨_, _, hq, .error hrun, hwalk⟩

theorem Follows.of_succ {walk : Nat → Walk α} {parser : Parser α}
    (h : Follows c (fun clock => walk (clock + 1)) parser p) : Follows c walk parser p := by
  cases h with
  | ok hq hrun hwalk => exact .ok hq hrun hwalk.of_succ
  | error hq hrun hwalk => exact .error hq hrun hwalk.of_succ

theorem Follows.of_eq {walk : Nat → Walk α} {parser parser' : Parser α}
    (h : Follows c walk parser p) (hparser : parser' (c.skip p) = parser (c.skip p)) :
    Follows c walk parser' p := by
  cases h with
  | ok hq hrun hwalk => exact .ok hq (hparser.trans hrun) hwalk
  | error hq hrun hwalk => exact .error hq (hparser.trans hrun) hwalk

theorem follows_pure (a : α) (hp : p < c.remaining.length) :
    Follows c (fun _ => pure a) (pure a) p :=
  .ok hp rfl (ends_of_outcome rfl)

theorem follows_fail (cause : Cause) (position : Position) (hp : p < c.remaining.length) :
    Follows c (fun _ => (fail cause position : Walk α)) (Parser.fail cause position) p :=
  .error hp rfl (ends_of_outcome rfl)

section

variable {x : Nat → Walk α} {y : Parser α} {f : Nat → α → Walk β} {g : α → Parser β}

/-- Where the first parts have returned the same, the walk goes on like the run. -/
theorem Follows.after {a : α} {q : Nat} (hwalk : Ends x c.remaining p (.ok a) q)
    (hrun : y (c.skip p) = .ok a (c.skip q)) (hf : Follows c (fun clock => f clock a) (g a) q) :
    Follows c (fun clock => x clock >>= f clock) (y >>= g) p := by
  have hrest := Parser.bind_of_eq_ok (f := g) hrun
  cases hf with
  | ok hi hrun' hwalk' => exact .ok hi (hrest.trans hrun') (hwalk.bind_of_ok hwalk')
  | error hi hrun' hwalk' => exact .error hi (hrest.trans hrun') (hwalk.bind_of_ok hwalk')

/-- Behind a first part that comes out alike, the walk goes on from the place where the run
goes on. -/
theorem Follows.bind (hx : Follows c x y p)
    (hf : ∀ a q, q < c.remaining.length → y (c.skip p) = .ok a (c.skip q) →
      Follows c (fun clock => f clock a) (g a) q) :
    Follows c (fun clock => x clock >>= f clock) (y >>= g) p := by
  cases hx with
  | ok hq hrun hwalk => exact (hf _ _ hq hrun).after hwalk hrun
  | error hq hrun hwalk => exact .error hq (Parser.bind_of_eq_error hrun) hwalk.bind_of_error

end

/-! ## Single tokens -/

/-- At the last place stands the end mark, and only there. -/
theorem kind_skip_eq_endOfInput_iff : (c.skip p).kind = .endOfInput ↔ c.rest.length ≤ p := by
  rw [Cursor.kind_eq_endOfInput_iff, Cursor.rest_skip, List.drop_eq_nil_iff]

theorem getElem?_remaining (hp : p < c.remaining.length) :
    c.remaining[p]? = some (c.skip p).current := by
  have htoken := List.getElem?_eq_getElem hp
  rw [htoken, Cursor.current_skip htoken]

theorem outcome_current (hp : p < c.remaining.length) :
    current.outcome c.remaining p = some (.ok (c.skip p).current, p) := by
  have hread : current.outcome c.remaining p =
      (match c.remaining[p]? with
        | some token => pure token
        | none => throw .outside : Walk Token).outcome c.remaining p := rfl
  rw [hread, getElem?_remaining hp]
  rfl

theorem follows_current {f : Nat → Token → Walk β} {g : Token → Parser β}
    (hp : p < c.remaining.length)
    (hf : Follows c (fun clock => f clock (c.skip p).current) (g (c.skip p).current) p) :
    Follows c (fun clock => current >>= f clock) (Parser.current >>= g) p :=
  hf.after (ends_of_outcome (outcome_current hp)) rfl

theorem outcome_kind (hp : p < c.remaining.length) :
    kind.outcome c.remaining p = some (.ok (c.skip p).kind, p) :=
  outcome_bind_of_ok (outcome_current hp)

theorem follows_kind {f : Nat → Kind → Walk β} {g : Kind → Parser β} (hp : p < c.remaining.length)
    (hf : Follows c (fun clock => f clock (c.skip p).kind) (g (c.skip p).kind) p) :
    Follows c (fun clock => kind >>= f clock) (Parser.kind >>= g) p :=
  hf.after (ends_of_outcome (outcome_kind hp)) rfl

theorem outcome_remaining (hp : p < c.remaining.length) :
    remaining.outcome c.remaining p = some (.ok (c.skip p).remaining, p) := by
  have hread : remaining.outcome c.remaining p =
      (if p ≤ c.remaining.length then pure (c.remaining.drop p) else throw .outside :
        Walk (List Token)).outcome c.remaining p := rfl
  rw [hread, if_pos (Nat.le_of_lt hp), Cursor.remaining_skip hp]
  rfl

/-- At the end mark a step stays where it is. -/
theorem outcome_advance_of_end (hp : p < c.remaining.length) (h : (c.skip p).kind = .endOfInput) :
    advance.outcome c.remaining p = some (.ok (c.skip p).current, p) := by
  refine (outcome_bind_of_ok (outcome_current hp)).trans ?_
  have hkind : ¬ (c.skip p).current.kind ≠ .endOfInput := not_not.2 h
  rw [if_neg hkind]
  rfl

/-- Behind any other token there is a next place. -/
theorem succ_lt_of_ne (h : (c.skip p).kind ≠ .endOfInput) : p + 1 < c.remaining.length := by
  rw [ne_eq, kind_skip_eq_endOfInput_iff] at h
  rw [Cursor.length_remaining]
  omega

/-- A step over any other token leads to the next place. -/
theorem outcome_advance_of_ne (hp : p < c.remaining.length) (h : (c.skip p).kind ≠ .endOfInput) :
    advance.outcome c.remaining p = some (.ok (c.skip p).current, p + 1) := by
  have hstep : step.outcome c.remaining p = some (.ok (), p + 1) := by
    have hgo : step.outcome c.remaining p =
        (if p + 1 < c.remaining.length then set (p + 1) else throw .outside : Walk Unit).outcome
          c.remaining p := rfl
    rw [hgo, if_pos (succ_lt_of_ne h)]
    rfl
  refine (outcome_bind_of_ok (outcome_current hp)).trans ?_
  have hkind : (c.skip p).current.kind ≠ .endOfInput := h
  rw [if_pos hkind]
  exact outcome_bind_of_ok hstep

theorem follows_advance (hp : p < c.remaining.length) :
    Follows c (fun _ => advance) Parser.advance p := by
  by_cases hend : (c.skip p).kind = .endOfInput
  · have hstay := Parser.advance_of_end hend
    exact .ok hp (Parser.advance_eq_ok_iff.2 ⟨rfl, hstay⟩)
      (ends_of_outcome (outcome_advance_of_end hp hend))
  · have hstep := c.advance_skip p
    exact .ok (succ_lt_of_ne hend) (Parser.advance_eq_ok_iff.2 ⟨rfl, hstep⟩)
      (ends_of_outcome (outcome_advance_of_ne hp hend))

theorem follows_refuse (hp : p < c.remaining.length) :
    Follows c (fun _ => (refuse : Walk α)) Parser.refuse p :=
  follows_current hp (follows_fail _ _ hp)

/-- Where the token that is asked for stands, it is stepped over. -/
theorem outcome_expect_of_kind {expected : Kind} (message : String) (hp : p < c.remaining.length)
    (h : (c.skip p).kind = expected) :
    (expect expected message).outcome c.remaining p = advance.outcome c.remaining p := by
  have hkind : (c.skip p).current.kind = expected := h
  refine (outcome_bind_of_ok (outcome_current hp)).trans ?_
  rw [if_pos hkind]

/-- Another token than the one asked for is complained of, and stays. -/
theorem outcome_expect_of_ne {expected : Kind} (message : String) (hp : p < c.remaining.length)
    (h : (c.skip p).kind ≠ expected) :
    (expect expected message).outcome c.remaining p =
      some (.error (.failure ⟨.unexpectedToken expected (c.skip p).current.describe message,
        (c.skip p).position⟩), p) := by
  have hkind : ¬ (c.skip p).current.kind = expected := h
  refine (outcome_bind_of_ok (outcome_current hp)).trans ?_
  rw [if_neg hkind]
  rfl

theorem follows_expect (expected : Kind) (message : String) (hp : p < c.remaining.length) :
    Follows c (fun _ => expect expected message) (Parser.expect expected message) p := by
  by_cases hkind : (c.skip p).kind = expected
  · have hwalk := outcome_expect_of_kind message hp hkind
    have hrun : Parser.expect expected message (c.skip p) = Parser.advance (c.skip p) :=
      Parser.expect_of_kind message hkind
    cases follows_advance hp with
    | ok hq hstep hends =>
      obtain ⟨enough, hends⟩ := hends
      exact .ok hq (hrun.trans hstep) (ends_of_outcome (hwalk.trans (hends enough (Nat.le_refl _))))
    | error _ hstep _ => cases hstep
  · exact .error hp (Parser.expect_of_ne message hkind)
      (ends_of_outcome (outcome_expect_of_ne message hp hkind))

/-- Another token than the one asked for is complained of by both. -/
theorem follows_expect_refused {f : Nat → Token → Walk β} {g : Token → Parser β} {expected : Kind}
    {message : String} (hp : p < c.remaining.length) (h : (c.skip p).kind ≠ expected) :
    Follows c (fun clock => expect expected message >>= f clock)
      (Parser.expect expected message >>= g) p :=
  .error hp (Parser.bind_of_eq_error (Parser.expect_of_ne message h))
    (ends_of_outcome (outcome_expect_of_ne message hp h)).bind_of_error

/-- A walk that asks for a token in vain stays where it is. -/
theorem place_of_expect {expected : Kind} {message : String} {stop : Stop} {q : Nat}
    (hp : p < c.remaining.length)
    (h : (expect expected message).outcome c.remaining p = some (.error stop, q)) : q = p := by
  by_cases hkind : (c.skip p).kind = expected
  · rw [outcome_expect_of_kind message hp hkind] at h
    by_cases hend : (c.skip p).kind = .endOfInput
    · cases (outcome_advance_of_end hp hend).symm.trans h
    · cases (outcome_advance_of_ne hp hend).symm.trans h
  · cases (outcome_expect_of_ne message hp hkind).symm.trans h
    rfl

/-! ## Room for the loops of a parser -/

/-- A place of the list with so many tokens left at most, the end mark not counted. -/
structure Room (c : Cursor) (n p : Nat) : Prop where
  /-- It is a place of the list. -/
  inside : p < c.remaining.length
  /-- What is left. -/
  left : (c.skip p).rest.length ≤ n

namespace Room

variable {n m : Nat}

theorem mono (h : Room c n p) (hn : n ≤ m) : Room c m p := ⟨h.inside, Nat.le_trans h.left hn⟩

/-- Without room the walk is at the end. -/
theorem end_of_zero (h : Room c 0 p) : (c.skip p).kind = .endOfInput :=
  (Cursor.kind_eq_endOfInput_iff _).2 (List.length_eq_zero_iff.1 (Nat.le_zero.1 h.left))

end Room

/-- The walk ends like the run from every place with so much room. -/
def FollowsWithin (c : Cursor) (n : Nat) (walk : Nat → Walk α) (parser : Parser α) : Prop :=
  ∀ ⦃p⦄, Room c n p → Follows c walk parser p

variable {n : Nat} {x : Nat → Walk α} {y : Parser α} {f : Nat → α → Walk β} {g : α → Parser β}

theorem FollowsWithin.mono {m : Nat} (h : FollowsWithin c m x y) (hn : n ≤ m) :
    FollowsWithin c n x y :=
  fun _ hroom => h (hroom.mono hn)

/-- Behind a first part there is as much room as before. -/
theorem Follows.bind_room [Parser.Forward y] (hroom : Room c n p) (hx : Follows c x y p)
    (hf : ∀ a q, Room c n q → Follows c (fun clock => f clock a) (g a) q) :
    Follows c (fun clock => x clock >>= f clock) (y >>= g) p := by
  refine hx.bind fun a q hq hrun => hf a q ⟨hq, ?_⟩
  exact Nat.le_trans (Parser.Forward.length_le hrun) hroom.left

/-- Behind a first part that consumes a token there is room for one token less. -/
theorem Follows.bind_consuming [Parser.Consuming y] (hroom : Room c (n + 1) p)
    (hx : Follows c x y p) (hf : ∀ a q, Room c n q → Follows c (fun clock => f clock a) (g a) q) :
    Follows c (fun clock => x clock >>= f clock) (y >>= g) p := by
  refine hx.bind fun a q hq hrun => hf a q ⟨hq, Nat.le_of_lt_succ ?_⟩
  exact Nat.lt_of_lt_of_le (Parser.Consuming.length_lt hrun) hroom.left

/-- Behind a step from a token that is no end mark there is room for one token less. -/
theorem follows_advance_of_kind {f : Nat → Token → Walk β} {g : Token → Parser β} {kind : Kind}
    (hroom : Room c (n + 1) p) (hkind : (c.skip p).kind = kind) (hne : kind ≠ .endOfInput)
    (hf : ∀ t q, Room c n q → Follows c (fun clock => f clock t) (g t) q) :
    Follows c (fun clock => advance >>= f clock) (Parser.advance >>= g) p := by
  refine (follows_advance hroom.inside).bind fun t q hq hrun => hf t q ⟨hq, ?_⟩
  obtain ⟨_, hplace⟩ := Parser.advance_eq_ok_iff.1 hrun
  have hlen := Cursor.length_rest_of_kind hkind hne
  have hleft := hroom.left
  rw [← hplace]
  omega

/-- Behind a token that is asked for and is no end mark there is room for one token less. -/
theorem follows_expect_of_ne {f : Nat → Token → Walk β} {g : Token → Parser β} {expected : Kind}
    {message : String} (hroom : Room c (n + 1) p) (hne : expected ≠ .endOfInput)
    (hf : ∀ t q, Room c n q → Follows c (fun clock => f clock t) (g t) q) :
    Follows c (fun clock => expect expected message >>= f clock)
      (Parser.expect expected message >>= g) p := by
  have := Parser.consuming_expect expected message hne
  exact (follows_expect expected message hroom.inside).bind_consuming hroom hf

/-- A walk follows the rounds of a bounded parser if it does so at the end of the input and in
each round.  The bound runs out only at the end of the input. -/
theorem follows_rounds {σ : Type} {limit : Nat} {x : Nat → σ → Walk α} {y : Nat → σ → Parser α}
    (hend : ∀ s p, p < c.remaining.length → (c.skip p).kind = .endOfInput →
      Follows c (x · s) (y 0 s) p)
    (hround : ∀ n s p, n < limit → Room c (n + 1) p →
      (∀ s, FollowsWithin c n (x · s) (y n s)) → Follows c (x · s) (y (n + 1) s) p)
    {s : σ} (hn : n ≤ limit) : FollowsWithin c n (x · s) (y n s) := by
  induction n generalizing s with
  | zero => exact fun p hroom => hend s p hroom.inside hroom.end_of_zero
  | succ n ih =>
    exact fun p hroom => hround n s p hn hroom fun s => ih (Nat.le_of_succ_le hn)

/-- At the end of the input a loop returns something made of what it carries along. -/
theorem follows_loop {σ : Type} {limit : Nat} {x : Nat → σ → Walk α} {y : Nat → σ → Parser α}
    {out : σ → α}
    (hx : ∀ clock s p, p < c.remaining.length → (c.skip p).kind = .endOfInput →
      (x (clock + 1) s).outcome c.remaining p = some (.ok (out s), p))
    (hy : ∀ s c', y 0 s c' = .ok (out s) c')
    (hround : ∀ n s p, n < limit → Room c (n + 1) p →
      (∀ s, FollowsWithin c n (x · s) (y n s)) →
        Follows c (fun clock => x (clock + 1) s) (y (n + 1) s) p)
    {s : σ} (hn : n ≤ limit) : FollowsWithin c n (x · s) (y n s) := by
  refine follows_rounds (fun s p hp hend => ?_) (fun n s p hn hroom ih => ?_) hn
  · exact .of_succ (.ok hp (hy s _) ⟨0, fun clock _ => hx clock s p hp hend⟩)
  · exact .of_succ (hround n s p hn hroom ih)

end Walk

end Scriptlet
