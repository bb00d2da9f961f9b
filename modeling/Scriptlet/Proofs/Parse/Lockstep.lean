import Scriptlet.Proofs.Parse.Failure
import Scriptlet.Proofs.Parse.Forward

/-!
# Runs in step

Two runs of a parser on two token lists are compared token by token.  A `Pairing` says which
cursors of the two lists belong together, and how far the first run is followed.  It has to be
kept by a step, and cursors that belong together have to stand at like tokens.

`InStep` says that wherever the first run ends, if it is followed that far, the second run ends
at the cursor that belongs to it and with the same outcome.  There is one rule for each way of
putting parsers together.  Tokens that are alike may stand at different places, so a token is
never the result of a part in these rules: what is behind it is given the two tokens.

Readers are bounded by the count of tokens left, and the two lists may be of different lengths.
So the bounds of the two runs are independent, and `Room` keeps them both.
-/

namespace Scriptlet

open Token (Kind)

/-- Whether a cause tells which token was found where another one had to stand. -/
def Cause.tellsFound : Cause → Bool
  | .unexpectedToken _ _ _ | .unrecognisedPrimary _ => true
  | _ => false

/-- A way to walk over two token lists side by side. -/
structure Pairing where
  /-- The cursors that belong together. -/
  Pairs : Cursor → Cursor → Prop
  /-- How far the first run is followed. -/
  Within : Cursor → Prop
  /-- Cursors that belong together stand at like tokens. -/
  terminal_eq : ∀ {c c' : Cursor}, Pairs c c' → c'.current.terminal = c.current.terminal
  /-- They still belong together one step further. -/
  pairs_advance : ∀ {c c' : Cursor}, Pairs c c' → Within c.advance → Pairs c.advance c'.advance
  /-- A run that is followed to some cursor is followed everywhere before. -/
  within_of_passes : ∀ {c c' : Cursor} {ts : List Terminal}, c.Passes ts c' → Within c' → Within c

namespace Pairing

variable {P : Pairing} {c c' : Cursor}

theorem kind_eq (h : P.Pairs c c') : c'.kind = c.kind :=
  congrArg Terminal.kind (P.terminal_eq h)

theorem value_eq (h : P.Pairs c c') : c'.current.value = c.current.value :=
  congrArg Terminal.value (P.terminal_eq h)

/-- What a token is called in a message does not depend on its place. -/
theorem describe_eq (h : P.Pairs c c') : c'.current.describe = c.current.describe := by
  have hkind : c'.current.kind = c.current.kind := kind_eq h
  simp only [Token.describe, hkind, value_eq h]

/-- Runs that end at these cursors give the same result, or the same failure.  It is blamed on
tokens that belong together, which may stand further back, but not if it tells which token was
found. -/
inductive SameOutcome (P : Pairing) {α : Type} (c c' : Cursor) :
    Except Diagnostic α → Except Diagnostic α → Prop where
  /-- The same result. -/
  | ok (a : α) : SameOutcome P c c' (.ok a) (.ok a)
  /-- The same failure. -/
  | error (cause : Cause) {k k' : Cursor} (h : P.Pairs k k') (hstop : cause.tellsFound → k = c) :
      SameOutcome P c c' (.error ⟨cause, k.position⟩) (.error ⟨cause, k'.position⟩)

/-! ## Room for two runs -/

/-- Cursors that belong together, with so many tokens left at most. -/
structure Room (P : Pairing) (n n' : Nat) (c c' : Cursor) : Prop where
  /-- They belong together. -/
  pairs : P.Pairs c c'
  /-- What is left for the first run. -/
  left : c.rest.length ≤ n
  /-- What is left for the second run. -/
  right : c'.rest.length ≤ n'

namespace Room

variable {n n' m m' : Nat}

theorem mono (h : P.Room n n' c c') (hn : n ≤ m) (hn' : n' ≤ m') : P.Room m m' c c' :=
  ⟨h.pairs, Nat.le_trans h.left hn, Nat.le_trans h.right hn'⟩

/-- Without room for the first run both are at the end. -/
theorem end_of_left (h : P.Room 0 n' c c') : c.kind = .endOfInput :=
  c.kind_eq_endOfInput_iff.2 (List.length_eq_zero_iff.1 (Nat.le_zero.1 h.left))

/-- Without room for the second run both are at the end. -/
theorem end_of_right (h : P.Room n 0 c c') : c.kind = .endOfInput :=
  (kind_eq h.pairs).symm.trans
    (c'.kind_eq_endOfInput_iff.2 (List.length_eq_zero_iff.1 (Nat.le_zero.1 h.right)))

/-- A step takes room for one token. -/
theorem advance (h : P.Room (n + 1) (n' + 1) c c') (hpairs : P.Pairs c.advance c'.advance)
    (hkind : c.kind ≠ .endOfInput) : P.Room n n' c.advance c'.advance := by
  have hlen := Cursor.length_rest_of_kind rfl hkind
  have hlen' := Cursor.length_rest_of_kind (kind_eq h.pairs) hkind
  have hleft := h.left
  have hright := h.right
  exact ⟨hpairs, by omega, by omega⟩

theorem step (h : P.Room n n' c c') (hpairs : P.Pairs c.advance c'.advance) :
    P.Room n n' c.advance c'.advance := by
  have hlen : c.advance.rest.length = c.rest.length - 1 := List.length_tail
  have hlen' : c'.advance.rest.length = c'.rest.length - 1 := List.length_tail
  have hleft := h.left
  have hright := h.right
  exact ⟨hpairs, by omega, by omega⟩

end Room

end Pairing

namespace Parser

open Pairing

variable {α β : Type} {P : Pairing} {c c' : Cursor}

/-! ## Runs that stay in step -/

/-- Wherever the run of the first parser ends, if it is followed that far, the run of the second
ends at a cursor that belongs to it and with the same outcome. -/
def InStep (P : Pairing) (x y : Parser α) (c c' : Cursor) : Prop :=
  ∀ ⦃r : Except Diagnostic α⦄ ⦃c₁ : Cursor⦄, Ends x c r c₁ → P.Within c₁ →
    ∃ (r' : Except Diagnostic α) (c₁' : Cursor),
      Ends y c' r' c₁' ∧ P.Pairs c₁ c₁' ∧ P.SameOutcome c₁ c₁' r r'

/-- The runs stay in step wherever there is room for them. -/
def InStepWithin (P : Pairing) (n n' : Nat) (x y : Parser α) : Prop :=
  ∀ ⦃c c' : Cursor⦄, P.Room n n' c c' → InStep P x y c c'

/-- Parsers that stay where they are and return the same. -/
theorem inStep_of_eq_ok {x y : Parser α} {a : α} (h : P.Pairs c c') (hx : x c = .ok a c)
    (hy : y c' = .ok a c') : InStep P x y c c' := by
  intro r c₁ hends _
  cases hends with
  | ok hrun =>
    cases hx.symm.trans hrun
    exact ⟨_, _, .ok hy, h, .ok a⟩
  | error hrun => cases hx.symm.trans hrun

theorem inStep_pure (a : α) (h : P.Pairs c c') : InStep P (pure a) (pure a) c c' :=
  inStep_of_eq_ok h rfl rfl

/-- Parsers that stay where they are and fail alike. -/
theorem inStep_of_eq_error {x y : Parser α} {k k' : Cursor} {cause : Cause} (h : P.Pairs c c')
    (hk : P.Pairs k k') (hstop : cause.tellsFound → k = c)
    (hx : x c = .error ⟨cause, k.position⟩ c) (hy : y c' = .error ⟨cause, k'.position⟩ c') :
    InStep P x y c c' := by
  intro r c₁ hends _
  cases hends with
  | ok hrun => cases hx.symm.trans hrun
  | error hrun =>
    cases hx.symm.trans hrun
    exact ⟨_, _, .error hy, h, .error cause hk hstop⟩

/-- A failure that does not tell which token was found may be blamed on one further back. -/
theorem inStep_fail {k k' : Cursor} {cause : Cause} (hcause : cause.tellsFound = false)
    (h : P.Pairs c c') (hk : P.Pairs k k') :
    InStep P (fail cause k.position : Parser α) (fail cause k'.position) c c' := by
  refine inStep_of_eq_error h hk (fun htells => ?_) rfl rfl
  rw [hcause] at htells
  cases htells

theorem InStep.of_eq {x y x' y' : Parser α} (h : InStep P x' y' c c') (hx : x c = x' c)
    (hy : y c' = y' c') : InStep P x y c c' := by
  intro r c₁ hends hwithin
  obtain ⟨r', c₁', hends', hpairs, hsame⟩ := h (hends.of_eq hx) hwithin
  exact ⟨r', c₁', hends'.of_eq hy.symm, hpairs, hsame⟩

/-- Behind a first part that stays in step, the runs go on at cursors that belong together. -/
theorem InStep.bind {x y : Parser α} {f g : α → Parser β} [F : ∀ a, Forward (f a)]
    (hx : InStep P x y c c')
    (hf : ∀ a c₁ c₁', x c = .ok a c₁ → y c' = .ok a c₁' → P.Pairs c₁ c₁' →
      InStep P (f a) (g a) c₁ c₁') : InStep P (x >>= f) (y >>= g) c c' := by
  intro r c₂ hends hwithin
  rcases hends.of_bind with ⟨a, c₁, hrun, hrest⟩ | ⟨d, hrun, rfl⟩
  · obtain ⟨ts, hts⟩ := (F a).passes hrest
    obtain ⟨r', c₁', hends', hpairs, hsame⟩ := hx (.ok hrun) (P.within_of_passes hts hwithin)
    cases hsame
    cases hends' with
    | ok hrun' =>
      obtain ⟨r'', c₂', hends'', hpairs', hsame'⟩ :=
        hf a c₁ c₁' hrun hrun' hpairs hrest hwithin
      exact ⟨r'', c₂', hends''.bind hrun', hpairs', hsame'⟩
  · obtain ⟨r', c₁', hends', hpairs, hsame⟩ := hx (.error hrun) hwithin
    cases hsame with
    | error cause hk hstop =>
      cases hends' with
      | error hrun' =>
        exact ⟨_, c₁', .error (bind_of_eq_error hrun'), hpairs, .error cause hk hstop⟩

/-- Behind a first part there is as much room as before. -/
theorem InStep.bind_room {x y : Parser α} {f g : α → Parser β} [Forward x] [Forward y]
    [F : ∀ a, Forward (f a)] {n n' : Nat} (hroom : P.Room n n' c c') (hx : InStep P x y c c')
    (hf : ∀ a c₁ c₁', P.Room n n' c₁ c₁' → InStep P (f a) (g a) c₁ c₁') :
    InStep P (x >>= f) (y >>= g) c c' := by
  refine hx.bind fun a c₁ c₁' hrun hrun' hpairs => ?_
  have hle := Nat.le_trans (Forward.length_le hrun) hroom.left
  have hle' := Nat.le_trans (Forward.length_le hrun') hroom.right
  exact hf a c₁ c₁' ⟨hpairs, hle, hle'⟩

/-- Behind a first part that consumes a token there is room for one token less. -/
theorem InStep.bind_consuming {x y : Parser α} {f g : α → Parser β} [Consuming x] [Consuming y]
    [F : ∀ a, Forward (f a)] {n n' : Nat} (hroom : P.Room (n + 1) (n' + 1) c c')
    (hx : InStep P x y c c')
    (hf : ∀ a c₁ c₁', P.Room n n' c₁ c₁' → InStep P (f a) (g a) c₁ c₁') :
    InStep P (x >>= f) (y >>= g) c c' := by
  refine hx.bind fun a c₁ c₁' hrun hrun' hpairs => ?_
  have hlt := Nat.lt_of_lt_of_le (Consuming.length_lt hrun) hroom.left
  have hlt' := Nat.lt_of_lt_of_le (Consuming.length_lt hrun') hroom.right
  exact hf a c₁ c₁' ⟨hpairs, Nat.le_of_lt_succ hlt, Nat.le_of_lt_succ hlt'⟩

/-- First parts that cannot fail only move the cursors. -/
theorem inStep_bind_of_eq_ok {γ δ : Type} {x : Parser γ} {y : Parser δ} {f : γ → Parser β}
    {g : δ → Parser β} {a : γ} {b : δ} {c₁ c₁' : Cursor} (hx : x c = .ok a c₁)
    (hy : y c' = .ok b c₁') (hf : InStep P (f a) (g b) c₁ c₁') :
    InStep P (x >>= f) (y >>= g) c c' := by
  intro r c₂ hends hwithin
  rcases hends.of_bind with ⟨a', c₁'', hrun, hrest⟩ | ⟨d, hrun, rfl⟩
  · cases hx.symm.trans hrun
    obtain ⟨r', c₂', hends', hpairs, hsame⟩ := hf hrest hwithin
    exact ⟨r', c₂', hends'.bind hy, hpairs, hsame⟩
  · cases hx.symm.trans hrun

/-! ## Single tokens in step -/

/-- The two runs look at the same kind. -/
theorem inStep_kind {f g : Kind → Parser β} (h : P.Pairs c c')
    (hf : InStep P (f c.kind) (g c.kind) c c') : InStep P (kind >>= f) (kind >>= g) c c' :=
  inStep_bind_of_eq_ok rfl (kind_eq_ok_iff.2 ⟨kind_eq h, rfl⟩) hf

theorem inStep_current {f g : Token → Parser β}
    (hf : InStep P (f c.current) (g c'.current) c c') :
    InStep P (current >>= f) (current >>= g) c c' :=
  inStep_bind_of_eq_ok rfl rfl hf

/-- First parts that consume the current token take a step together. -/
theorem inStep_step {x y : Parser Token} {f g : Token → Parser β} [F : ∀ t, Forward (f t)]
    (hx : x c = .ok c.current c.advance) (hy : y c' = .ok c'.current c'.advance)
    (h : P.Pairs c c')
    (hf : P.Pairs c.advance c'.advance →
      InStep P (f c.current) (g c'.current) c.advance c'.advance) :
    InStep P (x >>= f) (y >>= g) c c' := by
  intro r c₂ hends hwithin
  rcases hends.of_bind with ⟨t, c₁, hrun, hrest⟩ | ⟨d, hrun, rfl⟩
  · cases hx.symm.trans hrun
    obtain ⟨ts, hts⟩ := (F _).passes hrest
    have hpairs := P.pairs_advance h (P.within_of_passes hts hwithin)
    obtain ⟨r', c₂', hends', hpairs', hsame⟩ := hf hpairs hrest hwithin
    exact ⟨r', c₂', hends'.bind hy, hpairs', hsame⟩
  · cases hx.symm.trans hrun

theorem inStep_advance {f g : Token → Parser β} [F : ∀ t, Forward (f t)] (h : P.Pairs c c')
    (hf : P.Pairs c.advance c'.advance →
      InStep P (f c.current) (g c'.current) c.advance c'.advance) :
    InStep P (advance >>= f) (advance >>= g) c c' :=
  inStep_step rfl rfl h hf

/-- A step from a token that is no end mark leaves room for one token less. -/
theorem inStep_advance_of_kind {f g : Token → Parser β} [F : ∀ t, Forward (f t)] {n n' : Nat}
    {kind : Kind} (hroom : P.Room (n + 1) (n' + 1) c c') (hkind : c.kind = kind)
    (hne : kind ≠ .endOfInput)
    (hf : P.Room n n' c.advance c'.advance →
      InStep P (f c.current) (g c'.current) c.advance c'.advance) :
    InStep P (advance >>= f) (advance >>= g) c c' :=
  inStep_advance hroom.pairs fun hpairs => hf (hroom.advance hpairs (by rwa [hkind]))

theorem inStep_refuse (h : P.Pairs c c') : InStep P (refuse : Parser α) refuse c c' := by
  refine inStep_of_eq_error h h (fun _ => rfl) rfl ?_
  rw [← describe_eq h]
  rfl

/-- Another token than the one asked for is complained of, and stays. -/
theorem expect_of_ne {expected : Kind} (message : String) (h : c.kind ≠ expected) :
    expect expected message c =
      .error ⟨.unexpectedToken expected c.current.describe message, c.position⟩ c := by
  have hkind : c.current.kind ≠ expected := h
  have hlook : current c = .ok c.current c := rfl
  refine (bind_of_eq_ok hlook).trans ?_
  rw [if_neg hkind]
  rfl

/-- The two runs complain of the same token. -/
theorem inStep_expect_refused {f g : Token → Parser β} {expected : Kind} {message : String}
    (h : P.Pairs c c') (hkind : c.kind ≠ expected) :
    InStep P (expect expected message >>= f) (expect expected message >>= g) c c' := by
  have hkind' : c'.kind ≠ expected := by rwa [kind_eq h]
  refine inStep_of_eq_error h h (fun _ => rfl) (bind_of_eq_error (expect_of_ne message hkind)) ?_
  rw [← describe_eq h]
  exact bind_of_eq_error (expect_of_ne message hkind')

/-- The two runs find the token they ask for, or both complain of the same. -/
theorem inStep_expect {f g : Token → Parser β} [F : ∀ t, Forward (f t)] {expected : Kind}
    {message : String} (h : P.Pairs c c')
    (hf : c.kind = expected → P.Pairs c.advance c'.advance →
      InStep P (f c.current) (g c'.current) c.advance c'.advance) :
    InStep P (expect expected message >>= f) (expect expected message >>= g) c c' := by
  by_cases hkind : c.kind = expected
  · have hkind' : c'.kind = expected := (kind_eq h).trans hkind
    exact inStep_step (expect_of_kind message hkind) (expect_of_kind message hkind') h (hf hkind)
  · exact inStep_expect_refused h hkind

/-- A token that is no end mark is asked for, and behind it there is room for one less. -/
theorem inStep_expect_of_ne {f g : Token → Parser β} [F : ∀ t, Forward (f t)] {expected : Kind}
    {message : String} {n n' : Nat} (hroom : P.Room (n + 1) (n' + 1) c c')
    (hne : expected ≠ .endOfInput)
    (hf : P.Room n n' c.advance c'.advance →
      InStep P (f c.current) (g c'.current) c.advance c'.advance) :
    InStep P (expect expected message >>= f) (expect expected message >>= g) c c' :=
  inStep_expect hroom.pairs fun hkind hpairs => hf (hroom.advance hpairs (by rwa [hkind]))

/-! ## Rounds of a loop -/

/-- Loops with bounds of their own stay in step if they do so at the end of the input and in each
round.  What a loop carries along is the same for both. -/
theorem inStep_rounds {σ : Type} {limit limit' : Nat} {x y : Nat → σ → Parser α}
    (hend : ∀ n n' s c c', P.Pairs c c' → c.kind = .endOfInput → InStep P (x n s) (y n' s) c c')
    (hround : ∀ n n' s c c', n < limit → n' < limit' → P.Room (n + 1) (n' + 1) c c' →
      (∀ s c₁ c₁', P.Room n n' c₁ c₁' → InStep P (x n s) (y n' s) c₁ c₁') →
        InStep P (x (n + 1) s) (y (n' + 1) s) c c')
    {n n' : Nat} {s : σ} (hn : n ≤ limit) (hn' : n' ≤ limit') (hroom : P.Room n n' c c') :
    InStep P (x n s) (y n' s) c c' := by
  induction n generalizing n' s c c' with
  | zero => exact hend _ _ _ _ _ hroom.pairs hroom.end_of_left
  | succ n ih =>
    cases n' with
    | zero => exact hend _ _ _ _ _ hroom.pairs hroom.end_of_right
    | succ n' =>
      refine hround n n' s c c' hn hn' hroom fun s c₁ c₁' hroom₁ => ?_
      exact ih (Nat.le_of_succ_le hn) (Nat.le_of_succ_le hn') hroom₁

/-- At the end of the input a loop returns something made of what it carries along. -/
theorem inStep_loop {σ : Type} {limit limit' : Nat} {x y : Nat → σ → Parser α} {out : σ → α}
    (hx : ∀ n s (c : Cursor), c.kind = .endOfInput → x n s c = .ok (out s) c)
    (hy : ∀ n s (c : Cursor), c.kind = .endOfInput → y n s c = .ok (out s) c)
    (hround : ∀ n n' s c c', n < limit → n' < limit' → P.Room (n + 1) (n' + 1) c c' →
      (∀ s c₁ c₁', P.Room n n' c₁ c₁' → InStep P (x n s) (y n' s) c₁ c₁') →
        InStep P (x (n + 1) s) (y (n' + 1) s) c c')
    {n n' : Nat} {s : σ} (hn : n ≤ limit) (hn' : n' ≤ limit') (hroom : P.Room n n' c c') :
    InStep P (x n s) (y n' s) c c' := by
  refine inStep_rounds (fun n n' s c c' hpairs hend => ?_) hround hn hn' hroom
  exact inStep_of_eq_ok hpairs (hx n s c hend) (hy n' s c' ((kind_eq hpairs).trans hend))

end Parser

end Scriptlet
