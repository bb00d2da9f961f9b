import Scriptlet.Proofs.Parse.Passing

/-!
# Parsers move forward

A run of a parser ends with a result or with a failure, and in either case at some cursor
(`Parser.Ends`).  That cursor is never before the one where the run started, whatever the
parser found on its way: every parser of the language is `Forward`.

This holds of each way of putting parsers together, so it is a class, and the instances
follow the parser.
-/

namespace Scriptlet.Parser

open Token (Kind)

variable {α β : Type}

/-! ## Ends of runs -/

/-- A run of a parser ends with a result or with a failure, at some cursor. -/
inductive Ends (parser : Parser α) (c : Cursor) : Except Diagnostic α → Cursor → Prop where
  /-- With a result. -/
  | ok {a : α} {c' : Cursor} (h : parser c = .ok a c') : Ends parser c (.ok a) c'
  /-- With a failure. -/
  | error {d : Diagnostic} {c' : Cursor} (h : parser c = .error d c') : Ends parser c (.error d) c'

/-- Every run ends. -/
theorem exists_ends (parser : Parser α) (c : Cursor) : ∃ r c', Ends parser c r c' := by
  cases hrun : parser c with
  | ok a c' => exact ⟨_, _, .ok hrun⟩
  | error d c' => exact ⟨_, _, .error hrun⟩

theorem bind_of_eq_error {x : Parser α} {f : α → Parser β} {c c' : Cursor} {d : Diagnostic}
    (h : x c = .error d c') : (x >>= f) c = .error d c' := by
  simp only [bind, EStateM.bind, h]

theorem Ends.of_eq {x y : Parser α} {c c' : Cursor} {r : Except Diagnostic α} (h : Ends x c r c')
    (heq : x c = y c) : Ends y c r c' := by
  cases h with
  | ok hrun => exact .ok (heq.symm.trans hrun)
  | error hrun => exact .error (heq.symm.trans hrun)

/-- A run goes on where its first part has ended. -/
theorem Ends.bind {x : Parser α} {f : α → Parser β} {c c' c'' : Cursor} {a : α}
    {r : Except Diagnostic β} (hx : x c = .ok a c') (h : Ends (f a) c' r c'') :
    Ends (x >>= f) c r c'' := by
  cases h with
  | ok hrun => exact .ok ((bind_of_eq_ok hx).trans hrun)
  | error hrun => exact .error ((bind_of_eq_ok hx).trans hrun)

/-- A run ends behind its first part, or with the failure of the first part. -/
theorem Ends.of_bind {x : Parser α} {f : α → Parser β} {c c'' : Cursor}
    {r : Except Diagnostic β} (h : Ends (x >>= f) c r c'') :
    (∃ a c', x c = .ok a c' ∧ Ends (f a) c' r c'') ∨ ∃ d, x c = .error d c'' ∧ r = .error d := by
  cases hx : x c with
  | ok a c' =>
    refine .inl ⟨a, c', rfl, ?_⟩
    cases h with
    | ok hrun => exact .ok ((bind_of_eq_ok hx).symm.trans hrun)
    | error hrun => exact .error ((bind_of_eq_ok hx).symm.trans hrun)
  | error d c' =>
    have hfails : (x >>= f) c = .error d c' := bind_of_eq_error hx
    cases h with
    | ok hrun => cases hfails.symm.trans hrun
    | error hrun =>
      cases hfails.symm.trans hrun
      exact .inr ⟨d, rfl, rfl⟩

/-! ## Moving forward -/

/-- Wherever a run of a parser ends, the cursor has only moved forward. -/
class Forward (parser : Parser α) : Prop where
  /-- The end of a run is reached by passing over terminals. -/
  passes : ∀ {c c' : Cursor} {r : Except Diagnostic α}, Ends parser c r c' → ∃ ts, c.Passes ts c'

/-- At the end mark the cursor stays where it is. -/
theorem advance_of_end {c : Cursor} (h : c.kind = .endOfInput) : c.advance = c := by
  refine Cursor.ext_rest ?_ rfl
  have hrest : c.advance.rest = c.rest.tail := rfl
  rw [hrest, c.kind_eq_endOfInput_iff.1 h, List.tail_nil]

/-- A step passes over the current token, or over none at the end mark. -/
theorem exists_passes_advance (c : Cursor) : ∃ ts, c.Passes ts c.advance := by
  by_cases hend : c.kind = .endOfInput
  · exact ⟨[], by rw [advance_of_end hend]; exact .refl c⟩
  · exact ⟨_, Cursor.passes_advance hend⟩

/-- A parser that never fails moves forward if its step does. -/
theorem Forward.of_eq_ok {parser : Parser α} {value : Cursor → α} {step : Cursor → Cursor}
    (hrun : ∀ c, parser c = .ok (value c) (step c))
    (hstep : ∀ c : Cursor, ∃ ts, c.Passes ts (step c)) : Forward parser where
  passes {c _ _} h := by
    cases h with
    | ok h =>
      cases (hrun c).symm.trans h
      exact hstep c
    | error h => cases (hrun c).symm.trans h

instance (a : α) : Forward (pure a : Parser α) :=
  .of_eq_ok (fun _ => rfl) fun c => ⟨[], .refl c⟩

instance : Forward current := .of_eq_ok (fun _ => rfl) fun c => ⟨[], .refl c⟩

instance : Forward kind := .of_eq_ok (fun _ => rfl) fun c => ⟨[], .refl c⟩

instance : Forward advance := .of_eq_ok (fun _ => rfl) exists_passes_advance

instance (cause : Cause) (position : Position) : Forward (fail cause position : Parser α) where
  passes {c _ _} h := by
    cases h with
    | ok h => cases h
    | error h =>
      cases h
      exact ⟨[], .refl c⟩

theorem Forward.bind {x : Parser α} {f : α → Parser β} [Forward x] (hf : ∀ a, Forward (f a)) :
    Forward (x >>= f) where
  passes h := by
    rcases h.of_bind with ⟨a, c', hx, hrest⟩ | ⟨d, hx, rfl⟩
    · obtain ⟨ts, hts⟩ := Forward.passes (.ok hx)
      obtain ⟨us, hus⟩ := (hf a).passes hrest
      exact ⟨ts ++ us, hts.trans hus⟩
    · exact Forward.passes (.error hx)

instance {x : Parser α} {f : α → Parser β} [Forward x] [hf : ∀ a, Forward (f a)] :
    Forward (x >>= f) := .bind hf

instance {p : Prop} [Decidable p] {x y : Parser α} [Forward x] [Forward y] :
    Forward (if p then x else y) := by
  split <;> infer_instance

instance (expected : Kind) (message : String) : Forward (expect expected message) := by
  unfold expect
  infer_instance

instance : Forward (refuse : Parser α) := by
  unfold refuse
  infer_instance

/-- A run leaves no more tokens than there were. -/
theorem Forward.length_le {parser : Parser α} [Forward parser] {c c' : Cursor} {a : α}
    (h : parser c = .ok a c') : c'.rest.length ≤ c.rest.length := by
  obtain ⟨ts, hts⟩ := Forward.passes (.ok h)
  have hlen := hts.length_eq
  omega

/-! ## Consuming tokens -/

/-- A parser that returns a result has consumed at least one token for it. -/
class Consuming (parser : Parser α) : Prop extends Forward parser where
  /-- Fewer tokens are left. -/
  length_lt : ∀ {c c' : Cursor} {a : α}, parser c = .ok a c' → c'.rest.length < c.rest.length

/-- What starts by consuming a token consumes one. -/
theorem Consuming.bind {x : Parser α} {f : α → Parser β} [Consuming x] (hf : ∀ a, Forward (f a)) :
    Consuming (x >>= f) where
  length_lt h := by
    obtain ⟨a, c₁, hx, hrest⟩ := bind_eq_ok_iff.1 h
    have hlt := Consuming.length_lt hx
    have hle := Forward.length_le hrest
    omega

instance {x : Parser α} {f : α → Parser β} [Consuming x] [hf : ∀ a, Forward (f a)] :
    Consuming (x >>= f) := .bind hf

/-- What goes on by consuming a token consumes one. -/
theorem Consuming.bind_right {x : Parser α} {f : α → Parser β} [Forward x]
    (hf : ∀ a, Consuming (f a)) : Consuming (x >>= f) where
  passes := (Forward.bind fun a => (hf a).toForward).passes
  length_lt h := by
    obtain ⟨a, c₁, hx, hrest⟩ := bind_eq_ok_iff.1 h
    have hle := Forward.length_le hx
    have hlt := (hf a).length_lt hrest
    omega

instance : Consuming (refuse : Parser α) where
  length_lt h := absurd h refuse_ne_ok

/-- Behind a step from a token that is no end mark fewer tokens are left. -/
theorem length_lt_of_advance {f : Token → Parser α} [∀ t, Forward (f t)] {c c' : Cursor} {a : α}
    {kind : Kind} (hkind : c.kind = kind) (hne : kind ≠ .endOfInput)
    (h : (advance >>= f) c = .ok a c') : c'.rest.length < c.rest.length := by
  obtain ⟨t, c₁, hstep, hf⟩ := bind_eq_ok_iff.1 h
  obtain ⟨_, rfl⟩ := advance_eq_ok_iff.1 hstep
  rw [← hkind] at hne
  have hlen := (Cursor.passes_advance hne).length_eq
  have hle := Forward.length_le hf
  rw [List.length_singleton] at hlen
  omega

theorem consuming_expect (expected : Kind) (message : String) (h : expected ≠ .endOfInput) :
    Consuming (expect expected message) where
  length_lt hrun := by
    obtain ⟨hkind, _, rfl⟩ := expect_eq_ok_iff.1 hrun
    rw [← hkind] at h
    have hlen := (Cursor.passes_advance h).length_eq
    rw [List.length_singleton] at hlen
    omega

end Scriptlet.Parser
