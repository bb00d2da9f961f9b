import Scriptlet.Expr.Parse

/-!
# Passing over terminals

A parser that succeeds has moved the cursor forward, and what it has read are
the terminals it moved over.  `Cursor.Passes c ts c'` says that the cursor gets
from `c` to `c'` by moving over `ts`.  The facts about parsers are stated with
it, so places of tokens and indices of cursors do not occur in them.

A run of a parser is taken apart by one equation for each step it is made of:
`bind_eq_ok_iff`, `expect_eq_ok_iff` and their like.
-/

namespace Scriptlet

open Token (Kind)

/-- The kind of the first terminal, where an empty list is at the end of the
input. -/
def headKind : List Terminal → Kind
  | [] => .endOfInput
  | t :: _ => t.kind

@[simp] theorem headKind_nil : headKind [] = .endOfInput := rfl

@[simp] theorem headKind_cons (t : Terminal) (ts : List Terminal) :
    headKind (t :: ts) = t.kind := rfl

theorem headKind_append {ts : List Terminal} (us : List Terminal) (h : ts ≠ []) :
    headKind (ts ++ us) = headKind ts := by
  cases ts with
  | nil => exact absurd rfl h
  | cons t ts => rfl

namespace Cursor

/-- The terminals still to come, without the end mark. -/
def terminals (c : Cursor) : List Terminal := c.rest.map Token.terminal

/-- A cursor is given by the tokens still to come and the end mark. -/
theorem ext_rest {c c' : Cursor} (hrest : c.rest = c'.rest) (hclosing : c.closing = c'.closing) :
    c = c' := by
  cases c
  cases c'
  cases hrest
  cases hclosing
  rfl

@[simp] theorem length_terminals (c : Cursor) : c.terminals.length = c.rest.length := by
  simp [terminals]

/-- The kind of the current token is that of the first terminal to come. -/
theorem kind_eq_headKind (c : Cursor) : c.kind = headKind c.terminals := by
  obtain ⟨rest, closing, hrest, hclosing⟩ := c
  cases rest with
  | nil => exact hclosing
  | cons t rest => rfl

/-- What remains of a cursor starts with the current token. -/
theorem head?_remaining (c : Cursor) : c.remaining.head? = some c.current := by
  obtain ⟨rest, closing, _, _⟩ := c
  cases rest <;> rfl

/-- What remains of a cursor makes that cursor. -/
theorem ofTokens_remaining (c : Cursor) : ofTokens c.remaining = .ok c := by
  obtain ⟨rest, closing, hrest, hclosing⟩ := c
  unfold ofTokens
  split
  next early hearly =>
    have hmem := List.mem_of_find?_eq_some hearly
    have hkind := List.find?_some hearly
    rw [remaining, List.dropLast_concat] at hmem
    exact absurd (of_decide_eq_true hkind) (hrest early hmem)
  next hearly =>
    split
    next hlast => simp [remaining] at hlast
    next last hlast =>
      simp only [remaining, List.getLast?_concat, Option.some.injEq] at hlast
      cases hlast
      simp only [remaining, List.dropLast_concat, hclosing, dif_pos]

theorem ofTokens_eq_ok_iff {tokens : List Token} {c : Cursor} :
    ofTokens tokens = .ok c ↔ c.remaining = tokens := by
  constructor
  · exact remaining_of_ofTokens
  · rintro rfl
    exact ofTokens_remaining c

/-! ## Passing -/

/-- Moving over some terminals leads from one cursor to another. -/
def Passes (c : Cursor) (ts : List Terminal) (c' : Cursor) : Prop :=
  ∃ tokens, tokens.map Token.terminal = ts ∧ c.rest = tokens ++ c'.rest ∧ c.closing = c'.closing

theorem Passes.refl (c : Cursor) : c.Passes [] c := ⟨[], rfl, rfl, rfl⟩

theorem Passes.eq_of_nil {c c' : Cursor} (h : c.Passes [] c') : c = c' := by
  obtain ⟨tokens, htokens, hrest, hclosing⟩ := h
  cases List.map_eq_nil_iff.1 htokens
  exact ext_rest hrest hclosing

theorem Passes.trans {c c' c'' : Cursor} {ts us : List Terminal} (h : c.Passes ts c')
    (h' : c'.Passes us c'') : c.Passes (ts ++ us) c'' := by
  obtain ⟨tokens, rfl, hrest, hclosing⟩ := h
  obtain ⟨tokens', rfl, hrest', hclosing'⟩ := h'
  refine ⟨tokens ++ tokens', List.map_append, ?_, hclosing.trans hclosing'⟩
  rw [hrest, hrest', List.append_assoc]

/-- One step passes over the current token, unless it is the end mark. -/
theorem passes_advance {c : Cursor} (h : c.kind ≠ .endOfInput) :
    c.Passes [c.current.terminal] c.advance := by
  obtain ⟨rest, closing, hrest, hclosing⟩ := c
  cases rest with
  | nil => exact absurd hclosing h
  | cons t rest => exact ⟨[t], rfl, rfl, rfl⟩

theorem Passes.terminals_eq {c c' : Cursor} {ts : List Terminal} (h : c.Passes ts c') :
    c.terminals = ts ++ c'.terminals := by
  obtain ⟨tokens, rfl, hrest, _⟩ := h
  rw [terminals, hrest, List.map_append, terminals]

theorem Passes.length_eq {c c' : Cursor} {ts : List Terminal} (h : c.Passes ts c') :
    c.rest.length = ts.length + c'.rest.length := by
  rw [← length_terminals, h.terminals_eq, List.length_append, length_terminals]

theorem Passes.kind_eq {c c' : Cursor} {t : Terminal} {ts : List Terminal}
    (h : c.Passes (t :: ts) c') : c.kind = t.kind := by
  rw [kind_eq_headKind, h.terminals_eq]
  rfl

theorem Passes.current_eq {c c' : Cursor} {t : Terminal} {ts : List Terminal}
    (h : c.Passes (t :: ts) c') : c.current.terminal = t := by
  obtain ⟨tokens, htokens, hrest, _⟩ := h
  obtain ⟨token, tokens', rfl, rfl, rfl⟩ := List.map_eq_cons_iff.1 htokens
  rw [current, hrest]
  rfl

/-- Behind the first terminal passed over stands the cursor one step further. -/
theorem Passes.tail {c c' : Cursor} {t : Terminal} {ts : List Terminal}
    (h : c.Passes (t :: ts) c') : c.advance.Passes ts c' := by
  obtain ⟨tokens, htokens, hrest, hclosing⟩ := h
  obtain ⟨token, tokens', rfl, rfl, rfl⟩ := List.map_eq_cons_iff.1 htokens
  have hadvance : c.advance.rest = c.rest.tail := rfl
  exact ⟨tokens', rfl, by rw [hadvance, hrest]; rfl, hclosing⟩

/-- A way can be broken anywhere. -/
theorem Passes.split {c c' : Cursor} {ts us : List Terminal} (h : c.Passes (ts ++ us) c') :
    ∃ middle, c.Passes ts middle ∧ middle.Passes us c' := by
  obtain ⟨tokens, htokens, hrest, hclosing⟩ := h
  obtain ⟨left, right, rfl, rfl, rfl⟩ := List.map_eq_append_iff.1 htokens
  have hopen : ∀ t ∈ right ++ c'.rest, t.kind ≠ .endOfInput := fun t ht =>
    c.rest_open t (by rw [hrest, List.append_assoc]; exact List.mem_append_right left ht)
  refine ⟨⟨right ++ c'.rest, c.closing, hopen, c.closing_isEnd⟩, ?_, ?_⟩
  · exact ⟨left, rfl, by rw [hrest, List.append_assoc], rfl⟩
  · exact ⟨right, rfl, rfl, hclosing⟩

/-- Tokens that are no end marks can be put before a cursor. -/
theorem exists_ofTokens_append {tokens rest : List Token} {c : Cursor}
    (htokens : ∀ t ∈ tokens, t.kind ≠ .endOfInput) (hrest : ofTokens rest = .ok c) :
    ∃ c', ofTokens (tokens ++ rest) = .ok c' ∧ c'.Passes (tokens.map Token.terminal) c := by
  have hopen : ∀ t ∈ tokens ++ c.rest, t.kind ≠ .endOfInput := fun t ht =>
    (List.mem_append.1 ht).elim (htokens t) (c.rest_open t)
  refine ⟨⟨tokens ++ c.rest, c.closing, hopen, c.closing_isEnd⟩, ?_, tokens, rfl, rfl, rfl⟩
  rw [ofTokens_eq_ok_iff, ← remaining_of_ofTokens hrest]
  exact List.append_assoc _ _ _

/-- A cursor can pass over any front part of its terminals. -/
theorem exists_passes {c : Cursor} {ts us : List Terminal} (h : c.terminals = ts ++ us) :
    ∃ c', c.Passes ts c' ∧ c'.terminals = us := by
  obtain ⟨left, right, hrest, rfl, rfl⟩ := List.map_eq_append_iff.1 h
  have hopen : ∀ t ∈ right, t.kind ≠ .endOfInput := fun t ht =>
    c.rest_open t (by rw [hrest]; exact List.mem_append_right left ht)
  exact ⟨⟨right, c.closing, hopen, c.closing_isEnd⟩, ⟨left, rfl, hrest, rfl⟩, rfl⟩

/-- What is passed over and where it ends determine each other. -/
theorem Passes.unique {c c₁ c₂ : Cursor} {ts us : List Terminal} (h₁ : c.Passes ts c₁)
    (h₂ : c.Passes us c₂) (h : c₁.terminals = c₂.terminals) : ts = us :=
  List.append_cancel_right (h₁.terminals_eq.symm.trans (h ▸ h₂.terminals_eq))

/-- Terminals without an end mark stand before some cursor. -/
theorem exists_terminals_eq (ts : List Terminal) (h : ∀ t ∈ ts, t.kind ≠ .endOfInput) :
    ∃ c : Cursor, c.terminals = ts := by
  let place (t : Terminal) : Token := ⟨t.kind, t.value, .ofSize "" 0 0⟩
  refine ⟨⟨ts.map place, Token.endMark "" 0, ?_, rfl⟩, ?_⟩
  · intro token htoken
    obtain ⟨t, ht, rfl⟩ := List.mem_map.1 htoken
    exact h t ht
  · rw [terminals, List.map_map]
    exact List.map_id ts

end Cursor

namespace Parser

variable {α β : Type}

/-! ## Runs of parsers -/

/-- A run goes on with what its first part made. -/
theorem bind_of_eq_ok {x : Parser α} {f : α → Parser β} {c c' : Cursor} {a : α}
    (h : x c = .ok a c') : (x >>= f) c = f a c' := by
  simp only [bind, EStateM.bind, h]

theorem bind_eq_ok_iff {x : Parser α} {f : α → Parser β} {c c'' : Cursor} {b : β} :
    (x >>= f) c = .ok b c'' ↔ ∃ a c', x c = .ok a c' ∧ f a c' = .ok b c'' := by
  constructor
  · intro h
    cases hx : x c with
    | ok a c' => exact ⟨a, c', rfl, by rw [← h, bind_of_eq_ok hx]⟩
    | error d c' =>
      simp only [bind, EStateM.bind, hx] at h
      cases h
  · rintro ⟨a, c', hx, hf⟩
    rw [bind_of_eq_ok hx, hf]

theorem pure_eq_ok_iff {a b : α} {c c' : Cursor} :
    (pure a : Parser α) c = .ok b c' ↔ a = b ∧ c = c' := by
  simp only [pure, EStateM.pure, EStateM.Result.ok.injEq]

theorem kind_eq_ok_iff {k : Kind} {c c' : Cursor} :
    kind c = .ok k c' ↔ c.kind = k ∧ c = c' := by
  simp only [kind, EStateM.Result.ok.injEq]

theorem current_eq_ok_iff {t : Token} {c c' : Cursor} :
    current c = .ok t c' ↔ c.current = t ∧ c = c' := by
  simp only [current, EStateM.Result.ok.injEq]

theorem advance_eq_ok_iff {t : Token} {c c' : Cursor} :
    advance c = .ok t c' ↔ c.current = t ∧ c.advance = c' := by
  simp only [advance, EStateM.Result.ok.injEq]

theorem fail_ne_ok {cause : Cause} {position : Position} {c c' : Cursor} {a : α} :
    fail cause position c ≠ .ok a c' := by
  intro h
  cases h

theorem refuse_ne_ok {c c' : Cursor} {a : α} : refuse c ≠ .ok a c' := by
  intro h
  cases h

theorem expect_eq_ok_iff {expected : Kind} {message : String} {t : Token} {c c' : Cursor} :
    expect expected message c = .ok t c' ↔
      c.kind = expected ∧ c.current = t ∧ c.advance = c' := by
  simp only [expect, bind_eq_ok_iff, current_eq_ok_iff]
  constructor
  · rintro ⟨_, _, ⟨rfl, rfl⟩, h⟩
    split at h
    · exact ⟨‹_›, advance_eq_ok_iff.1 h⟩
    · exact absurd h fail_ne_ok
  · rintro ⟨hkind, h⟩
    have hkind' : c.current.kind = expected := hkind
    exact ⟨_, _, ⟨rfl, rfl⟩, by rw [if_pos hkind']; exact advance_eq_ok_iff.2 h⟩

theorem expect_of_kind {expected : Kind} {c : Cursor} (message : String)
    (h : c.kind = expected) : expect expected message c = .ok c.current c.advance :=
  expect_eq_ok_iff.2 ⟨h, rfl, rfl⟩

end Parser

end Scriptlet
