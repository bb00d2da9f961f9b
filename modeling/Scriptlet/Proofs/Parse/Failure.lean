import Scriptlet.Proofs.Parse.Passing

/-!
# What a failure is blamed on

A failure of a parser names a token and says something about it and about the tokens right
before it.  `Cause.TrueOf` says for each cause what has to be true of them, and
`Cursor.Explains` that it is true of a token still to come.

`Parser.OnFailure` speaks of the failures of a parser, and there is one rule for each way
parsers are put together.  A failure that is explained further on is explained from the
start (`Cursor.Explains.of_passes`), so each part of a parser is looked at from where it
starts.
-/

namespace Scriptlet

open Token (Kind)

/-- What a cause says is true of a token, with others before it.  The causes that no parser
gives are true of none. -/
def Cause.TrueOf (before : List Token) (t : Token) : Cause → Prop
  | .unexpectedToken expected found _ => t.kind ≠ expected ∧ found = t.describe
  | .unrecognisedPrimary token =>
      t.kind ∉ [Kind.identifier, .number, .string, .openParen] ∧ token = t.describe
  | .numberParse token =>
      t.kind = .number ∧ t.value = token ∧ Numeral.read? token.toList = none
  | .nonIdentifierMember found =>
      found ≠ .identifier ∧ ∃ (front : List Token) (dot : Token),
        before = front ++ [dot] ∧ dot.kind = .dot
  | .nonIdentifierParameter function found =>
      found ≠ .identifier ∧ t.kind = .openParen ∧ ∃ (front : List Token) (name : Token),
        before = front ++ [name] ∧ name.kind = .identifier ∧ name.value = function
  | .missingConstInitializer identifier =>
      t.kind = .endOfInput ∧ ∃ (front : List Token) (word name : Token),
        before = front ++ [word, name] ∧ word.kind = .constWord ∧ name.kind = .identifier ∧
          name.value = identifier
  | .unrecognisedToken _ | .invalidEscape _ | .missingEndOfInput | .misplacedEndOfInput => False

/-- More tokens may stand before. -/
theorem Cause.TrueOf.append {cause : Cause} {before : List Token} {t : Token}
    (h : cause.TrueOf before t) (front : List Token) : cause.TrueOf (front ++ before) t := by
  cases cause with
  | nonIdentifierMember found =>
    obtain ⟨hfound, front', dot, rfl, hdot⟩ := h
    exact ⟨hfound, front ++ front', dot, (List.append_assoc ..).symm, hdot⟩
  | nonIdentifierParameter function found =>
    obtain ⟨hfound, ht, front', name, rfl, hname⟩ := h
    exact ⟨hfound, ht, front ++ front', name, (List.append_assoc ..).symm, hname⟩
  | missingConstInitializer identifier =>
    obtain ⟨ht, front', word, name, rfl, hname⟩ := h
    exact ⟨ht, front ++ front', word, name, (List.append_assoc ..).symm, hname⟩
  | _ => exact h

namespace Cursor

variable {c c' : Cursor} {ts : List Terminal}

theorem Passes.exists_remaining (h : c.Passes ts c') :
    ∃ tokens, tokens.map Token.terminal = ts ∧ c.remaining = tokens ++ c'.remaining := by
  obtain ⟨tokens, htokens, hrest, hclosing⟩ := h
  exact ⟨tokens, htokens, by rw [remaining, remaining, hrest, hclosing, List.append_assoc]⟩

/-- Before the end mark the current token is still to come. -/
theorem remaining_eq_cons (h : c.kind ≠ .endOfInput) :
    c.remaining = c.current :: c.advance.remaining := by
  obtain ⟨rest, closing, hrest, hclosing⟩ := c
  cases rest with
  | nil => exact absurd hclosing h
  | cons t rest => rfl

/-- Before the end mark a step leaves one token less. -/
theorem length_rest_of_kind {kind : Kind} (h : c.kind = kind) (hkind : kind ≠ .endOfInput) :
    c.rest.length = c.advance.rest.length + 1 := by
  rw [← h] at hkind
  rw [(passes_advance hkind).length_eq, List.length_singleton, Nat.add_comm]

/-- A failure stands at a token still to come, and what it says is true of it. -/
def Explains (c : Cursor) (d : Diagnostic) : Prop :=
  ∃ (before : List Token) (t : Token) (after : List Token),
    c.remaining = before ++ t :: after ∧ d.position = t.span.start ∧ d.cause.TrueOf before t

/-- A failure at the current token of a later cursor. -/
theorem explains_of_remaining {before : List Token} {cause : Cause}
    (hremaining : c.remaining = before ++ c'.remaining) (h : cause.TrueOf before c'.current) :
    c.Explains ⟨cause, c'.current.span.start⟩ := by
  obtain ⟨after, hafter⟩ := List.head?_eq_some_iff.1 c'.head?_remaining
  exact ⟨before, c'.current, after, by rw [hremaining, hafter], rfl, h⟩

/-- A failure at the current token. -/
theorem explains_current {cause : Cause} (h : cause.TrueOf [] c.current) :
    c.Explains ⟨cause, c.current.span.start⟩ :=
  explains_of_remaining (List.nil_append _).symm h

/-- What is explained further on is explained from the start. -/
theorem Explains.of_passes {d : Diagnostic} (h : c.Passes ts c') (hd : c'.Explains d) :
    c.Explains d := by
  obtain ⟨tokens, _, hremaining⟩ := h.exists_remaining
  obtain ⟨before, t, after, hbefore, hposition, htrue⟩ := hd
  refine ⟨tokens ++ before, t, after, ?_, hposition, htrue.append tokens⟩
  rw [hremaining, hbefore, List.append_assoc]

end Cursor

namespace Parser

variable {α β : Type} {P Q : Diagnostic → Cursor → Prop} {c : Cursor}

/-! ## Failures of parsers -/

/-- Where a parser fails, something is true of the failure and of the cursor there. -/
def OnFailure (P : Diagnostic → Cursor → Prop) (parser : Parser α) (c : Cursor) : Prop :=
  ∀ ⦃d : Diagnostic⦄ ⦃c' : Cursor⦄, parser c = .error d c' → P d c'

theorem OnFailure.mono {parser : Parser α} (h : OnFailure P parser c)
    (himp : ∀ d c', P d c' → Q d c') : OnFailure Q parser c :=
  fun d c' hfails => himp d c' (h hfails)

theorem onFailure_of_eq_ok {parser : Parser α} {a : α} {c' : Cursor} (h : parser c = .ok a c') :
    OnFailure P parser c := by
  intro d c'' hfails
  rw [h] at hfails
  cases hfails

theorem onFailure_pure (a : α) : OnFailure P (pure a) c := onFailure_of_eq_ok rfl

/-- A parser fails in its first part, or behind it. -/
theorem OnFailure.bind {x : Parser α} {f : α → Parser β} (hx : OnFailure P x c)
    (hf : ∀ a c', x c = .ok a c' → OnFailure P (f a) c') : OnFailure P (x >>= f) c := by
  intro d c'' hfails
  cases hrun : x c with
  | ok a c' =>
    rw [bind_of_eq_ok hrun] at hfails
    exact hf a c' hrun hfails
  | error d' c' =>
    simp only [Bind.bind, EStateM.bind, hrun] at hfails
    cases hfails
    exact hx hrun

/-- A first part that cannot fail only moves the cursor. -/
theorem onFailure_bind_of_eq_ok {x : Parser α} {f : α → Parser β} {a : α} {c' : Cursor}
    (hx : x c = .ok a c') (hf : OnFailure P (f a) c') : OnFailure P (x >>= f) c := by
  intro d c'' hfails
  rw [bind_of_eq_ok hx] at hfails
  exact hf hfails

theorem onFailure_fail {cause : Cause} {position : Position} (h : P ⟨cause, position⟩ c) :
    OnFailure P (fail cause position : Parser α) c := by
  intro d c' hfails
  cases hfails
  exact h

/-- The failures of a parser are explained from a cursor at which it need not start. -/
def Explained (start : Cursor) (parser : Parser α) (c : Cursor) : Prop :=
  OnFailure (fun d _ => start.Explains d) parser c

theorem Explained.of_passes {parser : Parser α} {start : Cursor} {ts : List Terminal}
    (hpasses : start.Passes ts c) (h : Explained c parser c) : Explained start parser c :=
  h.mono fun _ _ hd => hd.of_passes hpasses

/-- What is behind a part starts where the part has passed. -/
theorem Explained.followed {x : Parser α} {f : α → Parser β} (hx : Explained c x c)
    (hf : ∀ a c', x c = .ok a c' → ∃ ts, c.Passes ts c' ∧ Explained c' (f a) c') :
    Explained c (x >>= f) c := by
  refine OnFailure.bind hx ?_
  intro a c' hrun
  obtain ⟨ts, hts, hrest⟩ := hf a c' hrun
  exact hrest.of_passes hts

/-- What is behind the current token starts one step further. -/
theorem explained_advance {f : Token → Parser α} {kind : Kind} (h : c.kind = kind)
    (hkind : kind ≠ .endOfInput) (hf : Explained c.advance (f c.current) c.advance) :
    Explained c (advance >>= f) c := by
  rw [← h] at hkind
  exact onFailure_bind_of_eq_ok rfl (hf.of_passes (Cursor.passes_advance hkind))

theorem explained_expect (expected : Kind) (message : String) :
    Explained c (expect expected message) c := by
  by_cases hkind : c.current.kind = expected
  · exact onFailure_of_eq_ok (expect_of_kind message hkind)
  · refine onFailure_bind_of_eq_ok rfl ?_
    rw [if_neg hkind]
    exact onFailure_fail (Cursor.explains_current ⟨hkind, rfl⟩)

/-- What is behind a token that was asked for starts one step further. -/
theorem explained_expect_bind {expected : Kind} {message : String} {f : Token → Parser α}
    (hexpected : expected ≠ .endOfInput)
    (hf : c.kind = expected → Explained c.advance (f c.current) c.advance) :
    Explained c (expect expected message >>= f) c := by
  refine (explained_expect expected message).followed ?_
  intro t c' hrun
  obtain ⟨hkind, rfl, rfl⟩ := expect_eq_ok_iff.1 hrun
  exact ⟨_, Cursor.passes_advance (by rw [hkind]; exact hexpected), hf hkind⟩

/-- No expression starts with the current token. -/
theorem explained_refuse (h : c.kind ∉ [Kind.identifier, .number, .string, .openParen]) :
    Explained c (refuse : Parser α) c :=
  onFailure_bind_of_eq_ok rfl (onFailure_fail (Cursor.explains_current ⟨h, rfl⟩))

/-- At the end of the input nothing starts. -/
theorem explained_refuse_of_length (h : c.rest.length ≤ 0) :
    Explained c (refuse : Parser α) c := by
  refine explained_refuse ?_
  rw [c.kind_eq_endOfInput_iff.2 (List.length_eq_zero_iff.1 (Nat.le_zero.1 h))]
  decide

end Parser

end Scriptlet
