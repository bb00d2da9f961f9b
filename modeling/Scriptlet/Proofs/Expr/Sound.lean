import Scriptlet.Proofs.Expr.Grammar

/-!
# What the readers of expressions read

Every reader of a level that succeeds has passed over terminals that the
grammar derives the expression from, at that level (`assignment_sound` and the
theorems before it).  A reader of arguments or properties likewise.

A reader also leaves no `(` behind unread, except after an object literal that
ends the expression unenclosed.  This is what decides where one statement ends
and the next one starts, so it is carried along.

The readers take a bound.  It is enough when it is at least the number of
tokens left, since every round of a loop passes over a terminal.
-/

namespace Scriptlet.Parser

open Token (Kind)

/-- A reader of nested expressions reads what the grammar says, where at most
`limit` tokens are left. -/
def SoundWithin (limit : Nat) (nested : Parser Expr) : Prop :=
  ∀ ⦃c c' : Cursor⦄ ⦃e : Expr⦄, c.rest.length ≤ limit → nested c = .ok e c' →
    ∃ ts, c.Passes ts c' ∧ Derives (.expr .assignment e) ts ∧ (c'.kind = .openParen → Bare e ts)

theorem passes_of_kind {c : Cursor} {kind : Kind} (h : c.kind = kind)
    (hkind : kind ≠ .endOfInput) : c.Passes [c.current.terminal] c.advance :=
  Cursor.passes_advance (by rw [h]; exact hkind)

/-- A step passes over a token of the kind that was asked for. -/
theorem expect_passes {expected : Kind} {message : String} {t : Token} {c c' : Cursor}
    (hexpected : expected ≠ .endOfInput) (h : expect expected message c = .ok t c') :
    c.Passes [t.terminal] c' ∧ t.terminal.kind = expected := by
  obtain ⟨hkind, rfl, rfl⟩ := expect_eq_ok_iff.1 h
  exact ⟨passes_of_kind hkind hexpected, hkind⟩

section

variable {limit : Nat} {nested : Parser Expr} {c c' : Cursor}

/-! ## Primary expressions and member accesses -/

theorem primary_sound {e : Expr} (hnested : SoundWithin limit nested)
    (hlen : c.rest.length ≤ limit + 1) (h : primary nested c = .ok e c') :
    ∃ ts, c.Passes ts c' ∧ Derives (.expr .primary e) ts := by
  simp only [primary, bind_eq_ok_iff, current_eq_ok_iff] at h
  obtain ⟨_, _, ⟨rfl, rfl⟩, h⟩ := h
  generalize hkind : c.current.kind = kind at h
  split at h
  · simp only [bind_eq_ok_iff, advance_eq_ok_iff, pure_eq_ok_iff] at h
    obtain ⟨_, _, ⟨_, rfl⟩, rfl, rfl⟩ := h
    exact ⟨_, passes_of_kind hkind (by decide), .name (t := c.current.terminal) hkind⟩
  · simp only [bind_eq_ok_iff, advance_eq_ok_iff] at h
    obtain ⟨_, _, ⟨_, rfl⟩, h⟩ := h
    generalize hd : Numeral.read? c.current.value.toList = value at h
    split at h
    · obtain ⟨rfl, rfl⟩ := pure_eq_ok_iff.1 h
      exact ⟨_, passes_of_kind hkind (by decide), .number (t := c.current.terminal) hkind hd⟩
    · exact absurd h fail_ne_ok
  · simp only [bind_eq_ok_iff, advance_eq_ok_iff, pure_eq_ok_iff] at h
    obtain ⟨_, _, ⟨_, rfl⟩, rfl, rfl⟩ := h
    exact ⟨_, passes_of_kind hkind (by decide), .string (t := c.current.terminal) hkind⟩
  · simp only [bind_eq_ok_iff, advance_eq_ok_iff, pure_eq_ok_iff] at h
    obtain ⟨_, _, ⟨_, rfl⟩, inner, c₁, hinner, r, c₂, hclose, rfl, rfl⟩ := h
    have hopen := passes_of_kind hkind (by decide)
    have hlen₁ := hopen.length_eq
    simp only [List.length_singleton] at hlen₁
    obtain ⟨ts, hts, hderives, _⟩ := hnested (by omega) hinner
    obtain ⟨hr, hrkind⟩ := expect_passes (by decide) hclose
    exact ⟨_, hopen.trans (hts.trans hr), .group hkind hderives hrkind⟩
  · exact absurd h refuse_ne_ok

/-- The accesses behind an owner extend the owner's derivation. -/
theorem memberTail_sound {bound : Nat} {owner e : Expr} {us : List Terminal}
    (hnested : SoundWithin limit nested) (hlen : c.rest.length ≤ limit)
    (howner : Derives (.expr .member owner) us)
    (h : memberTail nested bound owner c = .ok e c') :
    ∃ ts, c.Passes ts c' ∧ Derives (.expr .member e) (us ++ ts) := by
  induction bound generalizing owner us c with
  | zero =>
    obtain ⟨rfl, rfl⟩ := pure_eq_ok_iff.1 h
    exact ⟨[], .refl c, by rw [List.append_nil]; exact howner⟩
  | succ bound ih =>
    simp only [memberTail, bind_eq_ok_iff, kind_eq_ok_iff] at h
    obtain ⟨_, _, ⟨rfl, rfl⟩, h⟩ := h
    generalize hkind : c.kind = kind at h
    split at h
    · simp only [bind_eq_ok_iff, advance_eq_ok_iff, current_eq_ok_iff] at h
      obtain ⟨_, _, ⟨_, rfl⟩, _, _, ⟨_, rfl⟩, property, c₁, hproperty, h⟩ := h
      have hdot := passes_of_kind hkind (by decide)
      have hlen₁ := hdot.length_eq
      simp only [List.length_singleton] at hlen₁
      obtain ⟨ps, hps, hderives⟩ := primary_sound hnested (by omega) hproperty
      have hlen₂ := hps.length_eq
      cases property with
      | identifier name =>
        obtain ⟨ts, hts, htail⟩ := ih (by omega) (.dot (d := c.current.terminal) howner hkind hderives) h
        refine ⟨_, (hdot.trans hps).trans hts, ?_⟩
        simpa only [List.append_assoc, List.cons_append, List.nil_append] using htail
      | assignment | binary | object | call | member | number | string =>
        exact absurd h fail_ne_ok
    · simp only [bind_eq_ok_iff, advance_eq_ok_iff] at h
      obtain ⟨_, _, ⟨_, rfl⟩, property, c₁, hproperty, r, c₂, hclose, h⟩ := h
      have hopen := passes_of_kind hkind (by decide)
      have hlen₁ := hopen.length_eq
      simp only [List.length_singleton] at hlen₁
      obtain ⟨ps, hps, hderives, _⟩ := hnested (by omega) hproperty
      obtain ⟨hr, hrkind⟩ := expect_passes (by decide) hclose
      have hlen₂ := hps.length_eq
      have hlen₃ := hr.length_eq
      obtain ⟨ts, hts, htail⟩ := ih (by omega) (.index (l := c.current.terminal) howner hkind hderives hrkind) h
      refine ⟨_, (hopen.trans (hps.trans hr)).trans hts, ?_⟩
      simpa only [List.append_assoc, List.cons_append, List.nil_append] using htail
    · obtain ⟨rfl, rfl⟩ := pure_eq_ok_iff.1 h
      exact ⟨[], .refl c, by rw [List.append_nil]; exact howner⟩

theorem member_sound {bound : Nat} {e : Expr} (hnested : SoundWithin limit nested)
    (hlen : c.rest.length ≤ limit + 1) (h : member bound nested c = .ok e c') :
    ∃ ts, c.Passes ts c' ∧ Derives (.expr .member e) ts := by
  simp only [member, bind_eq_ok_iff] at h
  obtain ⟨owner, c₁, howner, h⟩ := h
  obtain ⟨us, hus, hderives⟩ := primary_sound hnested hlen howner
  have hlen₁ := hus.length_eq
  have hpos := List.length_pos_iff.2 hderives.ne_nil
  obtain ⟨ts, hts, htail⟩ :=
    memberTail_sound hnested (by omega) (.loosen (by decide) hderives) h
  exact ⟨_, hus.trans hts, htail⟩

/-! ## Arguments and calls -/

/-- Behind an argument there is the end of the list or a comma and more. -/
theorem argumentsTail_sound {bound : Nat} {e : Expr} {es : List Expr} {us : List Terminal}
    (hnested : SoundWithin limit nested) (hlen : c.rest.length ≤ limit)
    (he : Derives (.expr .assignment e) us)
    (h : argumentsTail nested bound c = .ok es c') :
    ∃ ts, c.Passes ts c' ∧ Derives (.arguments (e :: es)) (us ++ ts) := by
  induction bound generalizing e es us c with
  | zero =>
    obtain ⟨rfl, rfl⟩ := pure_eq_ok_iff.1 h
    exact ⟨[], .refl c, by rw [List.append_nil]; exact .lastArgument he⟩
  | succ bound ih =>
    simp only [argumentsTail, bind_eq_ok_iff, kind_eq_ok_iff] at h
    obtain ⟨_, _, ⟨rfl, rfl⟩, h⟩ := h
    generalize hkind : c.kind = kind at h
    split at h
    · simp only [bind_eq_ok_iff, advance_eq_ok_iff, pure_eq_ok_iff] at h
      obtain ⟨_, _, ⟨_, rfl⟩, e', c₁, he', es', c₂, hes, rfl, rfl⟩ := h
      have hcomma := passes_of_kind hkind (by decide)
      have hlen₁ := hcomma.length_eq
      simp only [List.length_singleton] at hlen₁
      obtain ⟨vs, hvs, hderives, _⟩ := hnested (by omega) he'
      have hlen₂ := hvs.length_eq
      obtain ⟨ts, hts, htail⟩ := ih (by omega) hderives hes
      exact ⟨_, (hcomma.trans hvs).trans hts, .moreArguments (t := c.current.terminal) he hkind htail⟩
    · obtain ⟨rfl, rfl⟩ := pure_eq_ok_iff.1 h
      exact ⟨[], .refl c, by rw [List.append_nil]; exact .lastArgument he⟩

theorem argumentsOpen_sound {bound : Nat} {es : List Expr} (hnested : SoundWithin limit nested)
    (hlen : c.rest.length ≤ limit) (h : argumentsOpen bound nested c = .ok es c') :
    ∃ ts, c.Passes ts c' ∧ Derives (.arguments es) ts := by
  simp only [argumentsOpen, bind_eq_ok_iff, kind_eq_ok_iff] at h
  obtain ⟨_, _, ⟨rfl, rfl⟩, h⟩ := h
  generalize c.kind = kind at h
  split at h
  · obtain ⟨rfl, rfl⟩ := pure_eq_ok_iff.1 h
    exact ⟨[], .refl c, .noArguments⟩
  · simp only [bind_eq_ok_iff, pure_eq_ok_iff] at h
    obtain ⟨e, c₁, he, es', c₂, hes, rfl, rfl⟩ := h
    obtain ⟨us, hus, hderives, _⟩ := hnested hlen he
    have hlen₁ := hus.length_eq
    obtain ⟨ts, hts, htail⟩ := argumentsTail_sound hnested (by omega) hderives hes
    exact ⟨_, hus.trans hts, htail⟩

/-- An argument list consists of its parentheses and what is between them. -/
theorem arguments_sound {bound : Nat} {es : List Expr} (hnested : SoundWithin limit nested)
    (hlen : c.rest.length ≤ limit + 1) (h : arguments bound nested c = .ok es c') :
    ∃ l r us, c.Passes (l :: (us ++ [r])) c' ∧ l.kind = .openParen ∧ Derives (.arguments es) us ∧
      r.kind = .closeParen := by
  simp only [arguments, bind_eq_ok_iff, pure_eq_ok_iff] at h
  obtain ⟨l, c₁, hopen, es', c₂, hes, r, c₃, hclose, rfl, rfl⟩ := h
  obtain ⟨hl, hlkind⟩ := expect_passes (by decide) hopen
  have hlen₁ := hl.length_eq
  simp only [List.length_singleton] at hlen₁
  obtain ⟨us, hus, hderives⟩ := argumentsOpen_sound hnested (by omega) hes
  obtain ⟨hr, hrkind⟩ := expect_passes (by decide) hclose
  exact ⟨l.terminal, r.terminal, us, hl.trans (hus.trans hr), hlkind, hderives, hrkind⟩

/-- The calls behind a callee extend the callee's derivation, and no `(` is left
behind them. -/
theorem callTail_sound {bound : Nat} {callee e : Expr} {us : List Terminal}
    (hnested : SoundWithin limit nested) (hlen : c.rest.length ≤ limit)
    (hbound : c.rest.length ≤ bound) (hcallee : Derives (.expr .call callee) us)
    (h : callTail nested bound callee c = .ok e c') :
    ∃ ts, c.Passes ts c' ∧ Derives (.expr .call e) (us ++ ts) ∧ c'.kind ≠ .openParen := by
  induction bound generalizing callee us c with
  | zero =>
    obtain ⟨rfl, rfl⟩ := pure_eq_ok_iff.1 h
    have hend : c.kind = .endOfInput :=
      c.kind_eq_endOfInput_iff.2 (List.length_eq_zero_iff.1 (Nat.le_zero.1 hbound))
    exact ⟨[], .refl c, by rw [List.append_nil]; exact hcallee, by rw [hend]; decide⟩
  | succ bound ih =>
    simp only [callTail, bind_eq_ok_iff, kind_eq_ok_iff] at h
    obtain ⟨_, _, ⟨rfl, rfl⟩, h⟩ := h
    generalize hkind : c.kind = kind at h
    split at h
    · simp only [bind_eq_ok_iff] at h
      obtain ⟨es, c₁, hes, h⟩ := h
      obtain ⟨l, r, vs, hvs, hl, hderives, hr⟩ := arguments_sound hnested (by omega) hes
      have hlen₁ := hvs.length_eq
      simp only [List.length_cons, List.length_append] at hlen₁
      obtain ⟨ts, hts, htail, hstop⟩ :=
        ih (by omega) (by omega) (.apply hcallee hl hderives hr) h
      refine ⟨_, hvs.trans hts, ?_, hstop⟩
      simpa only [List.append_assoc, List.cons_append, List.nil_append] using htail
    · rename_i hother
      obtain ⟨rfl, rfl⟩ := pure_eq_ok_iff.1 h
      exact ⟨[], .refl c, by rw [List.append_nil]; exact hcallee, by rw [hkind]; exact hother⟩

theorem call_sound {bound : Nat} {e : Expr} (hnested : SoundWithin limit nested)
    (hlen : c.rest.length ≤ limit + 1) (hbound : limit ≤ bound)
    (h : call bound nested c = .ok e c') :
    ∃ ts, c.Passes ts c' ∧ Derives (.expr .call e) ts ∧ c'.kind ≠ .openParen := by
  simp only [call, bind_eq_ok_iff] at h
  obtain ⟨callee, c₁, hcallee, h⟩ := h
  obtain ⟨us, hus, hderives⟩ := member_sound hnested hlen hcallee
  have hlen₁ := hus.length_eq
  have hpos := List.length_pos_iff.2 hderives.ne_nil
  obtain ⟨ts, hts, htail, hstop⟩ :=
    callTail_sound hnested (by omega) (by omega) (.loosen (by decide) hderives) h
  exact ⟨_, hus.trans hts, htail, hstop⟩

/-! ## Products and sums -/

/-- A reader of operands reads what the grammar says at a level, and leaves no
`(` behind. -/
def OperandSound (limit : Nat) (level : Level) (operand : Parser Expr) : Prop :=
  ∀ ⦃c c' : Cursor⦄ ⦃e : Expr⦄, c.rest.length ≤ limit → operand c = .ok e c' →
    ∃ ts, c.Passes ts c' ∧ Derives (.expr level e) ts ∧ c'.kind ≠ .openParen

/-- The operators of a level are found by their kinds. -/
def Operators (op? : Kind → Option BinaryOp) (level : Level) : Prop :=
  ∀ ⦃kind : Kind⦄ ⦃op : BinaryOp⦄, op? kind = some op ↔ op.level = level ∧ kind = op.kind

theorem productOp_operators : Operators productOp? .multiplicative := by
  intro kind op
  cases kind <;> cases op <;> decide

theorem sumOp_operators : Operators sumOp? .additive := by
  intro kind op
  cases kind <;> cases op <;> decide

/-- The operations behind a left operand extend its derivation. -/
theorem binaryTail_sound {op? : Kind → Option BinaryOp} {operand : Parser Expr} {level : Level}
    {bound : Nat} {left e : Expr} {us : List Terminal} (hop : Operators op? level)
    (hoperand : OperandSound limit level.tighter operand) (hlen : c.rest.length ≤ limit)
    (hleft : Derives (.expr level left) us) (hstop : c.kind ≠ .openParen)
    (h : binaryTail op? operand bound left c = .ok e c') :
    ∃ ts, c.Passes ts c' ∧ Derives (.expr level e) (us ++ ts) ∧ c'.kind ≠ .openParen := by
  induction bound generalizing left us c with
  | zero =>
    obtain ⟨rfl, rfl⟩ := pure_eq_ok_iff.1 h
    exact ⟨[], .refl c, by rw [List.append_nil]; exact hleft, hstop⟩
  | succ bound ih =>
    simp only [binaryTail, bind_eq_ok_iff, kind_eq_ok_iff] at h
    obtain ⟨_, _, ⟨rfl, rfl⟩, h⟩ := h
    generalize hfound : op? c.kind = found at h
    cases found with
    | none =>
      obtain ⟨rfl, rfl⟩ := pure_eq_ok_iff.1 h
      exact ⟨[], .refl c, by rw [List.append_nil]; exact hleft, hstop⟩
    | some op =>
      simp only [bind_eq_ok_iff, advance_eq_ok_iff] at h
      obtain ⟨_, _, ⟨_, rfl⟩, right, c₁, hright, h⟩ := h
      obtain ⟨hlevel, hkind⟩ := hop.1 hfound
      have hsign := passes_of_kind hkind (by cases op <;> decide)
      have hlen₁ := hsign.length_eq
      simp only [List.length_singleton] at hlen₁
      obtain ⟨vs, hvs, hderives, hstop₁⟩ := hoperand (by omega) hright
      have hlen₂ := hvs.length_eq
      obtain ⟨ts, hts, htail, hstop₂⟩ :=
        ih (by omega) (.binary (t := c.current.terminal) hlevel hleft hkind hderives) hstop₁ h
      refine ⟨_, (hsign.trans hvs).trans hts, ?_, hstop₂⟩
      simpa only [List.append_assoc, List.cons_append, List.nil_append] using htail

theorem multiplicative_sound {bound : Nat} (hnested : SoundWithin limit nested)
    (hbound : limit ≤ bound) :
    OperandSound (limit + 1) .multiplicative (multiplicative bound nested) := by
  intro c c' e hlen h
  simp only [multiplicative, bind_eq_ok_iff] at h
  obtain ⟨left, c₁, hleft, h⟩ := h
  obtain ⟨us, hus, hderives, hstop⟩ := call_sound hnested hlen hbound hleft
  have hlen₁ := hus.length_eq
  have hoperand : OperandSound limit .call (call bound nested) := fun _ _ _ hlen' hcall =>
    call_sound hnested (Nat.le_succ_of_le hlen') hbound hcall
  have hpos := List.length_pos_iff.2 hderives.ne_nil
  obtain ⟨ts, hts, htail, hstop₁⟩ := binaryTail_sound productOp_operators hoperand
    (by omega) (.loosen (by decide) hderives) hstop h
  exact ⟨_, hus.trans hts, htail, hstop₁⟩

theorem additive_sound {bound : Nat} (hnested : SoundWithin limit nested)
    (hbound : limit ≤ bound) : OperandSound (limit + 1) .additive (additive bound nested) := by
  intro c c' e hlen h
  simp only [additive, bind_eq_ok_iff] at h
  obtain ⟨left, c₁, hleft, h⟩ := h
  have hproduct := multiplicative_sound hnested hbound
  obtain ⟨us, hus, hderives, hstop⟩ := hproduct hlen hleft
  have hlen₁ := hus.length_eq
  obtain ⟨ts, hts, htail, hstop₁⟩ := binaryTail_sound sumOp_operators hproduct
    (by omega) (.loosen (by decide) hderives) hstop h
  exact ⟨_, hus.trans hts, htail, hstop₁⟩

/-! ## Object literals and assignments -/

theorem properties_sound {bound : Nat} {ps : List Property} (hnested : SoundWithin limit nested)
    (hlen : c.rest.length ≤ limit) (h : properties nested bound c = .ok ps c') :
    ∃ ts, c.Passes ts c' ∧ Derives (.properties ps) ts := by
  induction bound generalizing ps c with
  | zero =>
    obtain ⟨rfl, rfl⟩ := pure_eq_ok_iff.1 h
    exact ⟨[], .refl c, .noProperties⟩
  | succ bound ih =>
    simp only [properties, bind_eq_ok_iff, kind_eq_ok_iff] at h
    obtain ⟨_, _, ⟨rfl, rfl⟩, h⟩ := h
    generalize c.kind = kind at h
    split at h
    · obtain ⟨rfl, rfl⟩ := pure_eq_ok_iff.1 h
      exact ⟨[], .refl c, .noProperties⟩
    · obtain ⟨rfl, rfl⟩ := pure_eq_ok_iff.1 h
      exact ⟨[], .refl c, .noProperties⟩
    · simp only [bind_eq_ok_iff, kind_eq_ok_iff] at h
      obtain ⟨key, c₁, hkey, _, _, ⟨rfl, rfl⟩, h⟩ := h
      obtain ⟨hkey, hkeykind⟩ := expect_passes (by decide) hkey
      have hlen₁ := hkey.length_eq
      generalize hnext : c₁.kind = next at h
      split at h
      · simp only [bind_eq_ok_iff, advance_eq_ok_iff, pure_eq_ok_iff] at h
        obtain ⟨_, _, ⟨_, rfl⟩, ps', c₂, hps, rfl, rfl⟩ := h
        have hcomma := passes_of_kind hnext (by decide)
        have hlen₂ := hcomma.length_eq
        obtain ⟨ts, hts, hderives⟩ := ih (by omega) hps
        exact ⟨_, hkey.trans (hcomma.trans hts),
          .moreProperties (t := c₁.current.terminal) (.shorthand hkeykind) hnext hderives⟩
      · obtain ⟨rfl, rfl⟩ := pure_eq_ok_iff.1 h
        exact ⟨_, hkey, .lastProperty (.shorthand hkeykind)⟩
      · simp only [bind_eq_ok_iff, kind_eq_ok_iff] at h
        obtain ⟨colon, c₂, hcolon, value, c₃, hvalue, _, _, ⟨rfl, rfl⟩, h⟩ := h
        obtain ⟨hcolon, hcolonkind⟩ := expect_passes (by decide) hcolon
        have hlen₂ := hcolon.length_eq
        obtain ⟨vs, hvs, hderives, _⟩ := hnested (by omega) hvalue
        have hlen₃ := hvs.length_eq
        have hentry := hkey.trans (hcolon.trans hvs)
        generalize c₃.kind = after at h
        split at h
        · obtain ⟨rfl, rfl⟩ := pure_eq_ok_iff.1 h
          exact ⟨_, hentry, .lastProperty (.entry hkeykind hcolonkind hderives)⟩
        · simp only [bind_eq_ok_iff, pure_eq_ok_iff] at h
          obtain ⟨comma, c₄, hcomma, ps', c₅, hps, rfl, rfl⟩ := h
          obtain ⟨hcomma, hcommakind⟩ := expect_passes (by decide) hcomma
          have hlen₄ := hcomma.length_eq
          obtain ⟨ts, hts, hderives'⟩ := ih (by omega) hps
          exact ⟨_, hentry.trans (hcomma.trans hts),
            .moreProperties (.entry hkeykind hcolonkind hderives) hcommakind hderives'⟩

theorem object_sound {bound : Nat} {e : Expr} (hnested : SoundWithin limit nested)
    (hlen : c.rest.length ≤ limit + 1) (hbound : limit ≤ bound)
    (h : object bound nested c = .ok e c') :
    ∃ ts, c.Passes ts c' ∧ Derives (.expr .object e) ts ∧ (c'.kind = .openParen → Bare e ts) := by
  simp only [object, bind_eq_ok_iff, kind_eq_ok_iff] at h
  obtain ⟨_, _, ⟨rfl, rfl⟩, h⟩ := h
  generalize hkind : c.kind = kind at h
  split at h
  · simp only [bind_eq_ok_iff, advance_eq_ok_iff, pure_eq_ok_iff] at h
    obtain ⟨_, _, ⟨_, rfl⟩, ps, c₁, hps, r, c₂, hclose, rfl, rfl⟩ := h
    have hopen := passes_of_kind hkind (by decide)
    have hlen₁ := hopen.length_eq
    simp only [List.length_singleton] at hlen₁
    obtain ⟨ts, hts, hderives⟩ := properties_sound hnested (by omega) hps
    obtain ⟨hr, hrkind⟩ := expect_passes (by decide) hclose
    exact ⟨_, hopen.trans (hts.trans hr),
      .object (l := c.current.terminal) hkind hderives hrkind,
      fun _ => .object (l := c.current.terminal) hkind hderives hrkind⟩
  · obtain ⟨ts, hts, hderives, hstop⟩ := additive_sound hnested hbound hlen h
    exact ⟨ts, hts, .loosen (by decide) hderives, fun hparen => absurd hparen hstop⟩

theorem assignment_sound {bound : Nat} (hnested : SoundWithin limit nested)
    (hbound : limit ≤ bound) : SoundWithin (limit + 1) (assignment bound nested) := by
  intro c c' e hlen h
  simp only [assignment, bind_eq_ok_iff, kind_eq_ok_iff] at h
  obtain ⟨target, c₁, htarget, _, _, ⟨rfl, rfl⟩, h⟩ := h
  obtain ⟨us, hus, hderives, hbare⟩ := object_sound hnested hlen hbound htarget
  have hlen₁ := hus.length_eq
  generalize hkind : c₁.kind = kind at h
  split at h
  · simp only [bind_eq_ok_iff, advance_eq_ok_iff, pure_eq_ok_iff] at h
    obtain ⟨_, _, ⟨_, rfl⟩, value, c₂, hvalue, rfl, rfl⟩ := h
    have hsign := passes_of_kind hkind (by decide)
    have hlen₂ := hsign.length_eq
    simp only [List.length_singleton] at hlen₂
    obtain ⟨vs, hvs, hderives', hbare'⟩ := hnested (by omega) hvalue
    exact ⟨_, hus.trans (hsign.trans hvs),
      .assign (t := c₁.current.terminal) hderives hkind hderives',
      fun hparen => .assign (t := c₁.current.terminal) hderives hkind (hbare' hparen)⟩
  · obtain ⟨rfl, rfl⟩ := pure_eq_ok_iff.1 h
    exact ⟨us, hus, .loosen (by decide) hderives, hbare⟩

end

/-! ## Closing the recursion -/

theorem exprWithin_sound (limit : Nat) : SoundWithin limit (exprWithin limit) := by
  induction limit with
  | zero =>
    intro c c' e _ h
    exact absurd h refuse_ne_ok
  | succ limit ih =>
    intro c c' e hlen h
    exact assignment_sound ih (Nat.le_refl limit) hlen h

/-- An expression that is read was passed over, and if a `(` comes next it ended
in an object literal. -/
theorem expression_sound {c c' : Cursor} {e : Expr} (h : expression c = .ok e c') :
    ∃ ts, c.Passes ts c' ∧ Derives (.expr .assignment e) ts ∧
      (c'.kind = .openParen → Bare e ts) :=
  assignment_sound (exprWithin_sound c.rest.length) (Nat.le_refl _) (Nat.le_succ _) h

end Scriptlet.Parser
