import Scriptlet.Number.Decimal
import Scriptlet.Program.Detection
import Scriptlet.Proofs.Parse.Passing

/-!
# The grammar of expressions

`Derives` is the grammar that the readers of expressions realise, as a relation
between a phrase and the terminals it consists of.  A phrase is an expression
at a level, the inside of an argument list, a property, or the inside of an
object literal.  Parentheses derive an expression of any level at the level of
primary expressions, and `loosen` lets an expression of a level stand at the
next looser one.

Three peculiarities of the language show in the rules.

* A computed access is closed by `}`.
* The property of a plain access is a primary expression, so a name in
  parentheses will do.
* An object literal is at a level of its own, below sums, and so no operand.

`Bare` singles out the derivations that end in an object literal which no
parenthesis encloses.  Nothing but a `=` can go on an expression that ends so.
-/

namespace Scriptlet

open Token (Kind)

/-! ## What can go on an expression -/

/-- The kind of the terminal of an operator. -/
def BinaryOp.kind : BinaryOp → Kind
  | .add => .plus
  | .subtract => .dash
  | .multiply => .star
  | .divide => .slash
  | .modulo => .percent

namespace Level

/-- The kinds with which a level goes on. -/
def extendedBy : Level → List Kind
  | .assignment => [.assignment]
  | .object => []
  | .additive => [.plus, .dash]
  | .multiplicative => [.star, .slash, .percent]
  | .call => [.openParen]
  | .member => [.dot, .openBracket]
  | .primary => []

/-- The kinds with which an expression of a level may go on, those of the
tighter levels included. -/
def continuedBy (level : Level) : List Kind :=
  (all.filter fun other => ¬ other < level).flatMap extendedBy

theorem rung_le (level : Level) : level.rung ≤ 6 := by
  cases level <;> decide

theorem rung_injective {level level' : Level} (h : level.rung = level'.rung) : level = level' := by
  cases level <;> cases level' <;> first | rfl | cases h

theorem rung_tighter {level : Level} (h : level ≠ .primary) :
    level.tighter.rung = level.rung + 1 := by
  cases level <;> first | rfl | exact absurd rfl h

theorem continuedBy_assignment : continuedBy .assignment =
    [.assignment, .plus, .dash, .star, .slash, .percent, .openParen, .dot, .openBracket] := rfl

theorem continuedBy_eq (level : Level) :
    level.continuedBy = level.extendedBy ++ level.tighter.continuedBy := by
  cases level <;> rfl

/-- What goes on a tighter expression goes on a looser one. -/
theorem not_mem_continuedBy_tighter {level : Level} {kind : Kind}
    (h : kind ∉ level.continuedBy) : kind ∉ level.tighter.continuedBy := by
  rw [continuedBy_eq, List.mem_append] at h
  exact fun hmem => h (.inr hmem)

end Level

/-! ## Derivations -/

/-- A part of an expression. -/
inductive Phrase where
  /-- An expression that stands at a level. -/
  | expr (level : Level) (e : Expr)
  /-- What stands between the parentheses of a call. -/
  | arguments (es : List Expr)
  /-- A property. -/
  | property (p : Property)
  /-- What stands between the braces of an object literal. -/
  | properties (ps : List Property)

/-- A phrase consists of some terminals. -/
inductive Derives : Phrase → List Terminal → Prop where
  /-- A name. -/
  | name {t : Terminal} (ht : t.kind = .identifier) :
      Derives (.expr .primary (.identifier t.value)) [t]
  /-- A number. -/
  | number {t : Terminal} {d : Double} (ht : t.kind = .number)
      (hd : Numeral.read? t.value.toList = some d) :
      Derives (.expr .primary (.number d)) [t]
  /-- A string. -/
  | string {t : Terminal} (ht : t.kind = .string) :
      Derives (.expr .primary (.string t.value)) [t]
  /-- `(e)` -/
  | group {l r : Terminal} {e : Expr} {ts : List Terminal} (hl : l.kind = .openParen)
      (he : Derives (.expr .assignment e) ts) (hr : r.kind = .closeParen) :
      Derives (.expr .primary e) (l :: (ts ++ [r]))
  /-- A tighter expression stands where a looser one is wanted. -/
  | loosen {level : Level} {e : Expr} {ts : List Terminal} (hlevel : level ≠ .primary)
      (he : Derives (.expr level.tighter e) ts) : Derives (.expr level e) ts
  /-- `owner.name` -/
  | dot {d : Terminal} {owner : Expr} {name : String} {ts us : List Terminal}
      (ho : Derives (.expr .member owner) ts) (hd : d.kind = .dot)
      (hn : Derives (.expr .primary (.identifier name)) us) :
      Derives (.expr .member (.member owner (.identifier name) false)) (ts ++ d :: us)
  /-- `owner[property}` -/
  | index {l r : Terminal} {owner property : Expr} {ts us : List Terminal}
      (ho : Derives (.expr .member owner) ts) (hl : l.kind = .openBracket)
      (hp : Derives (.expr .assignment property) us) (hr : r.kind = .closeCurly) :
      Derives (.expr .member (.member owner property true)) (ts ++ l :: (us ++ [r]))
  /-- `callee(arguments)` -/
  | apply {l r : Terminal} {callee : Expr} {es : List Expr} {ts us : List Terminal}
      (hf : Derives (.expr .call callee) ts) (hl : l.kind = .openParen)
      (hes : Derives (.arguments es) us) (hr : r.kind = .closeParen) :
      Derives (.expr .call (.call callee es)) (ts ++ l :: (us ++ [r]))
  /-- `left op right` -/
  | binary {t : Terminal} {op : BinaryOp} {level : Level} {left right : Expr}
      {ts us : List Terminal} (hlevel : op.level = level)
      (hleft : Derives (.expr level left) ts) (ht : t.kind = op.kind)
      (hright : Derives (.expr level.tighter right) us) :
      Derives (.expr level (.binary op left right)) (ts ++ t :: us)
  /-- `{ properties }` -/
  | object {l r : Terminal} {ps : List Property} {ts : List Terminal} (hl : l.kind = .openCurly)
      (hps : Derives (.properties ps) ts) (hr : r.kind = .closeCurly) :
      Derives (.expr .object (.object ps)) (l :: (ts ++ [r]))
  /-- `target = value` -/
  | assign {t : Terminal} {target value : Expr} {ts us : List Terminal}
      (htarget : Derives (.expr .object target) ts) (ht : t.kind = .assignment)
      (hvalue : Derives (.expr .assignment value) us) :
      Derives (.expr .assignment (.assignment target value)) (ts ++ t :: us)
  /-- No argument. -/
  | noArguments : Derives (.arguments []) []
  /-- The last argument. -/
  | lastArgument {e : Expr} {ts : List Terminal} (he : Derives (.expr .assignment e) ts) :
      Derives (.arguments [e]) ts
  /-- An argument and more of them. -/
  | moreArguments {t : Terminal} {e e' : Expr} {es : List Expr} {ts us : List Terminal}
      (he : Derives (.expr .assignment e) ts) (ht : t.kind = .comma)
      (hes : Derives (.arguments (e' :: es)) us) :
      Derives (.arguments (e :: e' :: es)) (ts ++ t :: us)
  /-- `key` -/
  | shorthand {t : Terminal} (ht : t.kind = .identifier) : Derives (.property (.shorthand t.value)) [t]
  /-- `key: value` -/
  | entry {t colon : Terminal} {value : Expr} {ts : List Terminal} (ht : t.kind = .identifier)
      (hcolon : colon.kind = .colon) (hvalue : Derives (.expr .assignment value) ts) :
      Derives (.property (.entry t.value value)) (t :: colon :: ts)
  /-- No property. -/
  | noProperties : Derives (.properties []) []
  /-- The last property. -/
  | lastProperty {p : Property} {ts : List Terminal} (hp : Derives (.property p) ts) :
      Derives (.properties [p]) ts
  /-- A property and a comma.  No further property need follow. -/
  | moreProperties {t : Terminal} {p : Property} {ps : List Property} {ts us : List Terminal}
      (hp : Derives (.property p) ts) (ht : t.kind = .comma) (hps : Derives (.properties ps) us) :
      Derives (.properties (p :: ps)) (ts ++ t :: us)

/-- A derivation that ends in an object literal which no parenthesis encloses. -/
inductive Bare : Expr → List Terminal → Prop where
  /-- The object literal itself. -/
  | object {l r : Terminal} {ps : List Property} {ts : List Terminal} (hl : l.kind = .openCurly)
      (hps : Derives (.properties ps) ts) (hr : r.kind = .closeCurly) :
      Bare (.object ps) (l :: (ts ++ [r]))
  /-- An assignment whose value ends so. -/
  | assign {t : Terminal} {target value : Expr} {ts us : List Terminal}
      (htarget : Derives (.expr .object target) ts) (ht : t.kind = .assignment)
      (hvalue : Bare value us) : Bare (.assignment target value) (ts ++ t :: us)

namespace Derives

/-- An expression stands at every looser level. -/
theorem loosen_to {level level' : Level} {e : Expr} {ts : List Terminal}
    (h : Derives (.expr level e) ts) (hlevel : ¬ level < level') :
    Derives (.expr level' e) ts := by
  -- The induction is on the distance of the levels.
  obtain ⟨n, hn⟩ := Nat.exists_eq_add_of_le (Nat.le_of_not_lt hlevel)
  induction n generalizing level' with
  | zero =>
    have hsame : level = level' := Level.rung_injective hn
    rw [← hsame]
    exact h
  | succ n ih =>
    have hprimary : level' ≠ .primary := by
      rintro rfl
      have hmax := level.rung_le
      simp only [Level.rung] at hn hmax
      omega
    have htighter : level.rung = level'.tighter.rung + n := by
      rw [Level.rung_tighter hprimary]
      omega
    exact .loosen hprimary (ih (Nat.not_lt.2 (by omega)) htighter)

/-- Only the inside of an argument list or of an object literal can be empty. -/
theorem ne_nil {level : Level} {e : Expr} {ts : List Terminal} (h : Derives (.expr level e) ts) :
    ts ≠ [] := by
  generalize hphrase : Phrase.expr level e = phrase at h
  induction h generalizing level e with
  | loosen _ _ ih => exact ih rfl
  | name | number | string | group | dot | index | apply | binary | object | assign => simp
  | noArguments | lastArgument | moreArguments | shorthand | entry | noProperties
    | lastProperty | moreProperties => cases hphrase

/-- An expression starts with a name, a number, a string or a parenthesis, or
with a brace if an object literal may stand where it stands. -/
theorem headKind_mem {level : Level} {e : Expr} {ts : List Terminal}
    (h : Derives (.expr level e) ts) :
    headKind ts ∈ [Kind.identifier, .number, .string, .openParen] ∨
      headKind ts = .openCurly ∧ level.rung ≤ 1 := by
  generalize hphrase : Phrase.expr level e = phrase at h
  induction h generalizing level e with
  | name ht | number ht | string ht =>
    left
    simp [ht]
  | group hl =>
    left
    simp [hl]
  | @loosen inner _ _ hlevel _ ih =>
    cases hphrase
    rcases ih rfl with hmem | ⟨hcurly, hrung⟩
    · exact .inl hmem
    · rw [Level.rung_tighter hlevel] at hrung
      exact .inr ⟨hcurly, by omega⟩
  | dot ho _ _ ih | index ho _ _ _ ih | apply ho _ _ _ ih | binary _ ho _ _ ih
    | assign ho _ _ ih =>
    cases hphrase
    rw [headKind_append _ ho.ne_nil]
    rcases ih rfl with hmem | ⟨hcurly, hrung⟩
    · exact .inl hmem
    · exact .inr ⟨hcurly, by first | exact hrung | exact Nat.zero_le 1⟩
  | object hl =>
    cases hphrase
    exact .inr ⟨hl, by decide⟩
  | noArguments | lastArgument | moreArguments | shorthand | entry | noProperties
    | lastProperty | moreProperties => cases hphrase

/-- No end mark is part of a phrase. -/
theorem kind_ne_end {phrase : Phrase} {ts : List Terminal} (h : Derives phrase ts) :
    ∀ t ∈ ts, t.kind ≠ .endOfInput := by
  have hop : ∀ op : BinaryOp, op.kind ≠ .endOfInput := by intro op; cases op <;> decide
  induction h <;> simp_all [or_imp]

end Derives

/-- A bare derivation is a derivation. -/
theorem Bare.derives {e : Expr} {ts : List Terminal} (h : Bare e ts) :
    Derives (.expr .assignment e) ts := by
  induction h with
  | object hl hps hr => exact .loosen (by decide) (.object hl hps hr)
  | assign htarget ht _ ih => exact .assign htarget ht ih

end Scriptlet
