import Scriptlet.Proofs.Expr.Grammar
import Scriptlet.Proofs.Token.Spelling

/-!
# The terminals of a written expression

`Expr.terminals` is written like `Expr.written`, with terminals in place of
text.  For the expressions that can be written at all (`Expr.Printable`) the text
is split into these terminals (`Printable.spelled`), and the grammar derives the
expression from them at its own level (`Printable.derives`).

So the parentheses that are written are enough.  The one place where the level of
an operand decides is `Derives.enclosed`.
-/

namespace Scriptlet

open Token (Kind Spells)

/-! ## Terminals -/

/-- Terminals in parentheses if they are needed. -/
def enclosed (needed : Bool) (ts : List Terminal) : List Terminal :=
  if needed then .mark .openParen :: (ts ++ [.mark .closeParen]) else ts

/-- Lists of terminals with a comma between each two. -/
def separated : List (List Terminal) → List Terminal
  | [] => []
  | [ts] => ts
  | ts :: us :: others => ts ++ .mark .comma :: separated (us :: others)

namespace Expr

mutual

/-- The terminals of the text of an expression. -/
def terminals : Expr → List Terminal
  | .assignment target value =>
      enclosed (target.level < .object) (terminals target) ++ .mark .assignment :: terminals value
  | .binary op left right =>
      enclosed (left.level < op.level) (terminals left) ++ .mark op.kind ::
        enclosed (right.level < op.level.tighter) (terminals right)
  | .object properties =>
      .mark .openCurly :: (separated (terminalsOfProperties properties) ++ [.mark .closeCurly])
  | .call callee arguments =>
      enclosed (callee.level < .call) (terminals callee) ++ .mark .openParen ::
        (separated (terminalsOfList arguments) ++ [.mark .closeParen])
  | .member owner property computed =>
      enclosed (owner.level < .member) (terminals owner) ++
        if computed then .mark .openBracket :: (terminals property ++ [.mark .closeCurly])
        else .mark .dot :: terminals property
  | .identifier name => [⟨.identifier, name⟩]
  | .number value => [⟨.number, String.ofList (value.written .program)⟩]
  | .string value => [⟨.string, value⟩]

/-- The terminals of some expressions, one list for each. -/
def terminalsOfList : List Expr → List (List Terminal)
  | [] => []
  | e :: es => terminals e :: terminalsOfList es

/-- The terminals of a property. -/
def terminalsOfProperty : Property → List Terminal
  | .shorthand key => [⟨.identifier, key⟩]
  | .entry key value => ⟨.identifier, key⟩ :: .mark .colon :: terminals value

/-- The terminals of some properties, one list for each. -/
def terminalsOfProperties : List Property → List (List Terminal)
  | [] => []
  | p :: ps => terminalsOfProperty p :: terminalsOfProperties ps

end

/-- The expressions that can be written: names are names, numbers are finite and
have no sign, and the property of a plain access is a name. -/
inductive Printable : Expr → Prop where
  /-- An assignment. -/
  | assignment {target value : Expr} (ht : Printable target) (hv : Printable value) :
      Printable (.assignment target value)
  /-- A binary operation. -/
  | binary {op : BinaryOp} {left right : Expr} (hl : Printable left) (hr : Printable right) :
      Printable (.binary op left right)
  /-- An object literal. -/
  | object {ps : List Property} (hkeys : ∀ p ∈ ps, Lexeme.IsName p.key)
      (hvalues : ∀ key value, Property.entry key value ∈ ps → Printable value) :
      Printable (.object ps)
  /-- A call. -/
  | call {callee : Expr} {es : List Expr} (hf : Printable callee) (hes : ∀ e ∈ es, Printable e) :
      Printable (.call callee es)
  /-- A plain access. -/
  | dot {owner : Expr} {name : String} (ho : Printable owner) (hn : Lexeme.IsName name) :
      Printable (.member owner (.identifier name) false)
  /-- A computed access. -/
  | index {owner property : Expr} (ho : Printable owner) (hp : Printable property) :
      Printable (.member owner property true)
  /-- A name. -/
  | identifier {name : String} (hn : Lexeme.IsName name) : Printable (.identifier name)
  /-- A finite number without a sign. -/
  | number (rank : Fin finiteCount) : Printable (.number (.finite false rank))
  /-- A string. -/
  | string (value : String) : Printable (.string value)

/-- Whether an expression ends in an object literal when nothing encloses it. -/
def endsBare : Expr → Bool
  | .object _ => true
  | .assignment _ value => endsBare value
  | _ => false

end Expr

/-! ## Derivations of the terminals -/

namespace Derives

/-- Parentheses let an expression stand where its level does not. -/
theorem enclosed {e : Expr} {ts : List Terminal} (level : Level)
    (h : Derives (.expr e.level e) ts) :
    Derives (.expr level e) (Scriptlet.enclosed (e.level < level) ts) := by
  by_cases hlevel : e.level < level
  · have hloose : Derives (.expr .assignment e) ts := h.loosen_to (Nat.not_lt_zero _)
    simp only [Scriptlet.enclosed, hlevel, decide_true, if_true]
    exact (Derives.group rfl hloose rfl).loosen_to (Nat.not_lt.2 level.rung_le)
  · simp only [Scriptlet.enclosed, hlevel, decide_false, Bool.false_eq_true, if_false]
    exact h.loosen_to hlevel

theorem arguments {es : List Expr} (h : ∀ e ∈ es, Derives (.expr .assignment e) e.terminals) :
    Derives (.arguments es) (separated (Expr.terminalsOfList es)) := by
  induction es with
  | nil => exact .noArguments
  | cons e es ih =>
    have he := h e (.head es)
    have hes := ih fun e' he' => h e' (.tail e he')
    cases es with
    | nil => exact .lastArgument he
    | cons e' es => exact .moreArguments he rfl hes

theorem property {p : Property}
    (h : ∀ key value, p = .entry key value → Derives (.expr .assignment value) value.terminals) :
    Derives (.property p) (Expr.terminalsOfProperty p) := by
  cases p with
  | shorthand key =>
    rw [Expr.terminalsOfProperty]
    exact .shorthand (t := ⟨.identifier, key⟩) rfl
  | entry key value =>
    rw [Expr.terminalsOfProperty]
    exact .entry (t := ⟨.identifier, key⟩) rfl rfl (h key value rfl)

theorem properties {ps : List Property} (h : ∀ key value, Property.entry key value ∈ ps →
      Derives (.expr .assignment value) value.terminals) :
    Derives (.properties ps) (separated (Expr.terminalsOfProperties ps)) := by
  induction ps with
  | nil => exact .noProperties
  | cons p ps ih =>
    have hp : Derives (.property p) (Expr.terminalsOfProperty p) :=
      .property fun key value hentry => h key value (hentry ▸ .head ps)
    have hps := ih fun key value hentry => h key value (.tail p hentry)
    cases ps with
    | nil => exact .lastProperty hp
    | cons p' ps => exact .moreProperties hp rfl hps

end Derives

namespace Expr.Printable

/-- What is written for an expression derives it at its own level. -/
theorem derives {e : Expr} (h : e.Printable) : Derives (.expr e.level e) e.terminals := by
  have hloose {e : Expr} (he : Derives (.expr e.level e) e.terminals) :
      Derives (.expr .assignment e) e.terminals := he.loosen_to (Nat.not_lt_zero _)
  induction h with
  | assignment _ _ iht ihv =>
    rw [Expr.terminals]
    exact .assign (iht.enclosed .object) rfl (hloose ihv)
  | @binary op _ _ _ _ ihl ihr =>
    rw [Expr.terminals]
    exact .binary rfl (ihl.enclosed op.level) rfl (ihr.enclosed op.level.tighter)
  | object _ _ ih =>
    rw [Expr.terminals]
    exact .object rfl (.properties fun key value hentry => hloose (ih key value hentry)) rfl
  | call _ _ ihf ihes =>
    rw [Expr.terminals]
    exact .apply (ihf.enclosed .call) rfl (.arguments fun e he => hloose (ihes e he)) rfl
  | @dot owner name _ _ iho =>
    simp only [Expr.terminals, Bool.false_eq_true, if_false]
    exact .dot (iho.enclosed .member) rfl (.name (t := ⟨.identifier, name⟩) rfl)
  | index _ _ iho ihp =>
    simp only [Expr.terminals, if_true]
    exact .index (iho.enclosed .member) rfl (hloose ihp) rfl
  | @identifier name _ =>
    rw [Expr.terminals]
    exact .name (t := ⟨.identifier, name⟩) rfl
  | number rank =>
    rw [Expr.terminals]
    exact .number rfl (by rw [String.toList_ofList, Double.read?_written])
  | string value =>
    rw [Expr.terminals]
    exact .string (t := ⟨.string, value⟩) rfl

theorem derives_loose {e : Expr} (h : e.Printable) : Derives (.expr .assignment e) e.terminals :=
  h.derives.loosen_to (Nat.not_lt_zero _)

/-- What is written for an expression is bare just when the expression says so. -/
theorem bare {e : Expr} (h : e.Printable) (hbare : e.endsBare) : Bare e e.terminals := by
  induction h with
  | assignment ht _ _ ihv =>
    rw [Expr.terminals]
    exact .assign (ht.derives.enclosed .object) rfl (ihv hbare)
  | object _ hvalues _ =>
    rw [Expr.terminals]
    exact .object rfl (.properties fun key value hentry => (hvalues key value hentry).derives_loose)
      rfl
  | binary | call | dot | index | identifier | number | string => cases hbare

end Expr.Printable

theorem Bare.endsBare {e : Expr} {ts : List Terminal} (h : Bare e ts) : e.endsBare := by
  induction h with
  | object => rfl
  | assign _ _ _ ih => exact ih

/-! ## Spellings of the terminals -/

namespace Token

/-- A point may stand behind a word or a number when a name comes next. -/
theorem separate_dot {name : String} {rest : List Char} (h : Lexeme.IsName name) :
    Separate ('.' :: (name.toList ++ rest)) := by
  obtain ⟨c, tail, hname, hword, _⟩ := Lexeme.isName_iff.1 h
  have hdigit : ¬ c.isDigit := by
    intro hc
    rw [Lexeme.not_isWordStart_of_isDigit hc] at hword
    cases hword
  refine ⟨by simp; decide, ?_⟩
  rw [hname, List.cons_append, Lexeme.fractionPart, if_neg hdigit]

/-- A text is split into some terminals wherever a word may end behind it. -/
def Spelled (text : String) (ts : List Terminal) : Prop :=
  ∀ rest, Separate rest → Spells text.toList ts rest

theorem Spells.cons_blank {text rest : List Char} {ts : List Terminal}
    (h : Spells text ts rest) : Spells (' ' :: text) ts rest :=
  (spells_blank Text.isBlank_space (text ++ rest)).append h

theorem Spells.cons_mark {c : Char} {kind : Kind} {text rest : List Char} {ts : List Terminal}
    (h : Spells text ts rest) (hmark : Lexeme.punctuation? c = some kind)
    (hslash : (c == '/') = false) : Spells (c :: text) (.mark kind :: ts) rest :=
  (spells_mark hmark hslash).append h

theorem Spelled.enclosedIf {text : String} {ts : List Terminal} (needed : Bool)
    (h : Spelled text ts) : Spelled (enclosedIf needed text) (enclosed needed ts) := by
  intro rest hrest
  cases needed with
  | false => exact h rest hrest
  | true =>
    have hclose : Spells [')'] [.mark .closeParen] rest := spells_mark rfl rfl
    have hinner := (h (')' :: rest) (separate_cons rfl)).append hclose
    have htext : (Scriptlet.enclosedIf true text).toList = '(' :: (text.toList ++ [')']) := by
      simp [Scriptlet.enclosedIf]
    rw [htext]
    exact hinner.cons_mark rfl rfl

theorem Spelled.intercalate {texts : List String} {tss : List (List Terminal)}
    (h : List.Forall₂ Spelled texts tss) : Spelled (", ".intercalate texts) (separated tss) := by
  induction h with
  | nil =>
    intro rest _
    exact .nil rest
  | @cons text ts texts tss hfirst hothers ih =>
    cases hothers with
    | nil => exact hfirst
    | @cons text' ts' texts tss _ _ =>
      intro rest hrest
      have hcomma : (", ".intercalate (text :: text' :: texts)).toList =
          text.toList ++ ',' :: ' ' :: (", ".intercalate (text' :: texts)).toList := by
        rw [String.intercalate_cons_cons]
        simp
      rw [hcomma]
      refine (hfirst _ (separate_cons rfl)).append ?_
      exact (ih rest hrest).cons_blank.cons_mark rfl rfl

end Token

namespace Expr

open Token

theorem forall₂_spelled {es : List Expr} (h : ∀ e ∈ es, Spelled e.written e.terminals) :
    List.Forall₂ Spelled (writtenList es) (terminalsOfList es) := by
  induction es with
  | nil => exact .nil
  | cons e es ih => exact .cons (h e (.head es)) (ih fun e' he' => h e' (.tail e he'))

theorem spelled_name {name : String} (h : Lexeme.IsName name) :
    Spelled name [⟨.identifier, name⟩] :=
  fun _ hrest => spells_name h hrest

theorem spelled_property {p : Property} (hkey : Lexeme.IsName p.key)
    (hvalue : ∀ key value, p = .entry key value → Spelled value.written value.terminals) :
    Spelled (writtenProperty p) (terminalsOfProperty p) := by
  cases p with
  | shorthand key => exact spelled_name hkey
  | entry key value =>
    intro rest hrest
    have hname : Lexeme.IsName key := hkey
    have htext : (writtenProperty (.entry key value)).toList =
        key.toList ++ ':' :: ' ' :: value.written.toList := by
      simp [writtenProperty]
    have hcolon : Spells (':' :: ' ' :: value.written.toList)
        (.mark .colon :: value.terminals) rest :=
      (hvalue key value rfl rest hrest).cons_blank.cons_mark rfl rfl
    rw [htext, terminalsOfProperty]
    exact (spelled_name hname _ (separate_cons rfl)).append hcolon

theorem forall₂_spelled_properties {ps : List Property} (hkeys : ∀ p ∈ ps, Lexeme.IsName p.key)
    (hvalues : ∀ key value, Property.entry key value ∈ ps →
      Spelled value.written value.terminals) :
    List.Forall₂ Spelled (writtenProperties ps) (terminalsOfProperties ps) := by
  induction ps with
  | nil => exact .nil
  | cons p ps ih =>
    refine .cons (spelled_property (hkeys p (.head ps)) fun key value hentry => ?_)
      (ih (fun p' hp' => hkeys p' (.tail p hp')) fun key value hentry => ?_)
    · exact hvalues key value (hentry ▸ .head ps)
    · exact hvalues key value (.tail p hentry)

theorem spells_operator (op : BinaryOp) {text rest : List Char} {ts : List Terminal}
    (h : Spells text ts rest) :
    Spells (' ' :: (op.symbol.toList ++ ' ' :: text)) (.mark op.kind :: ts) rest := by
  cases op with
  | divide => exact ((spells_mark_of_head rfl (by simp)).append h.cons_blank).cons_blank
  | add | subtract | multiply | modulo => exact (h.cons_blank.cons_mark rfl rfl).cons_blank

/-- The text of an expression is split into its terminals. -/
theorem Printable.spelled {e : Expr} (h : e.Printable) : Spelled e.written e.terminals := by
  induction h with
  | @assignment target value _ _ iht ihv =>
    intro rest hrest
    have htext : (written (.assignment target value)).toList =
        (enclosedIf (target.level < .object) target.written).toList ++
          ' ' :: '=' :: ' ' :: value.written.toList := by
      simp [written]
    rw [htext, terminals]
    refine (iht.enclosedIf _ _ (separate_cons rfl)).append ?_
    exact ((ihv rest hrest).cons_blank.cons_mark rfl rfl).cons_blank
  | @binary op left right _ _ ihl ihr =>
    intro rest hrest
    have htext : (written (.binary op left right)).toList =
        (enclosedIf (left.level < op.level) left.written).toList ++
          ' ' :: (op.symbol.toList ++
            ' ' :: (enclosedIf (right.level < op.level.tighter) right.written).toList) := by
      simp [written]
    rw [htext, terminals]
    refine (ihl.enclosedIf _ _ (separate_cons rfl)).append ?_
    exact spells_operator op (ihr.enclosedIf _ rest hrest)
  | @object ps hkeys _ ih =>
    intro rest hrest
    have hclose : Spells ['}'] [.mark .closeCurly] rest := spells_mark rfl rfl
    cases ps with
    | nil => exact hclose.cons_mark rfl rfl
    | cons p ps =>
      have htext : (written (.object (p :: ps))).toList =
          '{' :: ' ' :: ((", ".intercalate (writtenProperties (p :: ps))).toList ++ [' ', '}']) := by
        simp [written]
      have hproperties := Spelled.intercalate (forall₂_spelled_properties hkeys ih)
      have hinner := (hproperties (' ' :: '}' :: rest)
        (separate_cons rfl)).append hclose.cons_blank
      rw [htext, terminals]
      exact hinner.cons_blank.cons_mark rfl rfl
  | @call callee es _ _ ihf ihes =>
    intro rest hrest
    have hclose : Spells [')'] [.mark .closeParen] rest := spells_mark rfl rfl
    have htext : (written (.call callee es)).toList =
        (enclosedIf (callee.level < .call) callee.written).toList ++
          '(' :: ((", ".intercalate (writtenList es)).toList ++ [')']) := by
      simp [written]
    have harguments := Spelled.intercalate (forall₂_spelled ihes)
    have hinner := (harguments (')' :: rest) (separate_cons rfl)).append hclose
    rw [htext, terminals]
    refine (ihf.enclosedIf _ _ (separate_cons rfl)).append ?_
    exact hinner.cons_mark rfl rfl
  | @dot owner name _ hn iho =>
    intro rest hrest
    have htext : (written (.member owner (.identifier name) false)).toList =
        (enclosedIf (owner.level < .member) owner.written).toList ++ '.' :: name.toList := by
      simp [written]
    rw [htext, terminals, terminals]
    refine (iho.enclosedIf _ _ (separate_dot hn)).append ?_
    exact (spelled_name hn rest hrest).cons_mark rfl rfl
  | @index owner property _ _ iho ihp =>
    intro rest hrest
    have hclose : Spells ['}'] [.mark .closeCurly] rest := spells_mark rfl rfl
    have htext : (written (.member owner property true)).toList =
        (enclosedIf (owner.level < .member) owner.written).toList ++
          '[' :: (property.written.toList ++ ['}']) := by
      simp [written]
    have hinner := (ihp ('}' :: rest) (separate_cons rfl)).append hclose
    rw [htext, terminals]
    refine (iho.enclosedIf _ _ (separate_cons rfl)).append ?_
    exact hinner.cons_mark rfl rfl
  | identifier hn => exact spelled_name hn
  | number rank =>
    intro rest hrest
    rw [written, terminals, String.toList_ofList]
    exact spells_number (Double.plain_written rank) hrest
  | string value =>
    intro rest _
    rw [written, terminals]
    exact spells_literal value rest

end Expr

end Scriptlet
