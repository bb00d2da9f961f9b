import Scriptlet.Proofs.Expr.Terminals
import Scriptlet.Proofs.Token.Legible

/-!
# Expressions that were made by hand

The names of an expression must be names, or its text means nothing.  Nothing else is
asked here (`Expr.Named`): a number may be negative or infinite or none at all, and
the property of a plain access may be any expression.  The text of such an expression
need not be split into the terminals of the expression, and need not read back.  It is
split into some terminals all the same (`Expr.Named.shown`).
-/

namespace Scriptlet

/-- A legible text that starts with a visible character. -/
structure Shown (text : String) : Prop where
  /-- It is legible. -/
  legible : Legible text.toList
  /-- Its first character is visible. -/
  visible : ∃ c ∈ text.toList.head?, c ≠ ' '

/-! ## Legible parts -/

namespace Legible

theorem of_all {text : List Char} (h : text.all isPlain = true) : Legible text :=
  of_forall (List.all_eq_true.1 h)

theorem append_string {left right : String} (h : Legible left.toList) (h' : Legible right.toList) :
    Legible (left ++ right).toList := by
  rw [String.toList_append]
  exact h.append h'

theorem intercalate {texts : List String} (h : ∀ text ∈ texts, Legible text.toList) :
    Legible (", ".intercalate texts).toList := by
  induction texts with
  | nil => exact .nil
  | cons text texts ih =>
    cases texts with
    | nil => exact h text (.head _)
    | cons text' texts =>
      rw [String.intercalate_cons_cons]
      exact ((h text (.head _)).append_string (.of_all rfl)).append_string
        (ih fun other hother => h other (.tail text hother))

/-- The sign of a division stands before a space. -/
theorem operator (op : BinaryOp) : Legible (" " ++ op.symbol ++ " ").toList := by
  cases op with
  | divide => exact .plain rfl (.slash .nil)
  | add | subtract | multiply | modulo => exact .of_all rfl

end Legible

namespace Shown

variable {left right text : String}

theorem append (h : Shown left) (h' : Legible right.toList) : Shown (left ++ right) := by
  refine ⟨h.legible.append_string h', ?_⟩
  obtain ⟨c, hc, hvisible⟩ := h.visible
  obtain ⟨tail, htail⟩ := List.head?_eq_some_iff.1 hc
  refine ⟨c, ?_, hvisible⟩
  rw [String.toList_append, htail]
  rfl

theorem of_cons {c : Char} {tail : List Char} (htext : text.toList = c :: tail) (hc : c ≠ ' ')
    (h : Legible (c :: tail)) : Shown text := by
  rw [← htext] at h
  exact ⟨h, c, by rw [htext]; rfl, hc⟩

theorem enclosedIf (needed : Bool) (h : Shown text) : Shown (enclosedIf needed text) := by
  cases needed with
  | false => exact h
  | true =>
    have hopen : Shown "(" := .of_cons rfl (by decide) (.of_all rfl)
    exact (hopen.append h.legible).append (.of_all rfl)

/-- A word is shown. -/
theorem of_isWord {word : String} (h : Lexeme.IsWord word) : Shown word := by
  have hplain : ∀ d ∈ word.toList, isPlain d := fun d hd =>
    isPlain_of_isWordChar (h.isWordChar d hd)
  obtain ⟨c, tail, hword, hstart, _⟩ := h
  rw [hword] at hplain
  refine .of_cons hword ?_ (.of_forall hplain)
  rintro rfl
  cases hstart

theorem of_isName {name : String} (h : Lexeme.IsName name) : Shown name := .of_isWord h.isWord

/-- Any double is shown, also one that no numeral denotes. -/
theorem of_double (d : Double) : Shown (String.ofList (d.written .program)) := by
  have hmagnitude (rank : Fin finiteCount) : Shown
      (String.ofList ((Double.finite false rank).written .program)) := by
    have hplain := Double.plain_written rank
    obtain ⟨c, hc, hdigit⟩ := hplain.head_isDigit
    refine ⟨?_, c, ?_, ?_⟩
    · rw [String.toList_ofList]
      exact .of_forall fun d hd => isPlain_of_isDigit_or_point (hplain.isDigit_or_point d hd)
    · rw [String.toList_ofList]
      exact hc
    · rintro rfl
      cases hdigit
  cases d with
  | nan => exact .of_cons rfl (by decide) (.of_all rfl)
  | infinite negative => cases negative <;> exact .of_cons rfl (by decide) (.of_all rfl)
  | finite negative rank =>
    cases negative with
    | false => exact hmagnitude rank
    | true =>
      have hlegible := (hmagnitude rank).legible
      rw [String.toList_ofList] at hlegible
      exact .of_cons String.toList_ofList (by decide) (.plain rfl hlegible)

theorem literal (value : String) : Shown (literal value) := by
  have htext : (Scriptlet.literal value).toList =
      '"' :: (Escape.escape value.toList ++ '"' :: []) := by
    simp [Scriptlet.literal]
  exact .of_cons htext (by decide) (.literal value.toList .nil)

end Shown

/-! ## Expressions -/

namespace Expr

/-- The expressions whose names are words.  A reserved word may be among them. -/
inductive Worded : Expr → Prop where
  /-- An assignment. -/
  | assignment {target value : Expr} (ht : Worded target) (hv : Worded value) :
      Worded (.assignment target value)
  /-- A binary operation. -/
  | binary {op : BinaryOp} {left right : Expr} (hl : Worded left) (hr : Worded right) :
      Worded (.binary op left right)
  /-- An object literal. -/
  | object {ps : List Property} (hkeys : ∀ p ∈ ps, Lexeme.IsWord p.key)
      (hvalues : ∀ key value, Property.entry key value ∈ ps → Worded value) : Worded (.object ps)
  /-- A call. -/
  | call {callee : Expr} {es : List Expr} (hf : Worded callee) (hes : ∀ e ∈ es, Worded e) :
      Worded (.call callee es)
  /-- An access, whatever its property is. -/
  | member {owner property : Expr} {computed : Bool} (ho : Worded owner) (hp : Worded property) :
      Worded (.member owner property computed)
  /-- A word. -/
  | identifier {name : String} (hn : Lexeme.IsWord name) : Worded (.identifier name)
  /-- Any number. -/
  | number (value : Double) : Worded (.number value)
  /-- Any string. -/
  | string (value : String) : Worded (.string value)

theorem legible_property {p : Property} (hkey : Lexeme.IsWord p.key)
    (hvalue : ∀ key value, p = .entry key value → Legible value.written.toList) :
    Legible (writtenProperty p).toList := by
  have hname := (Shown.of_isWord hkey).legible
  cases p with
  | shorthand key => exact hname
  | entry key value =>
    exact (hname.append_string (.of_all rfl)).append_string (hvalue key value rfl)

/-- The text of an expression is legible when its names are words. -/
theorem Worded.shown {e : Expr} (h : e.Worded) : Shown e.written := by
  induction h with
  | assignment _ _ iht ihv =>
    rw [written]
    exact ((iht.enclosedIf _).append (.of_all rfl)).append ihv.legible
  | @binary op left right _ _ ihl ihr =>
    have htext : written (.binary op left right) =
        Scriptlet.enclosedIf (left.level < op.level) left.written ++ (" " ++ op.symbol ++ " ") ++
          Scriptlet.enclosedIf (right.level < op.level.tighter) right.written := by
      simp only [written, String.append_assoc]
    rw [htext]
    exact ((ihl.enclosedIf _).append (.operator op)).append (ihr.enclosedIf _).legible
  | @object ps hkeys _ ih =>
    have hopen : Shown "\x7b " := .of_cons rfl (by decide) (.of_all rfl)
    cases ps with
    | nil => exact .of_cons rfl (by decide) (.of_all rfl)
    | cons p ps =>
      have hproperties : Legible (", ".intercalate (writtenProperties (p :: ps))).toList := by
        refine .intercalate fun text htext => ?_
        rw [writtenProperties_eq_map] at htext
        obtain ⟨q, hq, rfl⟩ := List.mem_map.1 htext
        exact legible_property (hkeys q hq) fun key value hentry =>
          (ih key value (hentry ▸ hq)).legible
      rw [written]
      exact (hopen.append hproperties).append (.of_all rfl)
  | @call _ es _ _ ihf ihes =>
    have harguments : Legible (", ".intercalate (writtenList es)).toList := by
      refine .intercalate fun text htext => ?_
      rw [writtenList_eq_map] at htext
      obtain ⟨e, he, rfl⟩ := List.mem_map.1 htext
      exact (ihes e he).legible
    rw [written]
    exact (((ihf.enclosedIf _).append (.of_all rfl)).append harguments).append (.of_all rfl)
  | @member owner property computed _ _ iho ihp =>
    have hopen : Legible "[".toList := .of_all rfl
    have hdot : Legible ".".toList := .of_all rfl
    rw [written]
    refine (iho.enclosedIf _).append ?_
    cases computed with
    | true => exact (hopen.append_string ihp.legible).append_string (.of_all rfl)
    | false => exact hdot.append_string ihp.legible
  | identifier hn => exact .of_isWord hn
  | number value => exact .of_double value
  | string value => exact .literal value

/-- The expressions whose names are names. -/
inductive Named : Expr → Prop where
  /-- An assignment. -/
  | assignment {target value : Expr} (ht : Named target) (hv : Named value) :
      Named (.assignment target value)
  /-- A binary operation. -/
  | binary {op : BinaryOp} {left right : Expr} (hl : Named left) (hr : Named right) :
      Named (.binary op left right)
  /-- An object literal. -/
  | object {ps : List Property} (hkeys : ∀ p ∈ ps, Lexeme.IsName p.key)
      (hvalues : ∀ key value, Property.entry key value ∈ ps → Named value) : Named (.object ps)
  /-- A call. -/
  | call {callee : Expr} {es : List Expr} (hf : Named callee) (hes : ∀ e ∈ es, Named e) :
      Named (.call callee es)
  /-- An access, whatever its property is. -/
  | member {owner property : Expr} {computed : Bool} (ho : Named owner) (hp : Named property) :
      Named (.member owner property computed)
  /-- A name. -/
  | identifier {name : String} (hn : Lexeme.IsName name) : Named (.identifier name)
  /-- Any number. -/
  | number (value : Double) : Named (.number value)
  /-- Any string. -/
  | string (value : String) : Named (.string value)

theorem Named.worded {e : Expr} (h : e.Named) : e.Worded := by
  induction h with
  | assignment _ _ iht ihv => exact .assignment iht ihv
  | binary _ _ ihl ihr => exact .binary ihl ihr
  | object hkeys _ ih => exact .object (fun p hp => (hkeys p hp).isWord) ih
  | call _ _ ihf ihes => exact .call ihf ihes
  | member _ _ iho ihp => exact .member iho ihp
  | identifier hn => exact .identifier hn.isWord
  | number value => exact .number value
  | string value => exact .string value

/-- The text of an expression is legible when its names are names. -/
theorem Named.shown {e : Expr} (h : e.Named) : Shown e.written := h.worded.shown

end Expr

end Scriptlet
