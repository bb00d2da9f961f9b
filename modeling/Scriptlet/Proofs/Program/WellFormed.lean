import Mathlib
import Scriptlet.Proofs.Expr.Parts
import Scriptlet.Proofs.Program.Source

/-!
# Programs that were read

Not every program of the type `Program` can be read from tokens.  One that was read is
well-formed (`Program.WellFormed`): a binding without a value ends the source, a
declaration of the name `async` has the modifier, and the property of a plain access is
a name.  If the tokens come from a source, its names can be spelled and its numbers have
no sign (`Program.Lexical`).  All of this holds at every depth, in the bodies of
declarations and in the parts of expressions.

Each statement of a program was read from some of the terminals, and so was each
expression, so the rules of the grammar say all of this of one statement or of one
expression at a time.
-/

namespace Scriptlet

/-! ## What is inside a program -/

namespace Stmt

mutual

/-- A statement and the statements inside it, the outer ones first. -/
def statements : Stmt → List Stmt
  | .binding name constant value => [.binding name constant value]
  | .function name parameters isAsync body =>
      .function name parameters isAsync body :: statementsOfBody body
  | .expression e => [.expression e]

/-- The statements of a body and the statements inside them. -/
def statementsOfBody : List Stmt → List Stmt
  | [] => []
  | s :: ss => statements s ++ statementsOfBody ss

end

/-- The expressions of a statement, though not those of the statements inside it. -/
def expressions : Stmt → List Expr
  | .binding _ _ value => value.toList.flatMap Expr.parts
  | .function .. => []
  | .expression e => e.parts

/-- The names that a statement itself has. -/
def names : Stmt → List String
  | .binding name _ _ => [name]
  | .function name parameters _ _ => name :: parameters
  | .expression _ => []

end Stmt

/-- The names that an expression itself has. -/
def Expr.names : Expr → List String
  | .identifier name => [name]
  | .object properties => properties.map Property.key
  | _ => []

namespace Program

/-- The statements of a program at every depth. -/
def statements (p : Program) : List Stmt := Stmt.statementsOfBody p.body

/-- The expressions of a program at every depth. -/
def expressions (p : Program) : List Expr := p.statements.flatMap Stmt.expressions

/-- The names, keys and parameters of a program at every depth. -/
def names (p : Program) : List String :=
  p.statements.flatMap Stmt.names ++ p.expressions.flatMap Expr.names

/-- What a program that was read from tokens is like. -/
structure WellFormed (p : Program) : Prop where
  /-- A binding without a value is the last statement of the program, and it is not
  constant. -/
  bareBinding : ∀ front back name constant,
    p.body = front ++ .binding name constant none :: back → back = [] ∧ constant = false
  /-- It is in no other body. -/
  body : ∀ f parameters isAsync body, .function f parameters isAsync body ∈ p.statements →
    ∀ name constant, .binding name constant none ∉ body
  /-- A declaration of the name `async` stands behind the word `async`. -/
  modifier : ∀ parameters isAsync body,
    .function "async" parameters isAsync body ∈ p.statements → isAsync = true
  /-- The property of a plain access is a name. -/
  property : ∀ owner property, .member owner property false ∈ p.expressions →
    ∃ name, property = .identifier name

/-- What a program that was read from a source is like. -/
structure Lexical (p : Program) : Prop where
  /-- Its names, keys and parameters are one lexeme each, and none is a reserved word. -/
  names : ∀ name ∈ p.names, Lexeme.IsName name ∧ name ≠ "let" ∧ name ≠ "const"
  /-- Its numbers are numbers, and their sign bit is not set. -/
  numbers : ∀ d, .number d ∈ p.expressions → d ≠ .nan ∧ d.toBits.toNat < Nat.pow 2 63

end Program

/-! ## Where a statement was read -/

/-- The statements in a part. -/
def Part.statements : Part → List Stmt
  | .statement s => s.statements
  | .body ss => Stmt.statementsOfBody ss

namespace Reads

variable {mode : Detection} {ts rest : List Terminal}

/-- Every statement in a part was read from some of the terminals of the part. -/
theorem exists_of_mem_statements {part : Part} (h : Reads mode part ts rest) {s : Stmt}
    (hs : s ∈ part.statements) : ∃ us behind, us ⊆ ts ∧ Reads mode (.statement s) us behind := by
  induction h with
  | binding hw ht hq he =>
    rw [List.mem_singleton.1 hs]
    exact ⟨_, _, List.Subset.refl _, .binding hw ht hq he⟩
  | bareBinding hw ht =>
    rw [List.mem_singleton.1 hs]
    exact ⟨_, _, List.Subset.refl _, .bareBinding hw ht⟩
  | function hopens hbody hclose ih =>
    rcases List.mem_cons.1 hs with rfl | hs
    · exact ⟨_, _, List.Subset.refl _, .function hopens hbody hclose⟩
    · obtain ⟨us, behind, hsub, hreads⟩ := ih hs
      exact ⟨us, behind, fun _ hu => List.mem_append_right _ (List.mem_append_left _ (hsub hu)),
        hreads⟩
  | expression he hmode =>
    rw [List.mem_singleton.1 hs]
    exact ⟨_, _, List.Subset.refl _, .expression he hmode⟩
  | nil => cases hs
  | cons _ _ ihs ihss =>
    rcases List.mem_append.1 hs with hs | hs
    · obtain ⟨us, behind, hsub, hreads⟩ := ihs hs
      exact ⟨us, behind, fun _ hu => List.mem_append_left _ (hsub hu), hreads⟩
    · obtain ⟨us, behind, hsub, hreads⟩ := ihss hs
      exact ⟨us, behind, fun _ hu => List.mem_append_right _ (hsub hu), hreads⟩

/-- A binding without a value is the last statement of its body, and the source ends
there. -/
theorem bareBinding_last {front back : List Stmt} {name : String} {constant : Bool}
    (h : Reads mode (.body (front ++ .binding name constant none :: back)) ts rest) :
    back = [] ∧ constant = false ∧ rest = [] := by
  induction front generalizing ts with
  | nil =>
    cases h with
    | cons hs hss =>
      obtain ⟨hconstant, hnil⟩ := hs.eq_of_bareBinding
      obtain ⟨hempty, hrest⟩ := List.append_eq_nil_iff.1 hnil
      exact ⟨hss.eq_nil hempty, hconstant, hrest⟩
  | cons s front ih =>
    cases h with
    | cons _ hss => exact ih hss

/-- A brace follows a body, so no binding in it is without a value. -/
theorem bareBinding_not_mem {f : String} {parameters : List String} {isAsync : Bool}
    {body : List Stmt} (h : Reads mode (.statement (.function f parameters isAsync body)) ts rest)
    (name : String) (constant : Bool) : .binding name constant none ∉ body := by
  intro hmem
  obtain ⟨_, _, _, _, _, hsame, _, _, hbody, _⟩ := h.exists_heading rfl
  cases hsame
  obtain ⟨front, back, rfl⟩ := List.mem_iff_append.1 hmem
  cases hbody.bareBinding_last.2.2

/-- A declaration of the name `async` has the modifier. -/
theorem isAsync_of_name {f : String} {parameters : List String} {isAsync : Bool}
    {body : List Stmt} (h : Reads mode (.statement (.function f parameters isAsync body)) ts rest)
    (hname : f = "async") : isAsync = true := by
  obtain ⟨head, _, _, _, _, hsame, _, hopens, _⟩ := h.exists_heading rfl
  obtain ⟨rfl, rfl, rfl, rfl⟩ := Stmt.function.inj hsame
  cases hopens with
  | plain hasync ht =>
    rw [Detection.isAsyncWord, decide_eq_true ht, decide_eq_true hname] at hasync
    cases hasync
  | async => rfl

/-- Every expression of a statement stood among its terminals. -/
theorem stoodIn {s : Stmt} (h : Reads mode (.statement s) ts rest) {e : Expr}
    (he : e ∈ s.expressions) : e.StoodIn ts := by
  cases h with
  | binding _ _ _ hvalue =>
    rw [Stmt.expressions, Option.toList_some, List.flatMap_singleton] at he
    exact (hvalue.derives.stoodIn_of_mem_parts he).mono fun _ hu => .tail _ (.tail _ (.tail _ hu))
  | bareBinding | function => cases he
  | expression hexpr => exact hexpr.derives.stoodIn_of_mem_parts he

/-- The names of a statement are those of its terminals. -/
theorem isName {s : Stmt} (h : Reads mode (.statement s) ts rest)
    (hlexical : ∀ t ∈ ts, t.Lexical) : ∀ name ∈ s.names, Lexeme.IsName name := by
  cases h with
  | binding _ ht | bareBinding _ ht =>
    exact List.forall_mem_singleton.2 ((hlexical _ (.tail _ (.head _))).name ht)
  | function hopens =>
    exact List.forall_mem_cons.2 (hopens.isName fun t ht => hlexical t (List.mem_append_left _ ht))
  | expression => exact List.forall_mem_nil _

end Reads

/-! ## What the text of a token says -/

/-- A decimal without sign denotes a number whose sign bit is not set. -/
theorem Decimal.toDouble_unsigned (decimal : Decimal) :
    decimal.toDouble false ≠ .nan ∧ (decimal.toDouble false).toBits.toNat < Nat.pow 2 63 := by
  rw [toDouble]
  split
  next hlt =>
    refine ⟨by simp, ?_⟩
    have hrank : decimal.rank < 0x7ff0000000000000 := hlt
    simp [Double.toBits, Double.signBit]
    omega
  next => exact ⟨by simp, by decide⟩

namespace Expr.StoodIn

variable {ts : List Terminal}

/-- The names of an expression are those of its terminals. -/
theorem isName {e : Expr} (h : e.StoodIn ts) (hlexical : ∀ t ∈ ts, t.Lexical) :
    ∀ name ∈ e.names, Lexeme.IsName name := by
  cases e with
  | identifier => exact List.forall_mem_singleton.2 ((hlexical _ h).name rfl)
  | object =>
    intro name hname
    obtain ⟨property, hproperty, rfl⟩ := List.mem_map.1 hname
    exact (hlexical _ (h property hproperty)).name rfl
  | _ => exact List.forall_mem_nil _

/-- A number in terminals that were split off a source has no sign. -/
theorem unsigned {d : Double} (h : (number d).StoodIn ts) (hlexical : ∀ t ∈ ts, t.Lexical) :
    d ≠ .nan ∧ d.toBits.toNat < Nat.pow 2 63 := by
  obtain ⟨t, ht, hkind, hread⟩ := h
  obtain ⟨decimal, rfl⟩ := ((hlexical t ht).number hkind).exists_decimal hread
  exact decimal.toDouble_unsigned

end Expr.StoodIn

/-! ## Programs -/

namespace Program

variable {mode : Detection} {p : Program} {ts rest : List Terminal}

/-- Every expression of a program stood among the terminals of the program. -/
theorem stoodIn_of_mem (h : Reads mode (.body p.body) ts rest) {e : Expr}
    (he : e ∈ p.expressions) : e.StoodIn ts := by
  obtain ⟨s, hs, hmem⟩ := List.mem_flatMap.1 he
  obtain ⟨us, _, hsub, hreads⟩ := h.exists_of_mem_statements hs
  exact (hreads.stoodIn hmem).mono hsub

theorem wellFormed_of_reads (h : Reads mode (.body p.body) ts rest) : p.WellFormed := by
  constructor
  case bareBinding =>
    intro front back name constant hsplit
    rw [hsplit] at h
    obtain ⟨hback, hconstant, _⟩ := h.bareBinding_last
    exact ⟨hback, hconstant⟩
  case body =>
    intro f parameters isAsync body hmem
    obtain ⟨_, _, _, hreads⟩ := h.exists_of_mem_statements hmem
    exact hreads.bareBinding_not_mem
  case modifier =>
    intro parameters isAsync body hmem
    obtain ⟨_, _, _, hreads⟩ := h.exists_of_mem_statements hmem
    exact hreads.isAsync_of_name rfl
  case property =>
    intro owner property hmem
    exact stoodIn_of_mem h hmem

theorem lexical_of_reads (h : Reads mode (.body p.body) ts rest)
    (hlexical : ∀ t ∈ ts, t.Lexical) : p.Lexical := by
  constructor
  case names =>
    have hnames : ∀ name ∈ p.names, Lexeme.IsName name := by
      intro name hname
      rcases List.mem_append.1 hname with hname | hname
      · obtain ⟨s, hs, hmem⟩ := List.mem_flatMap.1 hname
        obtain ⟨us, _, hsub, hreads⟩ := h.exists_of_mem_statements hs
        exact hreads.isName (fun t ht => hlexical t (hsub ht)) name hmem
      · obtain ⟨e, he, hmem⟩ := List.mem_flatMap.1 hname
        exact (stoodIn_of_mem h he).isName hlexical name hmem
    exact fun name hname => ⟨hnames name hname, (hnames name hname).ne_reserved⟩
  case numbers => exact fun d hd => (stoodIn_of_mem h hd).unsigned hlexical

/-- A program that was read is well-formed.  If its tokens come from a source, its names
can be spelled and its numbers have no sign. -/
theorem wellFormed_of_ofTokens {tokens : List Token} (h : ofTokens mode tokens = .ok p) :
    p.WellFormed ∧ ∀ file source, Token.ofSource file source = .ok tokens → p.Lexical := by
  obtain ⟨c, hc, hreads⟩ := ofTokens_eq_ok_iff.1 h
  refine ⟨wellFormed_of_reads hreads, fun file source hsource => ?_⟩
  obtain ⟨c', rfl, hlexical⟩ := exists_cursor_of_ofSource hsource
  rw [Cursor.ofTokens_remaining] at hc
  cases hc
  exact lexical_of_reads hreads hlexical

/-- A declaration of the name `async` comes before a binding without a value. -/
theorem wellFormed_of_ofTokens_async : ∃ (tokens : List Token) (p : Program),
    Token.ofSource "" "async async(a) \x7b a.b = \x7bc: 0.0\x7d \x7d let d" = .ok tokens ∧
      ofTokens .forwardScan tokens = .ok p ∧
      p.body = [.function "async" ["a"] true [.expression (.assignment
          (.member (.identifier "a") (.identifier "b") false)
          (.object [.entry "c" (.number (.zero false))]))],
        .binding "d" false none] ∧ p.WellFormed ∧ p.Lexical := by
  have hsource : ∃ (tokens : List Token) (p : Program),
      Token.ofSource "" "async async(a) \x7b a.b = \x7bc: 0.0\x7d \x7d let d" = .ok tokens ∧
        ofTokens .forwardScan tokens = .ok p ∧
        p.body = [.function "async" ["a"] true [.expression (.assignment
            (.member (.identifier "a") (.identifier "b") false)
            (.object [.entry "c" (.number (.zero false))]))],
          .binding "d" false none] := by
    refine ⟨_, ⟨_⟩, by cbv, by cbv, rfl⟩
  obtain ⟨tokens, p, htokens, hread, hbody⟩ := hsource
  obtain ⟨hwellFormed, hlexical⟩ := wellFormed_of_ofTokens hread
  exact ⟨tokens, p, htokens, hread, hbody, hwellFormed, hlexical "" _ htokens⟩

end Program

end Scriptlet
