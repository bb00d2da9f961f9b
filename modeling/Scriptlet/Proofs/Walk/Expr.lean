import Mathlib
import Scriptlet.Proofs.Walk.Basic

/-!
# Walks over expressions

The readers of expressions as walks.  They ask for the same tokens in the same order and give the
same messages, but no count of tokens bounds their loops or how deep they descend.

From every place of a list each of them follows its reader (`assignment_follows` and the theorems
before it), provided that the reader has room.
-/

namespace Scriptlet.Walk

open Token (Kind)

/-! ## The walks -/

/-- The operations of one level, which are chained from the left. -/
inductive Chain where
  /-- Products, quotients and remainders. -/
  | products
  /-- Sums and differences. -/
  | sums

/-- The operators of a chain. -/
def Chain.op? : Chain → Kind → Option BinaryOp
  | .products => Parser.productOp?
  | .sums => Parser.sumOp?

/-- The reader of the operands of a chain. -/
def Chain.reader : Chain → Nat → Parser Expr → Parser Expr
  | .products => Parser.call
  | .sums => Parser.multiplicative

mutual

/-- A name, a number, a string or an expression in parentheses. -/
def primary : Nat → Walk Expr
  | 0 => spent
  | clock + 1 => do
      let token ← current
      match token.kind with
      | .identifier =>
          let _ ← advance
          return .identifier token.value
      | .number =>
          let _ ← advance
          match Numeral.read? token.value.toList with
          | some value => return .number value
          | none => fail (.numberParse token.value) token.span.start
      | .string =>
          let _ ← advance
          return .string token.value
      | .openParen =>
          let _ ← advance
          let inner ← expression clock
          let _ ← expect .closeParen "unexpected token found inside the parentheses"
          return inner
      | _ => refuse

/-- The accesses that follow an owner. -/
def accesses : Nat → Expr → Walk Expr
  | 0, _ => spent
  | clock + 1, owner => do
      match ← kind with
      | .dot =>
          let _ ← advance
          let token ← current
          let property ← primary clock
          match property.name? with
          | some _ => accesses clock (.member owner property false)
          | none => fail (.nonIdentifierMember property.form) token.span.start
      | .openBracket =>
          let _ ← advance
          let property ← expression clock
          let _ ← expect .closeCurly "expected `\x7d` to close the computed member access"
          accesses clock (.member owner property true)
      | _ => return owner

/-- A primary expression and the accesses that follow it. -/
def member : Nat → Walk Expr
  | 0 => spent
  | clock + 1 => do
      let owner ← primary clock
      accesses clock owner

/-- The arguments that follow the first one. -/
def furtherArguments : Nat → Walk (List Expr)
  | 0 => spent
  | clock + 1 => do
      match ← kind with
      | .comma =>
          let _ ← advance
          let argument ← expression clock
          let others ← furtherArguments clock
          return argument :: others
      | _ => return []

/-- The arguments before a closing parenthesis. -/
def argumentsOpen : Nat → Walk (List Expr)
  | 0 => spent
  | clock + 1 => do
      match ← kind with
      | .closeParen => return []
      | _ =>
          let argument ← expression clock
          let others ← furtherArguments clock
          return argument :: others

/-- Arguments in parentheses. -/
def arguments : Nat → Walk (List Expr)
  | 0 => spent
  | clock + 1 => do
      let _ ← expect .openParen "missing `(`"
      let arguments ← argumentsOpen clock
      let _ ← expect .closeParen "missing `)`"
      return arguments

/-- The calls that follow a callee. -/
def calls : Nat → Expr → Walk Expr
  | 0, _ => spent
  | clock + 1, callee => do
      match ← kind with
      | .openParen =>
          let arguments ← arguments clock
          calls clock (.call callee arguments)
      | _ => return callee

/-- A member access and the calls that follow it. -/
def call : Nat → Walk Expr
  | 0 => spent
  | clock + 1 => do
      let callee ← member clock
      calls clock callee

/-- An operand of a chain. -/
def operand (level : Chain) : Nat → Walk Expr
  | 0 => spent
  | clock + 1 =>
      match level with
      | .products => call clock
      | .sums => chain .products clock

/-- The operations that follow a left operand. -/
def operations (level : Chain) : Nat → Expr → Walk Expr
  | 0, _ => spent
  | clock + 1, left => do
      match level.op? (← kind) with
      | some op =>
          let _ ← advance
          let right ← operand level clock
          operations level clock (.binary op left right)
      | none => return left

/-- Operands joined by the operators of a chain. -/
def chain (level : Chain) : Nat → Walk Expr
  | 0 => spent
  | clock + 1 => do
      let left ← operand level clock
      operations level clock left

/-- The properties before a closing brace. -/
def properties : Nat → Walk (List Property)
  | 0 => spent
  | clock + 1 => do
      match ← kind with
      | .closeCurly | .endOfInput => return []
      | _ =>
          let key ← expect .identifier "expected a property name inside the object"
          match ← kind with
          | .comma =>
              let _ ← advance
              let others ← properties clock
              return .shorthand key.value :: others
          | .closeCurly => return [.shorthand key.value]
          | _ =>
              let _ ← expect .colon ("expected `:` after `" ++ key.value ++ "`")
              let value ← expression clock
              match ← kind with
              | .closeCurly => return [.entry key.value value]
              | _ =>
                  let _ ← expect .comma "expected `,` or a closing `\x7d` after the property"
                  let others ← properties clock
                  return .entry key.value value :: others

/-- An object literal, or else a sum. -/
def object : Nat → Walk Expr
  | 0 => spent
  | clock + 1 => do
      match ← kind with
      | .openCurly =>
          let _ ← advance
          let properties ← properties clock
          let _ ← expect .closeCurly "the object is never closed"
          return .object properties
      | _ => chain .sums clock

/-- An object literal or a sum, and what is assigned to it. -/
def assignment : Nat → Walk Expr
  | 0 => spent
  | clock + 1 => do
      let target ← object clock
      match ← kind with
      | .assignment =>
          let _ ← advance
          let value ← expression clock
          return .assignment target value
      | _ => return target

/-- An expression. -/
def expression : Nat → Walk Expr
  | 0 => spent
  | clock + 1 => assignment clock

end

/-- A call of a callee, and the calls that follow it. -/
def callOf (callee : Expr) (clock : Nat) : Walk Expr := do
  let arguments ← arguments clock
  calls clock (.call callee arguments)

section

variable {c : Cursor} {limit bound : Nat} {nested : Parser Expr}

/-! ## Primary expressions and member accesses -/

theorem primary_follows (hnested : FollowsWithin c limit expression nested) :
    FollowsWithin c (limit + 1) primary (Parser.primary nested) := by
  intro p hroom
  refine .of_succ ?_
  refine follows_current hroom.inside ?_
  generalize hkind : (c.skip p).current.kind = kind
  cases kind with
  | identifier | string =>
    exact (follows_advance hroom.inside).bind fun _ q hq _ => follows_pure _ hq
  | number =>
    generalize Numeral.read? (c.skip p).current.value.toList = value
    cases value with
    | some d => exact (follows_advance hroom.inside).bind fun _ q hq _ => follows_pure _ hq
    | none => exact (follows_advance hroom.inside).bind fun _ q hq _ => follows_fail _ _ hq
  | openParen =>
    refine follows_advance_of_kind hroom hkind (by decide) fun _ q hroom₁ => ?_
    refine (hnested hroom₁).bind fun inner q hq _ => ?_
    exact (follows_expect _ _ hq).bind fun _ q hq _ => follows_pure _ hq
  | _ => exact follows_refuse hroom.inside

variable [Parser.Forward nested]

theorem accesses_follows {owner : Expr} (hnested : FollowsWithin c limit expression nested)
    (hbound : bound ≤ limit) :
    FollowsWithin c bound (accesses · owner) (Parser.memberTail nested bound owner) := by
  refine follows_loop (x := accesses) (y := Parser.memberTail nested) ?_ (fun _ _ => rfl) ?_ hbound
  · intro clock owner p hp hend
    rw [accesses, outcome_bind_of_ok (outcome_kind hp), hend]
    rfl
  · intro n owner p hn hroom ih
    refine follows_kind hroom.inside ?_
    generalize hkind : (c.skip p).kind = kind
    cases kind with
    | dot =>
      refine follows_advance_of_kind hroom hkind (by decide) fun _ q hroom₁ => ?_
      refine follows_current hroom₁.inside ?_
      have hprimary := primary_follows hnested (hroom₁.mono (by omega))
      refine hprimary.bind_room hroom₁ fun property r hroom₂ => ?_
      cases property.name? with
      | some name => exact ih _ hroom₂
      | none => exact follows_fail _ _ hroom₂.inside
    | openBracket =>
      refine follows_advance_of_kind hroom hkind (by decide) fun _ q hroom₁ => ?_
      have hproperty := hnested (hroom₁.mono (Nat.le_of_lt hn))
      refine hproperty.bind_room hroom₁ fun property r hroom₂ => ?_
      exact (follows_expect _ _ hroom₂.inside).bind_room hroom₂ fun _ _ hroom₃ => ih _ hroom₃
    | _ => exact follows_pure _ hroom.inside

theorem member_follows (hnested : FollowsWithin c limit expression nested) :
    FollowsWithin c (limit + 1) member (Parser.member limit nested) := by
  intro p hroom
  refine .of_succ ?_
  refine (primary_follows hnested hroom).bind_consuming hroom fun owner q hroom₁ => ?_
  exact accesses_follows hnested (Nat.le_refl _) hroom₁

/-! ## Arguments and calls -/

theorem furtherArguments_follows (hnested : FollowsWithin c limit expression nested)
    (hbound : bound ≤ limit) :
    FollowsWithin c bound furtherArguments (Parser.argumentsTail nested bound) := by
  refine follows_loop (s := ()) (x := fun clock _ => furtherArguments clock)
    (y := fun n _ => Parser.argumentsTail nested n) ?_ (fun _ _ => rfl) ?_ hbound
  · intro clock _ p hp hend
    rw [furtherArguments, outcome_bind_of_ok (outcome_kind hp), hend]
    rfl
  · intro n _ p hn hroom ih
    refine follows_kind hroom.inside ?_
    generalize hkind : (c.skip p).kind = kind
    cases kind with
    | comma =>
      refine follows_advance_of_kind hroom hkind (by decide) fun _ q hroom₁ => ?_
      have hargument := hnested (hroom₁.mono (Nat.le_of_lt hn))
      refine hargument.bind_room hroom₁ fun argument r hroom₂ => ?_
      exact (ih () hroom₂).bind fun others _ hq _ => follows_pure _ hq
    | _ => exact follows_pure _ hroom.inside

theorem argumentsOpen_follows (hnested : FollowsWithin c limit expression nested)
    (hbound : bound ≤ limit) :
    FollowsWithin c bound argumentsOpen (Parser.argumentsOpen bound nested) := by
  intro p hroom
  refine .of_succ ?_
  refine follows_kind hroom.inside ?_
  generalize (c.skip p).kind = kind
  cases kind with
  | closeParen => exact follows_pure _ hroom.inside
  | _ =>
    refine (hnested (hroom.mono hbound)).bind_room hroom fun argument q hroom₁ => ?_
    exact (furtherArguments_follows hnested hbound hroom₁).bind fun _ _ hq _ => follows_pure _ hq

theorem arguments_follows (hnested : FollowsWithin c limit expression nested)
    (hbound : bound ≤ limit) :
    FollowsWithin c (bound + 1) arguments (Parser.arguments bound nested) := by
  intro p hroom
  refine .of_succ ?_
  refine follows_expect_of_ne hroom (by decide) fun _ q hroom₁ => ?_
  refine (argumentsOpen_follows hnested hbound hroom₁).bind fun es q hq _ => ?_
  exact (follows_expect _ _ hq).bind fun _ _ hq _ => follows_pure _ hq

theorem calls_follows {callee : Expr} (hnested : FollowsWithin c limit expression nested)
    (hbound : bound ≤ limit) :
    FollowsWithin c bound (calls · callee) (Parser.callTail nested bound callee) := by
  refine follows_loop (x := calls) (y := Parser.callTail nested) ?_ (fun _ _ => rfl) ?_ hbound
  · intro clock callee p hp hend
    rw [calls, outcome_bind_of_ok (outcome_kind hp), hend]
    rfl
  · intro n callee p hn hroom ih
    refine follows_kind hroom.inside ?_
    generalize (c.skip p).kind = kind
    cases kind with
    | openParen =>
      have harguments := arguments_follows hnested (Nat.le_of_lt hn) hroom
      exact harguments.bind_consuming hroom fun es q hroom₁ => ih _ hroom₁
    | _ => exact follows_pure _ hroom.inside

theorem callOf_follows (callee : Expr) (hnested : FollowsWithin c limit expression nested) :
    FollowsWithin c (limit + 1) (callOf callee) (Parser.callOf callee limit nested) := by
  intro p hroom
  have harguments := arguments_follows hnested (Nat.le_refl _) hroom
  refine harguments.bind_consuming hroom fun es q hroom₁ => ?_
  exact calls_follows hnested (Nat.le_refl _) hroom₁

theorem call_follows (hnested : FollowsWithin c limit expression nested) :
    FollowsWithin c (limit + 1) call (Parser.call limit nested) := by
  intro p hroom
  refine .of_succ ?_
  refine (member_follows hnested hroom).bind_consuming hroom fun callee q hroom₁ => ?_
  exact calls_follows hnested (Nat.le_refl _) hroom₁

/-! ## Products and sums -/

theorem Chain.op?_endOfInput (level : Chain) : level.op? .endOfInput = none := by
  cases level <;> rfl

theorem operations_follows {level : Chain} {left : Expr} {run : Parser Expr} [Parser.Forward run]
    (hoperand : FollowsWithin c limit (operand level) run) (hbound : bound ≤ limit) :
    FollowsWithin c bound (operations level · left)
      (Parser.binaryTail level.op? run bound left) := by
  refine follows_loop (x := operations level) (y := Parser.binaryTail level.op? run)
    ?_ (fun _ _ => rfl) ?_ hbound
  · intro clock left p hp hend
    rw [operations, outcome_bind_of_ok (outcome_kind hp), hend, level.op?_endOfInput]
    rfl
  · intro n left p hn hroom ih
    refine follows_kind hroom.inside ?_
    generalize hfound : level.op? (c.skip p).kind = found
    cases found with
    | some op =>
      have hkind : (c.skip p).kind ≠ .endOfInput := by
        intro hend
        rw [hend, level.op?_endOfInput] at hfound
        cases hfound
      refine follows_advance_of_kind hroom rfl hkind fun _ q hroom₁ => ?_
      have hright := hoperand (hroom₁.mono (Nat.le_of_lt hn))
      exact hright.bind_room hroom₁ fun right r hroom₂ => ih _ hroom₂
    | none => exact follows_pure _ hroom.inside

/-- A chain follows its reader if its operands do. -/
theorem chain_follows {level : Chain} {run : Parser Expr} [Parser.Consuming run]
    (hoperand : FollowsWithin c (limit + 1) (operand level) run) :
    FollowsWithin c (limit + 1) (chain level) (run >>= Parser.binaryTail level.op? run limit) := by
  intro p hroom
  refine .of_succ ?_
  refine (hoperand hroom).bind_consuming hroom fun left q hroom₁ => ?_
  exact operations_follows hoperand (Nat.le_succ _) hroom₁

instance (level : Chain) (n : Nat) : Parser.Consuming (level.reader n nested) := by
  cases level <;> (unfold Chain.reader; infer_instance)

theorem operand_follows (level : Chain) (hnested : FollowsWithin c limit expression nested) :
    FollowsWithin c (limit + 1) (operand level) (level.reader limit nested) := by
  have hproducts : FollowsWithin c (limit + 1) (operand .products) (Parser.call limit nested) :=
    fun p hroom => .of_succ (call_follows hnested hroom)
  cases level with
  | products => exact hproducts
  | sums => exact fun p hroom => .of_succ (chain_follows hproducts hroom)

theorem additive_follows (hnested : FollowsWithin c limit expression nested) :
    FollowsWithin c (limit + 1) (chain .sums) (Parser.additive limit nested) :=
  chain_follows (operand_follows .sums hnested)

theorem multiplicative_follows (hnested : FollowsWithin c limit expression nested) :
    FollowsWithin c (limit + 1) (chain .products) (Parser.multiplicative limit nested) :=
  chain_follows (operand_follows .products hnested)

/-! ## Object literals and assignments -/

theorem properties_follows (hnested : FollowsWithin c limit expression nested)
    (hbound : bound ≤ limit) :
    FollowsWithin c bound properties (Parser.properties nested bound) := by
  refine follows_loop (s := ()) (x := fun clock _ => properties clock)
    (y := fun n _ => Parser.properties nested n) ?_ (fun _ _ => rfl) ?_ hbound
  · intro clock _ p hp hend
    rw [properties, outcome_bind_of_ok (outcome_kind hp), hend]
    rfl
  · intro n _ p hn hroom ih
    refine follows_kind hroom.inside ?_
    generalize hkind : (c.skip p).kind = kind
    cases kind with
    | closeCurly | endOfInput => exact follows_pure _ hroom.inside
    | identifier =>
      refine follows_expect_of_ne hroom (by decide) fun key q hroom₁ => ?_
      refine follows_kind hroom₁.inside ?_
      generalize hnext : (c.skip q).kind = next
      cases next with
      | comma =>
        refine (follows_advance hroom₁.inside).bind_room hroom₁ fun _ r hroom₂ => ?_
        exact (ih () hroom₂).bind fun others _ hq _ => follows_pure _ hq
      | closeCurly => exact follows_pure _ hroom₁.inside
      | colon =>
        refine (follows_expect _ _ hroom₁.inside).bind_room hroom₁ fun _ r hroom₂ => ?_
        have hvalue := hnested (hroom₂.mono (Nat.le_of_lt hn))
        refine hvalue.bind_room hroom₂ fun value r hroom₃ => ?_
        refine follows_kind hroom₃.inside ?_
        generalize hlast : (c.skip r).kind = last
        cases last with
        | closeCurly => exact follows_pure _ hroom₃.inside
        | comma =>
          refine (follows_expect _ _ hroom₃.inside).bind_room hroom₃ fun _ r hroom₄ => ?_
          exact (ih () hroom₄).bind fun others _ hq _ => follows_pure _ hq
        | _ => exact follows_expect_refused hroom₃.inside (by rw [hlast]; decide)
      | _ => exact follows_expect_refused hroom₁.inside (by rw [hnext]; decide)
    | _ => exact follows_expect_refused hroom.inside (by rw [hkind]; decide)

theorem object_follows (hnested : FollowsWithin c limit expression nested) :
    FollowsWithin c (limit + 1) object (Parser.object limit nested) := by
  intro p hroom
  refine .of_succ ?_
  refine follows_kind hroom.inside ?_
  generalize hkind : (c.skip p).kind = kind
  cases kind with
  | openCurly =>
    refine follows_advance_of_kind hroom hkind (by decide) fun _ q hroom₁ => ?_
    refine (properties_follows hnested (Nat.le_refl _) hroom₁).bind fun ps q hq _ => ?_
    exact (follows_expect _ _ hq).bind fun _ _ hq _ => follows_pure _ hq
  | _ => exact additive_follows hnested hroom

theorem assignment_follows (hnested : FollowsWithin c limit expression nested) :
    FollowsWithin c (limit + 1) assignment (Parser.assignment limit nested) := by
  intro p hroom
  refine .of_succ ?_
  refine (object_follows hnested hroom).bind_consuming hroom fun target q hroom₁ => ?_
  refine follows_kind hroom₁.inside ?_
  generalize (c.skip q).kind = kind
  cases kind with
  | assignment =>
    refine (follows_advance hroom₁.inside).bind_room hroom₁ fun _ r hroom₂ => ?_
    exact (hnested hroom₂).bind fun value _ hq _ => follows_pure _ hq
  | _ => exact follows_pure _ hroom₁.inside

end

/-! ## Closing the recursion -/

section

variable {c : Cursor} {p : Nat}

/-- No expression starts at the end of the input. -/
theorem expression_ends_of_end (hp : p < c.remaining.length)
    (hend : (c.skip p).kind = .endOfInput) :
    Ends expression c.remaining p (.error (.failure
      ⟨.unrecognisedPrimary (c.skip p).current.describe, (c.skip p).position⟩)) p := by
  let refused : Except Stop Expr := .error (.failure
    ⟨.unrecognisedPrimary (c.skip p).current.describe, (c.skip p).position⟩)
  have hprimary : Ends primary c.remaining p refused p := by
    have hkind : (c.skip p).current.kind = .endOfInput := hend
    refine .of_succ ((ends_of_outcome (outcome_current hp)).bind_of_ok ?_)
    rw [hkind]
    exact ends_of_outcome (outcome_bind_of_ok (outcome_current hp))
  have hmember : Ends member c.remaining p refused p := .of_succ hprimary.bind_of_error
  have hcall : Ends call c.remaining p refused p := .of_succ hmember.bind_of_error
  have hfactor : Ends (operand .products) c.remaining p refused p := .of_succ hcall
  have hproduct : Ends (chain .products) c.remaining p refused p := .of_succ hfactor.bind_of_error
  have hterm : Ends (operand .sums) c.remaining p refused p := .of_succ hproduct
  have hsum : Ends (chain .sums) c.remaining p refused p := .of_succ hterm.bind_of_error
  have hobject : Ends object c.remaining p refused p := by
    refine .of_succ ((ends_of_outcome (outcome_kind hp)).bind_of_ok ?_)
    rw [hend]
    exact hsum
  have hassignment : Ends assignment c.remaining p refused p := .of_succ hobject.bind_of_error
  exact .of_succ hassignment

theorem expression_follows_within (c : Cursor) (limit : Nat) :
    FollowsWithin c limit expression (Parser.exprWithin limit) := by
  refine follows_rounds (s := ()) (x := fun clock _ => expression clock)
    (y := fun n _ => Parser.exprWithin n) ?_ ?_ (Nat.le_refl limit)
  · intro _ p hp hend
    exact .error hp (Parser.exprWithin_of_end hend) (expression_ends_of_end hp hend)
  · intro n _ p _ hroom ih
    exact .of_succ (assignment_follows (ih ()) hroom)

/-- A level that takes its bounds from the tokens left needs no room. -/
theorem bounded_follows {α : Type} {walk : Nat → Walk α} {l : Nat → Parser Expr → Parser α}
    (hlevel : ∀ n, FollowsWithin c n walk (l n (Parser.exprWithin n)))
    (hp : p < c.remaining.length) : Follows c walk (Parser.bounded l) p := by
  have hroom : Room c (c.skip p).rest.length p := ⟨hp, Nat.le_refl _⟩
  exact (hlevel _ hroom).of_eq rfl

theorem expression_follows (hp : p < c.remaining.length) :
    Follows c expression Parser.expression p := by
  refine .of_succ (bounded_follows (fun n => ?_) hp)
  exact (assignment_follows (expression_follows_within c n)).mono (Nat.le_succ n)

end

end Scriptlet.Walk
