import Mathlib
import Scriptlet.Proofs.Program.Lockstep
import Scriptlet.Proofs.Walk.Expr

/-!
# Walks over programs

The readers of statements and programs as walks.  From every place of a list they follow their
readers (`statement_follows`, `declaration_follows`, `program_follows`).
-/

namespace Scriptlet.Walk

open Scriptlet.Parser (Heading endsBody endsProgram parameterNames)
open Token (Kind)

/-! ## The walks -/

/-- Whether the token at the place starts a function declaration. -/
def startsFunction (mode : Detection) : Walk Bool := do
  let tokens ← remaining
  return mode.detects tokens

/-- A name bound to a value.  The first token is consumed whatever it is. -/
def binding (clock : Nat) : Walk Stmt := do
  let word ← advance
  let name ← expect .identifier ("expected a name after `" ++ word.value ++ "`")
  let next ← current
  match next.kind, word.kind with
  | .endOfInput, .constWord => fail (.missingConstInitializer name.value) next.span.start
  | .endOfInput, _ => return .binding name.value false none
  | _, wordKind =>
      let _ ← expect .assignment ("expected `=` after `" ++ name.value ++ "`")
      let value ← expression clock
      return .binding name.value (wordKind = .constWord) (some value)

/-- The word `async`, if it comes first. -/
def asyncModifier : Walk Bool := do
  let first ← current
  if Detection.isAsyncWord first.terminal then
    let _ ← advance
    return true
  else return false

/-- The part of a function declaration up to the brace that opens its body. -/
def heading (clock : Nat) : Walk Heading := do
  let isAsync ← asyncModifier
  let name ← expect .identifier
    "expected a function name, shaped like name(parameters) \x7b ... \x7d"
  let opening ← current
  let parameters ← arguments clock
  match parameterNames parameters with
  | .error form => fail (.nonIdentifierParameter name.value form) opening.span.start
  | .ok parameters =>
      let _ ← expect .openCurly ("expected `\x7b` to open the body of `" ++ name.value ++ "`")
      return ⟨isAsync, name.value, parameters⟩

mutual

/-- The statements up to a token that ends them. -/
def statements (mode : Detection) (ends : Kind → Bool) : Nat → Walk (List Stmt)
  | 0 => spent
  | clock + 1 => do
      if ends (← kind) then return []
      else
        let first ← statement mode clock
        let others ← statements mode ends clock
        return first :: others

/-- A function declaration. -/
def declaration (mode : Detection) : Nat → Walk Stmt
  | 0 => spent
  | clock + 1 => do
      let head ← heading clock
      let body ← statements mode endsBody clock
      let _ ← expect .closeCurly ("expected `\x7d` to close the body of `" ++ head.name ++ "`")
      return .function head.name head.parameters head.isAsync body

/-- A statement. -/
def statement (mode : Detection) : Nat → Walk Stmt
  | 0 => spent
  | clock + 1 => do
      if ← startsFunction mode then declaration mode clock
      else
        match ← kind with
        | .letWord | .constWord => binding clock
        | _ =>
            let expr ← expression clock
            return .expression expr

end

/-- A whole program. -/
def program (mode : Detection) (clock : Nat) : Walk Program := do
  let body ← statements mode endsProgram clock
  return ⟨body⟩

section

variable {c : Cursor} {p limit bound : Nat} {mode : Detection} {inner : Parser Stmt}

/-! ## Bindings and headings -/

theorem outcome_startsFunction (hp : p < c.remaining.length) :
    (startsFunction mode).outcome c.remaining p =
      some (.ok (mode.detects (c.skip p).remaining), p) :=
  outcome_bind_of_ok (outcome_remaining hp)

theorem binding_follows (hp : p < c.remaining.length) : Follows c binding Parser.binding p := by
  refine (follows_advance hp).bind fun word q hq _ => ?_
  refine (follows_expect _ _ hq).bind fun name r hr _ => ?_
  refine follows_current hr ?_
  generalize (c.skip r).current.kind = next
  generalize word.kind = wordKind
  cases next with
  | endOfInput =>
    cases wordKind with
    | constWord => exact follows_fail _ _ hr
    | _ => exact follows_pure _ hr
  | _ =>
    refine (follows_expect _ _ hr).bind fun _ i hi _ => ?_
    exact (expression_follows hi).bind fun value _ hj _ => follows_pure _ hj

theorem asyncModifier_follows (hp : p < c.remaining.length) :
    Follows c (fun _ => asyncModifier) Parser.asyncModifier p := by
  refine follows_current hp ?_
  by_cases hasync : Detection.isAsyncWord (c.skip p).current.terminal
  · simp only [hasync, if_true]
    exact (follows_advance hp).bind fun _ _ hq _ => follows_pure _ hq
  · simp only [hasync]
    exact follows_pure _ hp

theorem heading_follows (hp : p < c.remaining.length) : Follows c heading Parser.heading p := by
  refine (asyncModifier_follows hp).bind fun isAsync q hq _ => ?_
  refine (follows_expect _ _ hq).bind fun name r hr _ => ?_
  refine follows_current hr ?_
  have harguments : Follows c arguments (Parser.bounded Parser.arguments) r := by
    refine bounded_follows (fun n => ?_) hr
    have hnested := expression_follows_within c n
    exact (arguments_follows hnested (Nat.le_refl n)).mono (Nat.le_succ n)
  refine harguments.bind fun parameters i hi _ => ?_
  cases parameterNames parameters with
  | error form => exact follows_fail _ _ hi
  | ok names => exact (follows_expect _ _ hi).bind fun _ _ hj _ => follows_pure _ hj

/-! ## Statements -/

theorem statements_follows [Parser.Consuming inner] {ends : Kind → Bool}
    (hends : ends .endOfInput) (hinner : FollowsWithin c limit (statement mode) inner)
    (hbound : bound ≤ limit) :
    FollowsWithin c bound (statements mode ends) (Parser.statements ends inner bound) := by
  refine follows_loop (s := ()) (x := fun clock _ => statements mode ends clock)
    (y := fun n _ => Parser.statements ends inner n) ?_ (fun _ _ => rfl) ?_ hbound
  · intro clock _ p hp hend
    rw [statements, outcome_bind_of_ok (outcome_kind hp), hend, if_pos hends]
    rfl
  · intro n _ p hn hroom ih
    refine follows_kind hroom.inside ?_
    by_cases hstop : ends (c.skip p).kind
    · simp only [hstop, if_true]
      exact follows_pure _ hroom.inside
    · simp only [hstop]
      have hfirst := hinner (hroom.mono hn)
      refine hfirst.bind_consuming hroom fun first q hroom₁ => ?_
      exact (ih () hroom₁).bind fun others _ hq _ => follows_pure _ hq

theorem function_follows [Parser.Consuming inner]
    (hinner : FollowsWithin c limit (statement mode) inner) :
    FollowsWithin c (limit + 1) (declaration mode) (Parser.function limit inner) := by
  intro p hroom
  refine .of_succ ?_
  refine (heading_follows hroom.inside).bind_consuming hroom fun head q hroom₁ => ?_
  refine (statements_follows rfl hinner (Nat.le_refl _) hroom₁).bind fun body r hr _ => ?_
  exact (follows_expect _ _ hr).bind fun _ _ hq _ => follows_pure _ hq

theorem statementOver_follows [Parser.Consuming inner]
    (hinner : FollowsWithin c limit (statement mode) inner) :
    FollowsWithin c (limit + 1) (statement mode) (Parser.statementOver mode limit inner) := by
  intro p hroom
  refine .of_succ (.after (ends_of_outcome (outcome_startsFunction hroom.inside)) rfl ?_)
  by_cases hdetected : mode.detects (c.skip p).remaining
  · simp only [hdetected, if_true]
    exact function_follows hinner hroom
  · simp only [hdetected]
    refine follows_kind hroom.inside ?_
    generalize (c.skip p).kind = kind
    cases kind with
    | letWord | constWord => exact binding_follows hroom.inside
    | _ =>
      exact (expression_follows hroom.inside).bind fun e _ hq _ => follows_pure _ hq

end

/-! ## Closing the recursion -/

section

variable {c : Cursor} {p : Nat} {mode : Detection}

/-- No statement starts at the end of the input. -/
theorem statement_ends_of_end (hp : p < c.remaining.length)
    (hend : (c.skip p).kind = .endOfInput) :
    Ends (statement mode) c.remaining p (.error (.failure
      ⟨.unrecognisedPrimary (c.skip p).current.describe, (c.skip p).position⟩)) p := by
  have hdetects : mode.detects (c.skip p).remaining = false := by
    rw [Detection.detects_remaining]
    cases hfound : mode.recognises (c.skip p).terminals with
    | false => rfl
    | true =>
      have hname := Detection.headKind_of_recognises hfound
      rw [← Cursor.kind_eq_headKind, hend] at hname
      cases hname
  refine .of_succ ((ends_of_outcome (outcome_startsFunction hp)).bind_of_ok ?_)
  rw [hdetects]
  refine (ends_of_outcome (outcome_kind hp)).bind_of_ok ?_
  rw [hend]
  exact (expression_ends_of_end hp hend).bind_of_error

theorem statement_follows_within (mode : Detection) (c : Cursor) (limit : Nat) :
    FollowsWithin c limit (statement mode) (Parser.statementWithin mode limit) := by
  refine follows_rounds (s := ()) (x := fun clock _ => statement mode clock)
    (y := fun n _ => Parser.statementWithin mode n) ?_ ?_ (Nat.le_refl limit)
  · intro _ p hp hend
    exact .error hp (Parser.statementWithin_of_end hend) (statement_ends_of_end hp hend)
  · intro n _ p _ hroom ih
    exact statementOver_follows (ih ()) hroom

/-- A part of a program that takes its bounds from the tokens left needs no room. -/
theorem boundedOver_follows {α : Type} {walk : Nat → Walk α} {l : Nat → Parser Stmt → Parser α}
    (hpart : ∀ n, FollowsWithin c n walk (l n (Parser.statementWithin mode n)))
    (hp : p < c.remaining.length) : Follows c walk (Parser.boundedOver mode l) p := by
  have hroom : Room c (c.skip p).rest.length p := ⟨hp, Nat.le_refl _⟩
  exact (hpart _ hroom).of_eq rfl

theorem statement_follows (hp : p < c.remaining.length) :
    Follows c (statement mode) (Parser.statement mode) p := by
  refine boundedOver_follows (fun n => ?_) hp
  exact (statementOver_follows (statement_follows_within mode c n)).mono (Nat.le_succ n)

theorem declaration_follows (hp : p < c.remaining.length) :
    Follows c (declaration mode) (Parser.declaration mode) p := by
  refine boundedOver_follows (fun n => ?_) hp
  exact (function_follows (statement_follows_within mode c n)).mono (Nat.le_succ n)

theorem program_follows (hp : p < c.remaining.length) :
    Follows c (program mode) (Parser.program mode) p := by
  have hbody : Follows c (statements mode endsProgram)
      (Parser.boundedOver mode fun n statement => Parser.statements endsProgram statement n) p :=
    boundedOver_follows (fun n => statements_follows rfl (statement_follows_within mode c n)
      (Nat.le_refl n)) hp
  exact hbody.bind fun body _ hq _ => follows_pure _ hq

end

end Scriptlet.Walk
