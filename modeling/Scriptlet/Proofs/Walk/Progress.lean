import Mathlib
import Scriptlet.Proofs.Walk.Program

/-!
# The readers end ahead

Every reader of the language may be started on its own, at any token of a list, and so may the
loops of the readers, whatever they carry along.  `Parser.Routine` lists them, each as the parser
that is run and as a walk.

A routine always ends, and where it returns a result it has moved on by at least as many tokens
as its shortest text has (`Routine.ends_ahead`).
-/

namespace Scriptlet

/-- A cursor at a place of a list has this index there. -/
theorem Cursor.index_skip {c : Cursor} {p : Nat} (hp : p < c.remaining.length) :
    (c.skip p).index c.remaining.length = p := by
  rw [length_remaining] at hp
  rw [index, length_remaining, rest_skip, List.length_drop]
  omega

namespace Parser

variable {α β : Type}

/-- A run ends only once. -/
theorem Ends.unique {parser : Parser α} {c c₁ c₂ : Cursor} {r₁ r₂ : Except Diagnostic α}
    (h₁ : Ends parser c r₁ c₁) (h₂ : Ends parser c r₂ c₂) : r₁ = r₂ ∧ c₁ = c₂ := by
  cases h₁ with
  | ok hrun₁ =>
    cases h₂ with
    | ok hrun₂ =>
      cases hrun₁.symm.trans hrun₂
      exact ⟨rfl, rfl⟩
    | error hrun₂ => cases hrun₁.symm.trans hrun₂
  | error hrun₁ =>
    cases h₂ with
    | ok hrun₂ => cases hrun₁.symm.trans hrun₂
    | error hrun₂ =>
      cases hrun₁.symm.trans hrun₂
      exact ⟨rfl, rfl⟩

/-! ## Counting the tokens of a result -/

/-- A run that returns a result leaves at least so many tokens fewer. -/
def Takes (count : Nat) (parser : Parser α) : Prop :=
  ∀ ⦃c c' : Cursor⦄ ⦃a : α⦄, parser c = .ok a c' → c'.rest.length + count ≤ c.rest.length

theorem Forward.takes {parser : Parser α} [F : Forward parser] : Takes 0 parser :=
  fun _ _ _ h => F.length_le h

theorem Consuming.takes {parser : Parser α} [F : Consuming parser] : Takes 1 parser :=
  fun _ _ _ h => F.length_lt h

theorem takes_expect (expected : Token.Kind) (message : String) (h : expected ≠ .endOfInput) :
    Takes 1 (expect expected message) :=
  (consuming_expect expected message h).takes

/-- What never returns a result takes any count of tokens for it. -/
theorem takes_fail {count : Nat} {cause : Cause} {position : Position} :
    Takes count (fail cause position : Parser α) :=
  fun _ _ _ h => absurd h fail_ne_ok

/-- The parts of a reader take their tokens one after the other. -/
theorem Takes.bind {m n : Nat} {x : Parser α} {f : α → Parser β} (hx : Takes m x)
    (hf : ∀ a, Takes n (f a)) : Takes (m + n) (x >>= f) := by
  intro c c' b h
  obtain ⟨a, c₁, hrun, hrest⟩ := bind_eq_ok_iff.1 h
  have hfirst := hx hrun
  have hothers := hf a hrest
  omega

/-- From one place to another a run comes as far as it takes tokens. -/
theorem Takes.add_le {count : Nat} {parser : Parser α} (h : Takes count parser) {c : Cursor}
    {a : α} {p q : Nat} (hp : p < c.remaining.length) (hq : q < c.remaining.length)
    (hrun : parser (c.skip p) = .ok a (c.skip q)) : p + count ≤ q := by
  have hlen := h hrun
  rw [Cursor.length_remaining] at hp hq
  rw [Cursor.rest_skip, Cursor.rest_skip, List.length_drop, List.length_drop] at hlen
  omega

theorem takes_bounded {count : Nat} {l : Nat → Parser Expr → Parser α}
    (h : ∀ n, Takes count (l n (exprWithin n))) : Takes count (bounded l) :=
  fun _ _ _ hrun => h _ hrun

theorem takes_boundedOver {count : Nat} {mode : Detection} {l : Nat → Parser Stmt → Parser α}
    (h : ∀ n, Takes count (l n (statementWithin mode n))) : Takes count (boundedOver mode l) :=
  fun _ _ _ hrun => h _ hrun

/-- Arguments have two parentheses. -/
theorem takes_arguments {bound : Nat} {nested : Parser Expr} [Forward nested] :
    Takes 2 (arguments bound nested) := by
  have hopen := takes_expect .openParen "missing `(`" (by decide)
  have hclose := takes_expect .closeParen "missing `)`" (by decide)
  exact hopen.bind fun _ => Forward.takes.bind fun _ => hclose.bind fun _ => Forward.takes

theorem takes_callOf {callee : Expr} {bound : Nat} {nested : Parser Expr} [Forward nested] :
    Takes 2 (callOf callee bound nested) :=
  takes_arguments.bind fun _ => Forward.takes

/-- A binding has a word and a name.  At the end of the input the word is missing, and then the
name is, too. -/
theorem takes_binding : Takes 2 binding := by
  intro c c' s h
  obtain ⟨word, c₁, hstep, hrest⟩ := bind_eq_ok_iff.1 h
  obtain ⟨_, rfl⟩ := advance_eq_ok_iff.1 hstep
  have hname := takes_expect .identifier
    ("expected a name after `" ++ word.value ++ "`") (by decide)
  have hbehind := hname.bind (fun name => Forward.takes (F := .bind fun next => by
    split <;> infer_instance)) hrest
  have hlen : c.advance.rest.length = c.rest.length - 1 := List.length_tail
  omega

/-- Before its body a declaration has a name, two parentheses and a brace. -/
theorem takes_heading : Takes 4 heading := by
  have hname := takes_expect .identifier
    "expected a function name, shaped like name(parameters) \x7b ... \x7d" (by decide)
  have harguments : Takes 2 (bounded arguments) := takes_bounded fun _ => takes_arguments
  refine Forward.takes.bind fun _ => hname.bind fun name => Forward.takes.bind fun _ =>
    harguments.bind fun parameters => (?_ : Takes 1 _)
  cases parameterNames parameters with
  | error form => exact takes_fail
  | ok names => exact (takes_expect .openCurly _ (by decide)).bind fun _ => Forward.takes

/-- Behind its heading a declaration has another brace. -/
theorem takes_declaration (mode : Detection) : Takes 5 (declaration mode) := by
  have hclose (name : String) := takes_expect .closeCurly
    ("expected `\x7d` to close the body of `" ++ name ++ "`") (by decide)
  refine takes_boundedOver fun n => ?_
  exact takes_heading.bind fun head => Forward.takes.bind fun _ =>
    (hclose head.name).bind fun _ => Forward.takes

/-! ## Routines -/

/-- The readers of the language and their loops. -/
inductive Routine : Type → Type 1 where
  /-- A level of expressions. -/
  | level {α : Type} (entry : Entry α) : Routine α
  /-- A name bound to a value. -/
  | binding : Routine Stmt
  /-- A function declaration. -/
  | declaration (mode : Detection) : Routine Stmt
  /-- A statement. -/
  | statement (mode : Detection) : Routine Stmt
  /-- The statements up to the end of the input. -/
  | program (mode : Detection) : Routine Program
  /-- The statements up to the end of a body. -/
  | body (mode : Detection) : Routine (List Stmt)
  /-- The accesses that follow an owner. -/
  | accesses (owner : Expr) : Routine Expr
  /-- The calls that follow a callee. -/
  | calls (callee : Expr) : Routine Expr
  /-- The arguments that follow the first one. -/
  | furtherArguments : Routine (List Expr)
  /-- The operations that follow a left operand. -/
  | operations (chain : Walk.Chain) (left : Expr) : Routine Expr
  /-- The properties before a closing brace. -/
  | properties : Routine (List Property)

namespace Routine

/-- The parser of a routine. -/
def run {α : Type} : Routine α → Parser α
  | .level entry => entry.run
  | .binding => Parser.binding
  | .declaration mode => Parser.declaration mode
  | .statement mode => Parser.statement mode
  | .program mode => Parser.program mode
  | .body mode => boundedOver mode fun bound statement => statements endsBody statement bound
  | .accesses owner => bounded fun bound nested => memberTail nested bound owner
  | .calls callee => bounded fun bound nested => callTail nested bound callee
  | .furtherArguments => bounded fun bound nested => argumentsTail nested bound
  | .operations chain left =>
      bounded fun bound nested => binaryTail chain.op? (chain.reader bound nested) bound left
  | .properties => bounded fun bound nested => Parser.properties nested bound

end Routine

/-- The walk of a level of expressions. -/
def Entry.walk {α : Type} : Entry α → Nat → Walk α
  | .expression => Walk.expression
  | .assignment => Walk.assignment
  | .object => Walk.object
  | .additive => Walk.chain .sums
  | .multiplicative => Walk.chain .products
  | .call => Walk.call
  | .callOf callee => Walk.callOf callee
  | .arguments => Walk.arguments
  | .member => Walk.member
  | .primary => Walk.primary

/-- How many tokens the shortest text of a level has. -/
def Entry.least {α : Type} : Entry α → Nat
  | .arguments | .callOf _ => 2
  | _ => 1

namespace Routine

/-- The walk of a routine. -/
def walk {α : Type} : Routine α → Nat → Walk α
  | .level entry => entry.walk
  | .binding => Walk.binding
  | .declaration mode => Walk.declaration mode
  | .statement mode => Walk.statement mode
  | .program mode => Walk.program mode
  | .body mode => Walk.statements mode endsBody
  | .accesses owner => (Walk.accesses · owner)
  | .calls callee => (Walk.calls · callee)
  | .furtherArguments => Walk.furtherArguments
  | .operations chain left => (Walk.operations chain · left)
  | .properties => Walk.properties

/-- How many tokens the shortest text of a routine has. -/
def least {α : Type} : Routine α → Nat
  | .level entry => entry.least
  | .binding => 2
  | .declaration _ => 5
  | .statement _ => 1
  | _ => 0

instance (routine : Routine α) : Forward routine.run := by
  cases routine <;> (unfold run; infer_instance)

end Routine

theorem Entry.takes (entry : Entry α) : Takes entry.least entry.run := by
  cases entry with
  | expression => exact (Consuming.takes : Takes 1 Parser.expression)
  | primary => exact takes_bounded (l := fun _ => Parser.primary) fun _ => Consuming.takes
  | arguments => exact takes_bounded fun _ => takes_arguments
  | callOf callee => exact takes_bounded fun _ => takes_callOf
  | _ => exact takes_bounded fun _ => Consuming.takes

theorem Routine.takes (routine : Routine α) : Takes routine.least routine.run := by
  cases routine with
  | level entry => exact entry.takes
  | binding => exact takes_binding
  | declaration mode => exact takes_declaration mode
  | statement mode => exact takes_boundedOver fun _ => Consuming.takes
  | _ => exact Forward.takes (F := inferInstance)

/-- The walk of a level comes out as its parser. -/
theorem Entry.follows (entry : Entry α) {c : Cursor} {p : Nat} (hp : p < c.remaining.length) :
    Walk.Follows c entry.walk entry.run p := by
  have hnested := Walk.expression_follows_within c
  cases entry with
  | expression => exact Walk.expression_follows hp
  | assignment =>
    exact Walk.bounded_follows (fun n => (Walk.assignment_follows (hnested n)).mono n.le_succ) hp
  | object =>
    exact Walk.bounded_follows (fun n => (Walk.object_follows (hnested n)).mono n.le_succ) hp
  | additive =>
    exact Walk.bounded_follows (fun n => (Walk.additive_follows (hnested n)).mono n.le_succ) hp
  | multiplicative =>
    refine Walk.bounded_follows (fun n => ?_) hp
    exact (Walk.multiplicative_follows (hnested n)).mono n.le_succ
  | call =>
    exact Walk.bounded_follows (fun n => (Walk.call_follows (hnested n)).mono n.le_succ) hp
  | callOf callee =>
    refine Walk.bounded_follows (fun n => ?_) hp
    exact (Walk.callOf_follows callee (hnested n)).mono n.le_succ
  | arguments =>
    refine Walk.bounded_follows (fun n => ?_) hp
    exact (Walk.arguments_follows (hnested n) n.le_refl).mono n.le_succ
  | member =>
    exact Walk.bounded_follows (fun n => (Walk.member_follows (hnested n)).mono n.le_succ) hp
  | primary =>
    exact Walk.bounded_follows (fun n => (Walk.primary_follows (hnested n)).mono n.le_succ) hp

/-- The walk of a routine comes out as its parser. -/
theorem Routine.follows (routine : Routine α) {c : Cursor} {p : Nat}
    (hp : p < c.remaining.length) : Walk.Follows c routine.walk routine.run p := by
  have hnested := Walk.expression_follows_within c
  cases routine with
  | level entry => exact entry.follows hp
  | binding => exact Walk.binding_follows hp
  | declaration mode => exact Walk.declaration_follows hp
  | statement mode => exact Walk.statement_follows hp
  | program mode => exact Walk.program_follows hp
  | body mode =>
    have hstatement := Walk.statement_follows_within mode c
    exact Walk.boundedOver_follows (l := fun bound inner => statements endsBody inner bound)
      (fun n => Walk.statements_follows rfl (hstatement n) n.le_refl) hp
  | accesses owner =>
    exact Walk.bounded_follows (l := fun bound nested => memberTail nested bound owner)
      (fun n => Walk.accesses_follows (hnested n) n.le_refl) hp
  | calls callee =>
    exact Walk.bounded_follows (l := fun bound nested => callTail nested bound callee)
      (fun n => Walk.calls_follows (hnested n) n.le_refl) hp
  | furtherArguments =>
    exact Walk.bounded_follows (l := fun bound nested => argumentsTail nested bound)
      (fun n => Walk.furtherArguments_follows (hnested n) n.le_refl) hp
  | operations chain left =>
    have hoperand (n : Nat) := Walk.operand_follows chain (hnested n)
    exact Walk.bounded_follows
      (l := fun bound nested => binaryTail chain.op? (chain.reader bound nested) bound left)
      (fun n => Walk.operations_follows (hoperand n) n.le_succ) hp
  | properties =>
    exact Walk.bounded_follows (l := fun bound nested => Parser.properties nested bound)
      (fun n => Walk.properties_follows (hnested n) n.le_refl) hp

/-! ## Every routine ends -/

/-- Whichever token of a list a reader of the language or one of its loops is started at, it ends:
with a clock that is long enough its walk is not broken off, and ends like the run of its parser.
It ends at a token of the list and not before the one where it started.  With a result it ends at
least so many tokens further on: two for arguments, calls of a callee and bindings, five for
declarations, and one for statements and all other expressions. -/
theorem Routine.ends_ahead (routine : Routine α) {tokens : List Token} {c : Cursor} {p : Nat}
    (hc : Cursor.ofTokens tokens = .ok c) (hp : p < tokens.length) :
    ∃ r q, Walk.Ends routine.walk tokens p (r.mapError .failure) q ∧
      Ends routine.run (c.skip p) r (c.skip q) ∧ p ≤ q ∧ q < tokens.length ∧
      ∀ a, r = .ok a → p + routine.least ≤ q := by
  obtain rfl := Cursor.remaining_of_ofTokens hc
  obtain ⟨r, q, hq, hends, hwalk⟩ := (routine.follows hp).exists_ends
  refine ⟨r, q, hwalk, hends, hends.le_of_skip hp hq, hq, ?_⟩
  rintro a rfl
  cases hends with
  | ok hrun => exact routine.takes.add_le hp hq hrun

/-- A declaration without parameters and with an empty body ends five tokens behind its start.
Without its last brace it ends with a failure at the end mark. -/
theorem Routine.ends_ahead_declaration : ∃ (tokens tokens' : List Token) (c c' : Cursor),
    Cursor.ofTokens tokens = .ok c ∧ Cursor.ofTokens tokens' = .ok c' ∧ tokens.length = 7 ∧
    tokens' = tokens.eraseIdx 5 ∧
    Walk.Ends (Walk.declaration .anchored) tokens 1 (.ok (.function "f" [] false [])) 6 ∧
    1 + (Routine.declaration .anchored).least ≤ 6 ∧
    Walk.Ends (Walk.declaration .anchored) tokens' 1 (.error (.failure
      ⟨.unexpectedToken .closeCurly "end of input" "expected `\x7d` to close the body of `f`",
        .ofNat "" 7⟩)) 5 := by
  let front : List Token := [⟨.identifier, "a", .ofSize "" 0 1⟩, ⟨.identifier, "f", .ofSize "" 2 1⟩,
    ⟨.openParen, "(", .ofSize "" 3 1⟩, ⟨.closeParen, ")", .ofSize "" 4 1⟩,
    ⟨.openCurly, "\x7b", .ofSize "" 5 1⟩]
  let c : Cursor := ⟨front ++ [⟨.closeCurly, "\x7d", .ofSize "" 6 1⟩], Token.endMark "" 7,
    by decide, rfl⟩
  let c' : Cursor := ⟨front, Token.endMark "" 7, by decide, rfl⟩
  have hc := Cursor.ofTokens_remaining c
  have hc' := Cursor.ofTokens_remaining c'
  have hread : Ends (Routine.declaration .anchored).run (c.skip 1)
      (.ok (.function "f" [] false [])) (c.skip 6) := .ok rfl
  have hfails : Ends (Routine.declaration .anchored).run (c'.skip 1)
      (.error ⟨.unexpectedToken .closeCurly "end of input"
        "expected `\x7d` to close the body of `f`", .ofNat "" 7⟩) (c'.skip 5) := .error rfl
  obtain ⟨_, q, hwalk, hends, _, hq, hleast⟩ :=
    (Routine.declaration .anchored).ends_ahead hc (p := 1) (by decide)
  obtain ⟨_, q', hwalk', hends', _, hq', _⟩ :=
    (Routine.declaration .anchored).ends_ahead hc' (p := 1) (by decide)
  obtain ⟨rfl, hplace⟩ := hends.unique hread
  obtain ⟨rfl, hplace'⟩ := hends'.unique hfails
  obtain rfl : q = 6 := by rw [← Cursor.index_skip hq, hplace]; rfl
  obtain rfl : q' = 5 := by rw [← Cursor.index_skip hq', hplace']; rfl
  exact ⟨c.remaining, c'.remaining, c, c', hc, hc', rfl, rfl, hwalk, hleast _ rfl, hwalk'⟩

end Parser

end Scriptlet
