import Scriptlet.Proofs.Expr.Sound

/-!
# What the grammar derives is read

The other direction: where the terminals to come derive an expression, and what
follows cannot go on it, the reader returns that expression and stops behind it
(`expression_complete`).

The rules for accesses, calls and operators lean to the left, while the readers
loop.  So a derivation at one of those levels is not turned into a finished run:
running the level up to the end of the derivation is the same as running its
loop from there, with the expression as what was read so far (`Resumes`).  What
ends the loop is the kind of the next token, and only that is a condition.
-/

namespace Scriptlet.Parser

open Token (Kind)

section

variable {nested : Parser Expr} {c c' c₁ : Cursor}

/-! ## The branches of the readers -/

theorem run_current : current c = .ok c.current c := rfl

theorem run_kind : kind c = .ok c.kind c := rfl

theorem run_advance : advance c = .ok c.current c.advance := rfl

theorem primary_of_identifier (h : c.kind = .identifier) :
    primary nested c = .ok (.identifier c.current.terminal.value) c.advance := by
  have hkind : c.current.kind = .identifier := h
  simp only [primary, bind_of_eq_ok run_current, hkind, bind_of_eq_ok run_advance]
  rfl

theorem primary_of_number {d : Double} (h : c.kind = .number)
    (hd : Numeral.read? c.current.terminal.value.toList = some d) :
    primary nested c = .ok (.number d) c.advance := by
  have hkind : c.current.kind = .number := h
  rw [Token.terminal_value] at hd
  simp only [primary, bind_of_eq_ok run_current, hkind, bind_of_eq_ok run_advance, hd]
  rfl

theorem primary_of_string (h : c.kind = .string) :
    primary nested c = .ok (.string c.current.terminal.value) c.advance := by
  have hkind : c.current.kind = .string := h
  simp only [primary, bind_of_eq_ok run_current, hkind, bind_of_eq_ok run_advance]
  rfl

theorem primary_of_group {e : Expr} (h : c.kind = .openParen)
    (hinner : nested c.advance = .ok e c₁) (hclose : c₁.kind = .closeParen) :
    primary nested c = .ok e c₁.advance := by
  have hkind : c.current.kind = .openParen := h
  simp only [primary, bind_of_eq_ok run_current, hkind, bind_of_eq_ok run_advance,
    bind_of_eq_ok hinner, bind_of_eq_ok (expect_of_kind _ hclose)]
  rfl

theorem memberTail_of_dot {bound : Nat} {owner : Expr} {name : String} (h : c.kind = .dot)
    (hname : primary nested c.advance = .ok (.identifier name) c₁) :
    memberTail nested (bound + 1) owner c =
      memberTail nested bound (.member owner (.identifier name) false) c₁ := by
  simp only [memberTail, bind_of_eq_ok run_kind, h, bind_of_eq_ok run_advance,
    bind_of_eq_ok run_current, bind_of_eq_ok hname, Expr.name?]

theorem memberTail_of_openBracket {bound : Nat} {owner property : Expr}
    (h : c.kind = .openBracket) (hproperty : nested c.advance = .ok property c₁)
    (hclose : c₁.kind = .closeCurly) :
    memberTail nested (bound + 1) owner c =
      memberTail nested bound (.member owner property true) c₁.advance := by
  simp only [memberTail, bind_of_eq_ok run_kind, h, bind_of_eq_ok run_advance,
    bind_of_eq_ok hproperty, bind_of_eq_ok (expect_of_kind _ hclose)]

theorem memberTail_of_not_mem {bound : Nat} {owner : Expr}
    (h : c.kind ∉ Level.extendedBy .member) : memberTail nested bound owner c = .ok owner c := by
  cases bound with
  | zero => rfl
  | succ bound =>
    simp only [memberTail, bind_of_eq_ok run_kind]
    generalize c.kind = kind at h
    split
    · exact absurd h (by decide)
    · exact absurd h (by decide)
    · rfl

theorem argumentsTail_of_comma {bound : Nat} {e : Expr} {es : List Expr} (h : c.kind = .comma)
    (he : nested c.advance = .ok e c₁) (hes : argumentsTail nested bound c₁ = .ok es c') :
    argumentsTail nested (bound + 1) c = .ok (e :: es) c' := by
  simp only [argumentsTail, bind_of_eq_ok run_kind, h, bind_of_eq_ok run_advance,
    bind_of_eq_ok he, bind_of_eq_ok hes]
  rfl

theorem argumentsTail_of_closeParen {bound : Nat} (h : c.kind = .closeParen) :
    argumentsTail nested bound c = .ok [] c := by
  cases bound with
  | zero => rfl
  | succ bound =>
    simp only [argumentsTail, bind_of_eq_ok run_kind, h]
    rfl

theorem argumentsOpen_of_closeParen {bound : Nat} (h : c.kind = .closeParen) :
    argumentsOpen bound nested c = .ok [] c := by
  simp only [argumentsOpen, bind_of_eq_ok run_kind, h]
  rfl

theorem argumentsOpen_of_ne {bound : Nat} {e : Expr} {es : List Expr} (h : c.kind ≠ .closeParen)
    (he : nested c = .ok e c₁) (hes : argumentsTail nested bound c₁ = .ok es c') :
    argumentsOpen bound nested c = .ok (e :: es) c' := by
  simp only [argumentsOpen, bind_of_eq_ok run_kind, bind_of_eq_ok he, bind_of_eq_ok hes]
  rfl

theorem arguments_of_open {bound : Nat} {es : List Expr} (h : c.kind = .openParen)
    (hes : argumentsOpen bound nested c.advance = .ok es c₁) (hclose : c₁.kind = .closeParen) :
    arguments bound nested c = .ok es c₁.advance := by
  simp only [arguments, bind_of_eq_ok (expect_of_kind _ h), bind_of_eq_ok hes,
    bind_of_eq_ok (expect_of_kind _ hclose)]
  rfl

theorem callTail_of_arguments {bound : Nat} {callee : Expr} {es : List Expr}
    (h : c.kind = .openParen) (hes : arguments bound nested c = .ok es c₁) :
    callTail nested (bound + 1) callee c = callTail nested bound (.call callee es) c₁ := by
  simp only [callTail, bind_of_eq_ok run_kind, h, bind_of_eq_ok hes]

theorem callTail_of_not_mem {bound : Nat} {callee : Expr} (h : c.kind ∉ Level.extendedBy .call) :
    callTail nested bound callee c = .ok callee c := by
  cases bound with
  | zero => rfl
  | succ bound =>
    simp only [callTail, bind_of_eq_ok run_kind]
    generalize c.kind = kind at h
    split
    · exact absurd h (by decide)
    · rfl

theorem binaryTail_of_operator {op? : Kind → Option BinaryOp} {operand : Parser Expr}
    {bound : Nat} {op : BinaryOp} {left right : Expr} (h : op? c.kind = some op)
    (hright : operand c.advance = .ok right c₁) :
    binaryTail op? operand (bound + 1) left c =
      binaryTail op? operand bound (.binary op left right) c₁ := by
  simp only [binaryTail, bind_of_eq_ok run_kind, h, bind_of_eq_ok run_advance,
    bind_of_eq_ok hright]

theorem binaryTail_of_none {op? : Kind → Option BinaryOp} {operand : Parser Expr} {bound : Nat}
    {left : Expr} (h : op? c.kind = none) :
    binaryTail op? operand bound left c = .ok left c := by
  cases bound with
  | zero => rfl
  | succ bound =>
    simp only [binaryTail, bind_of_eq_ok run_kind, h]
    rfl

theorem properties_of_closeCurly {bound : Nat} (h : c.kind = .closeCurly) :
    properties nested bound c = .ok [] c := by
  cases bound with
  | zero => rfl
  | succ bound =>
    simp only [properties, bind_of_eq_ok run_kind, h]
    rfl

theorem properties_of_last_shorthand {bound : Nat} (h : c.kind = .identifier)
    (hclose : c.advance.kind = .closeCurly) :
    properties nested (bound + 1) c = .ok [.shorthand c.current.terminal.value] c.advance := by
  simp only [properties, bind_of_eq_ok run_kind, h, bind_of_eq_ok (expect_of_kind _ h), hclose]
  rfl

theorem properties_of_shorthand {bound : Nat} {ps : List Property} (h : c.kind = .identifier)
    (hcomma : c.advance.kind = .comma)
    (hps : properties nested bound c.advance.advance = .ok ps c') :
    properties nested (bound + 1) c = .ok (.shorthand c.current.terminal.value :: ps) c' := by
  simp only [properties, bind_of_eq_ok run_kind, h, bind_of_eq_ok (expect_of_kind _ h), hcomma,
    bind_of_eq_ok run_advance, bind_of_eq_ok hps]
  rfl

theorem properties_of_last_entry {bound : Nat} {value : Expr} (h : c.kind = .identifier)
    (hcolon : c.advance.kind = .colon) (hvalue : nested c.advance.advance = .ok value c₁)
    (hclose : c₁.kind = .closeCurly) :
    properties nested (bound + 1) c = .ok [.entry c.current.terminal.value value] c₁ := by
  simp only [properties, bind_of_eq_ok run_kind, h, bind_of_eq_ok (expect_of_kind _ h), hcolon,
    bind_of_eq_ok (expect_of_kind _ hcolon), bind_of_eq_ok hvalue, hclose]
  rfl

theorem properties_of_entry {bound : Nat} {value : Expr} {ps : List Property}
    (h : c.kind = .identifier) (hcolon : c.advance.kind = .colon)
    (hvalue : nested c.advance.advance = .ok value c₁) (hcomma : c₁.kind = .comma)
    (hps : properties nested bound c₁.advance = .ok ps c') :
    properties nested (bound + 1) c = .ok (.entry c.current.terminal.value value :: ps) c' := by
  simp only [properties, bind_of_eq_ok run_kind, h, bind_of_eq_ok (expect_of_kind _ h), hcolon,
    bind_of_eq_ok (expect_of_kind _ hcolon), bind_of_eq_ok hvalue, hcomma,
    bind_of_eq_ok (expect_of_kind _ hcomma), bind_of_eq_ok hps]
  rfl

theorem object_of_openCurly {bound : Nat} {ps : List Property} (h : c.kind = .openCurly)
    (hps : properties nested bound c.advance = .ok ps c₁) (hclose : c₁.kind = .closeCurly) :
    object bound nested c = .ok (.object ps) c₁.advance := by
  simp only [object, bind_of_eq_ok run_kind, h, bind_of_eq_ok run_advance, bind_of_eq_ok hps,
    bind_of_eq_ok (expect_of_kind _ hclose)]
  rfl

theorem object_of_ne {bound : Nat} (h : c.kind ≠ .openCurly) :
    object bound nested c = additive bound nested c := by
  simp only [object, bind_of_eq_ok run_kind]

theorem assignment_of_assignment {bound : Nat} {target value : Expr}
    (htarget : object bound nested c = .ok target c₁) (h : c₁.kind = .assignment)
    (hvalue : nested c₁.advance = .ok value c') :
    assignment bound nested c = .ok (.assignment target value) c' := by
  simp only [assignment, bind_of_eq_ok htarget, bind_of_eq_ok run_kind, h,
    bind_of_eq_ok run_advance, bind_of_eq_ok hvalue]
  rfl

theorem assignment_of_ne {bound : Nat} {target : Expr}
    (htarget : object bound nested c = .ok target c₁) (h : c₁.kind ≠ .assignment) :
    assignment bound nested c = .ok target c₁ := by
  simp only [assignment, bind_of_eq_ok htarget, bind_of_eq_ok run_kind]
  rfl

end

/-! ## The levels and their loops -/

/-- The reader of a level. -/
def reader (limit : Nat) : Level → Parser Expr
  | .primary => primary (exprWithin limit)
  | .member => member limit (exprWithin limit)
  | .call => call limit (exprWithin limit)
  | .multiplicative => multiplicative limit (exprWithin limit)
  | .additive => additive limit (exprWithin limit)
  | .object => object limit (exprWithin limit)
  | .assignment => assignment limit (exprWithin limit)

/-- The loop of a level, from an expression read so far.  Three levels have
none. -/
def loop (limit : Nat) : Level → Nat → Expr → Parser Expr
  | .member => memberTail (exprWithin limit)
  | .call => callTail (exprWithin limit)
  | .multiplicative => binaryTail productOp? (reader limit .call)
  | .additive => binaryTail sumOp? (reader limit .multiplicative)
  | .primary | .object | .assignment => fun _ e => pure e

/-- A level that has a loop reads a tighter expression and goes round it. -/
theorem reader_eq_loop {limit : Nat} {level : Level} {c c' : Cursor} {e : Expr}
    (hlevel : level.extendedBy ≠ []) (hassignment : level ≠ .assignment)
    (h : reader limit level.tighter c = .ok e c') :
    reader limit level c = loop limit level limit e c' := by
  cases level with
  | assignment => exact absurd rfl hassignment
  | object | primary => exact absurd rfl hlevel
  | additive | multiplicative | call | member => exact bind_of_eq_ok h

/-- A loop ends where nothing of its level follows. -/
theorem loop_of_not_mem {limit bound : Nat} {level : Level} {c : Cursor} {e : Expr}
    (h : c.kind ∉ level.extendedBy) : loop limit level bound e c = .ok e c := by
  cases level with
  | primary | object | assignment => rfl
  | member => exact memberTail_of_not_mem h
  | call => exact callTail_of_not_mem h
  | multiplicative =>
    refine binaryTail_of_none ?_
    generalize c.kind = kind at h
    cases kind <;> first | rfl | exact absurd h (by decide)
  | additive =>
    refine binaryTail_of_none ?_
    generalize c.kind = kind at h
    cases kind <;> first | rfl | exact absurd h (by decide)

/-- A loop goes round once for an operator of its level. -/
theorem loop_binary {limit bound : Nat} {level : Level} {op : BinaryOp} {left right : Expr}
    {c c₁ : Cursor} (hlevel : op.level = level) (hkind : c.kind = op.kind)
    (hright : reader limit level.tighter c.advance = .ok right c₁) :
    loop limit level (bound + 1) left c = loop limit level bound (.binary op left right) c₁ := by
  subst hlevel
  cases op with
  | add | subtract => exact binaryTail_of_operator (by rw [hkind]; rfl) hright
  | multiply | divide | modulo => exact binaryTail_of_operator (by rw [hkind]; rfl) hright

/-! ## From derivations to runs -/

/-- What the readers make of a phrase between two cursors, where `limit` bounds
them. -/
def ReadAs (limit : Nat) (c c' : Cursor) : Phrase → Prop
  | .expr .assignment e => c.rest.length ≤ limit + 1 → c'.kind ∉ Level.continuedBy .assignment →
      reader limit .assignment c = .ok e c'
  | .expr level e => c.rest.length ≤ limit + 1 → c'.kind ∉ level.tighter.continuedBy →
      ∃ bound, c'.rest.length ≤ bound ∧ reader limit level c = loop limit level bound e c'
  | .arguments [] => c = c'
  | .arguments (e :: es) => c.rest.length ≤ limit → c'.kind = .closeParen →
      ∀ bound, c.rest.length ≤ bound → ∃ c₁, exprWithin limit c = .ok e c₁ ∧
        argumentsTail (exprWithin limit) bound c₁ = .ok es c'
  | .property p => c.rest.length ≤ limit → ∀ bound,
      (c'.kind = .closeCurly → properties (exprWithin limit) (bound + 1) c = .ok [p] c') ∧
        (c'.kind = .comma → ∀ ps c'', properties (exprWithin limit) bound c'.advance = .ok ps c'' →
          properties (exprWithin limit) (bound + 1) c = .ok (p :: ps) c'')
  | .properties ps => c.rest.length ≤ limit → c'.kind = .closeCurly →
      ∀ bound, c.rest.length ≤ bound → properties (exprWithin limit) bound c = .ok ps c'

theorem readAs_expr {limit : Nat} {c c' : Cursor} {level : Level} {e : Expr}
    (h : level ≠ .assignment) : ReadAs limit c c' (.expr level e) ↔
      (c.rest.length ≤ limit + 1 → c'.kind ∉ level.tighter.continuedBy →
        ∃ bound, c'.rest.length ≤ bound ∧ reader limit level c = loop limit level bound e c') := by
  cases level <;> first | exact absurd rfl h | exact Iff.rfl

/-- Where nothing can go on an expression, its reader is done behind it. -/
theorem ReadAs.finish {limit : Nat} {c c' : Cursor} {level : Level} {e : Expr}
    (h : ReadAs limit c c' (.expr level e)) (hlen : c.rest.length ≤ limit + 1)
    (hstop : c'.kind ∉ level.continuedBy) : reader limit level c = .ok e c' := by
  by_cases hassignment : level = .assignment
  · subst hassignment
    exact h hlen hstop
  · obtain ⟨bound, _, hrun⟩ :=
      (readAs_expr hassignment).1 h hlen (Level.not_mem_continuedBy_tighter hstop)
    rw [hrun]
    refine loop_of_not_mem fun hmem => hstop ?_
    rw [Level.continuedBy_eq]
    exact List.mem_append_left _ hmem

/-- Whatever runs over some terminals is read as a phrase. -/
def ReadsBack (phrase : Phrase) (ts : List Terminal) : Prop :=
  ∀ ⦃limit : Nat⦄ ⦃c c' : Cursor⦄, c.Passes ts c' → ReadAs limit c c' phrase

section

variable {limit bound : Nat} {c c' : Cursor} {e : Expr} {es : List Expr} {ts us : List Terminal}

/-- A nested expression is read like any other. -/
theorem ReadsBack.nested (h : ReadsBack (.expr .assignment e) ts)
    (hderives : Derives (.expr .assignment e) ts) (hpasses : c.Passes ts c')
    (hlen : c.rest.length ≤ limit) (hstop : c'.kind ∉ Level.continuedBy .assignment) :
    exprWithin limit c = .ok e c' := by
  have hpos := List.length_pos_iff.2 hderives.ne_nil
  have hlength := hpasses.length_eq
  cases limit with
  | zero => omega
  | succ limit => exact (h hpasses).finish hlen hstop

/-- Before a list of arguments that is not empty the current token is no `)`. -/
theorem kind_ne_closeParen_of_arguments (h : Derives (.arguments (e :: es)) ts)
    (hpasses : c.Passes ts c') : c.kind ≠ .closeParen := by
  have hstart : ∀ {us}, Derives (.expr .assignment e) us → headKind us ≠ .closeParen := by
    intro us hus hclose
    rcases hus.headKind_mem with hmem | ⟨hcurly, _⟩
    · rw [hclose] at hmem
      exact absurd hmem (by decide)
    · rw [hclose] at hcurly
      cases hcurly
  rw [c.kind_eq_headKind, hpasses.terminals_eq]
  cases h with
  | lastArgument he =>
    rw [headKind_append _ he.ne_nil]
    exact hstart he
  | moreArguments he =>
    rw [List.append_assoc, headKind_append _ he.ne_nil]
    exact hstart he

/-- Arguments are read together with their parentheses. -/
theorem ReadsBack.arguments {l r : Terminal} (h : ReadsBack (.arguments es) us)
    (hderives : Derives (.arguments es) us) (hl : l.kind = .openParen) (hr : r.kind = .closeParen)
    (hpasses : c.Passes (l :: (us ++ [r])) c') (hlen : c.rest.length ≤ limit + 1)
    (hbound : c.rest.length ≤ bound + 1) :
    arguments bound (exprWithin limit) c = .ok es c' := by
  have hlength := hpasses.length_eq
  have hlength₁ := hpasses.tail.length_eq
  simp only [List.length_cons] at hlength
  obtain ⟨c₁, hlist, hclose⟩ := hpasses.tail.split
  have hkind := hclose.kind_eq.trans hr
  have hread : argumentsOpen bound (exprWithin limit) c.advance = .ok es c₁ := by
    cases es with
    | nil =>
      have hsame : c.advance = c₁ := @h limit _ _ hlist
      rw [hsame]
      exact argumentsOpen_of_closeParen hkind
    | cons e es =>
      obtain ⟨c₂, he, htail⟩ := @h limit _ _ hlist (by omega) hkind bound (by omega)
      exact argumentsOpen_of_ne (kind_ne_closeParen_of_arguments hderives hlist) he htail
  rw [← hclose.tail.eq_of_nil]
  exact arguments_of_open (hpasses.kind_eq.trans hl) hread hkind

/-! ### Primary expressions and levels -/

theorem readsBack_group {l r : Terminal} (hl : l.kind = .openParen)
    (he : Derives (.expr .assignment e) ts) (hr : r.kind = .closeParen)
    (ih : ReadsBack (.expr .assignment e) ts) :
    ReadsBack (.expr .primary e) (l :: (ts ++ [r])) := by
  intro limit c c' hpasses hlen _
  obtain ⟨c₁, hinner, hclose⟩ := hpasses.tail.split
  have hlength := hpasses.length_eq
  have hlength₁ := hpasses.tail.length_eq
  simp only [List.length_cons] at hlength
  have hkind := hclose.kind_eq.trans hr
  have hnested : exprWithin limit c.advance = .ok e c₁ :=
    ih.nested he hinner (by omega) (by rw [hkind]; decide)
  rw [← hclose.tail.eq_of_nil]
  exact ⟨_, Nat.le_refl _, primary_of_group (hpasses.kind_eq.trans hl) hnested hkind⟩

theorem readsBack_loosen {level : Level} (hlevel : level ≠ .primary)
    (he : Derives (.expr level.tighter e) ts) (ih : ReadsBack (.expr level.tighter e) ts) :
    ReadsBack (.expr level e) ts := by
  intro limit c c' hpasses
  cases level with
  | primary => exact absurd rfl hlevel
  | object =>
    intro hlen hstop
    have hcurly : c.kind ≠ .openCurly := by
      rw [c.kind_eq_headKind, hpasses.terminals_eq, headKind_append _ he.ne_nil]
      rcases he.headKind_mem with hmem | ⟨_, hrung⟩
      · exact fun hcurly => absurd (hcurly ▸ hmem) (by decide)
      · exact absurd hrung (by decide)
    exact ⟨_, Nat.le_refl _, (object_of_ne hcurly).trans ((ih hpasses).finish hlen hstop)⟩
  | assignment =>
    intro hlen hstop
    have hobject : reader limit .object c = .ok e c' :=
      (ih hpasses).finish hlen (Level.not_mem_continuedBy_tighter hstop)
    exact assignment_of_ne hobject fun hkind => hstop (by rw [hkind]; decide)
  | additive | multiplicative | call | member =>
    intro hlen hstop
    have hlength := hpasses.length_eq
    have hpos := List.length_pos_iff.2 he.ne_nil
    exact ⟨limit, by omega,
      reader_eq_loop (by decide) (by decide) ((ih hpasses).finish hlen hstop)⟩

/-! ### Loops

In each of these the loop has a round left, since the terminal that goes on the
expression is still to come. -/

/-- A loop that comes before a terminal has a round left. -/
theorem exists_succ_of_passes {t : Terminal} (hpasses : c.Passes (t :: ts) c')
    (hbound : c.rest.length ≤ bound) :
    ∃ fewer, bound = fewer + 1 ∧ c.advance.rest.length ≤ fewer := by
  have hlength := hpasses.length_eq
  have hlength₁ := hpasses.tail.length_eq
  simp only [List.length_cons] at hlength
  exact ⟨bound - 1, by omega, by omega⟩

theorem readsBack_dot {d : Terminal} {owner : Expr} {name : String}
    (ho : ReadsBack (.expr .member owner) ts) (hd : d.kind = .dot)
    (hn : ReadsBack (.expr .primary (.identifier name)) us) :
    ReadsBack (.expr .member (.member owner (.identifier name) false)) (ts ++ d :: us) := by
  intro limit c c' hpasses hlen _
  obtain ⟨c₁, howner, hrest⟩ := hpasses.split
  have hlength := howner.length_eq
  have hlength₁ := hrest.length_eq
  have hlength₂ := hrest.tail.length_eq
  simp only [List.length_cons] at hlength₁
  obtain ⟨bound, hbound, hrun⟩ := ho howner hlen (by exact List.not_mem_nil)
  obtain ⟨bound, rfl, hbound⟩ := exists_succ_of_passes hrest hbound
  have hname : primary (exprWithin limit) c₁.advance = .ok (.identifier name) c' :=
    (hn hrest.tail).finish (by omega) List.not_mem_nil
  exact ⟨bound, by omega, hrun.trans (memberTail_of_dot (hrest.kind_eq.trans hd) hname)⟩

theorem readsBack_index {l r : Terminal} {owner property : Expr}
    (ho : ReadsBack (.expr .member owner) ts) (howner : ts ≠ []) (hl : l.kind = .openBracket)
    (hp : Derives (.expr .assignment property) us) (hr : r.kind = .closeCurly)
    (ih : ReadsBack (.expr .assignment property) us) :
    ReadsBack (.expr .member (.member owner property true)) (ts ++ l :: (us ++ [r])) := by
  intro limit c c' hpasses hlen _
  obtain ⟨c₁, hfirst, hrest⟩ := hpasses.split
  obtain ⟨c₂, hproperty, hclose⟩ := hrest.tail.split
  have hlength := hfirst.length_eq
  have hlength₁ := hrest.length_eq
  have hlength₂ := hrest.tail.length_eq
  have hpos := List.length_pos_iff.2 howner
  simp only [List.length_cons] at hlength₁
  obtain ⟨bound, hbound, hrun⟩ := ho hfirst hlen (by exact List.not_mem_nil)
  obtain ⟨bound, rfl, hbound⟩ := exists_succ_of_passes hrest hbound
  have hkind := hclose.kind_eq.trans hr
  have hnested : exprWithin limit c₁.advance = .ok property c₂ :=
    ih.nested hp hproperty (by omega) (by rw [hkind]; decide)
  rw [← hclose.tail.eq_of_nil] at hlength₂ ⊢
  exact ⟨bound, by omega,
    hrun.trans (memberTail_of_openBracket (hrest.kind_eq.trans hl) hnested hkind)⟩

theorem readsBack_apply {l r : Terminal} {callee : Expr}
    (hf : ReadsBack (.expr .call callee) ts) (hcallee : ts ≠ []) (hl : l.kind = .openParen)
    (hes : Derives (.arguments es) us) (hr : r.kind = .closeParen)
    (ih : ReadsBack (.arguments es) us) :
    ReadsBack (.expr .call (.call callee es)) (ts ++ l :: (us ++ [r])) := by
  intro limit c c' hpasses hlen _
  obtain ⟨c₁, hfirst, hrest⟩ := hpasses.split
  have hlength := hfirst.length_eq
  have hlength₁ := hrest.length_eq
  have hlength₂ := hrest.tail.length_eq
  have hpos := List.length_pos_iff.2 hcallee
  have hkind := hrest.kind_eq.trans hl
  simp only [List.length_cons] at hlength₁
  obtain ⟨bound, hbound, hrun⟩ := hf hfirst hlen (by rw [hkind]; decide)
  obtain ⟨bound, rfl, hbound⟩ := exists_succ_of_passes hrest hbound
  have hread : arguments bound (exprWithin limit) c₁ = .ok es c' :=
    ih.arguments hes hl hr hrest (by omega) (by omega)
  exact ⟨bound, by omega, hrun.trans (callTail_of_arguments hkind hread)⟩

theorem readsBack_binary {t : Terminal} {op : BinaryOp} {level : Level} {left right : Expr}
    (hlevel : op.level = level) (hleft : ReadsBack (.expr level left) ts) (ht : t.kind = op.kind)
    (hright : ReadsBack (.expr level.tighter right) us) :
    ReadsBack (.expr level (.binary op left right)) (ts ++ t :: us) := by
  intro limit c c' hpasses
  have hassignment : level ≠ .assignment := by
    rw [← hlevel]
    cases op <;> decide
  rw [readAs_expr hassignment]
  intro hlen hstop
  obtain ⟨c₁, hfirst, hrest⟩ := hpasses.split
  have hlength := hfirst.length_eq
  have hlength₁ := hrest.length_eq
  have hlength₂ := hrest.tail.length_eq
  have hkind := hrest.kind_eq.trans ht
  simp only [List.length_cons] at hlength₁
  obtain ⟨bound, hbound, hrun⟩ := (readAs_expr hassignment).1 (hleft hfirst) hlen
    (by rw [hkind, ← hlevel]; cases op <;> decide)
  obtain ⟨bound, rfl, hbound⟩ := exists_succ_of_passes hrest hbound
  have hsecond : reader limit level.tighter c₁.advance = .ok right c' :=
    (hright hrest.tail).finish (by omega) hstop
  exact ⟨bound, by omega, hrun.trans (loop_binary hlevel hkind hsecond)⟩

/-! ### Lists, object literals and assignments -/

theorem readsBack_moreArguments {t : Terminal} {e' : Expr}
    (he : Derives (.expr .assignment e) ts) (ht : t.kind = .comma)
    (ihe : ReadsBack (.expr .assignment e) ts) (ihes : ReadsBack (.arguments (e' :: es)) us) :
    ReadsBack (.arguments (e :: e' :: es)) (ts ++ t :: us) := by
  intro limit c c' hpasses hlen hclose bound hbound
  obtain ⟨c₁, hfirst, hrest⟩ := hpasses.split
  have hkind := hrest.kind_eq.trans ht
  have hlength := hfirst.length_eq
  have hlength₁ := hrest.length_eq
  have hlength₂ := hrest.tail.length_eq
  simp only [List.length_cons] at hlength₁
  have hbound₁ : c₁.rest.length ≤ bound := by omega
  obtain ⟨bound, rfl, _⟩ := exists_succ_of_passes hrest hbound₁
  obtain ⟨c₂, he', htail⟩ := @ihes limit _ _ hrest.tail (by omega) hclose bound (by omega)
  exact ⟨c₁, ihe.nested he hfirst hlen (by rw [hkind]; decide),
    argumentsTail_of_comma hkind he' htail⟩

theorem readsBack_shorthand {t : Terminal} (ht : t.kind = .identifier) :
    ReadsBack (.property (.shorthand t.value)) [t] := by
  intro limit c c' hpasses _ bound
  have hkind := hpasses.kind_eq.trans ht
  rw [← hpasses.current_eq, ← hpasses.tail.eq_of_nil]
  exact ⟨fun hclose => properties_of_last_shorthand hkind hclose,
    fun hcomma ps c'' hps => properties_of_shorthand hkind hcomma hps⟩

theorem readsBack_entry {t colon : Terminal} (ht : t.kind = .identifier)
    (hcolon : colon.kind = .colon) (he : Derives (.expr .assignment e) ts)
    (ih : ReadsBack (.expr .assignment e) ts) :
    ReadsBack (.property (.entry t.value e)) (t :: colon :: ts) := by
  intro limit c c' hpasses hlen bound
  have hkind := hpasses.kind_eq.trans ht
  have hcolon := hpasses.tail.kind_eq.trans hcolon
  have hlength := hpasses.length_eq
  have hlength₁ := hpasses.tail.tail.length_eq
  simp only [List.length_cons] at hlength
  have hnested : c'.kind ∉ Level.continuedBy .assignment →
      exprWithin limit c.advance.advance = .ok e c' :=
    ih.nested he hpasses.tail.tail (by omega)
  rw [← hpasses.current_eq]
  constructor
  · intro hclose
    exact properties_of_last_entry hkind hcolon (hnested (by rw [hclose]; decide)) hclose
  · intro hcomma ps c'' hps
    exact properties_of_entry hkind hcolon (hnested (by rw [hcomma]; decide)) hcomma hps

theorem readsBack_lastProperty {p : Property} (hp : ts ≠ []) (ih : ReadsBack (.property p) ts) :
    ReadsBack (.properties [p]) ts := by
  intro limit c c' hpasses hlen hclose bound hbound
  obtain ⟨t, ts, rfl⟩ := List.exists_cons_of_ne_nil hp
  obtain ⟨bound, rfl, _⟩ := exists_succ_of_passes hpasses hbound
  exact (ih hpasses hlen bound).1 hclose

theorem readsBack_moreProperties {t : Terminal} {p : Property} {ps : List Property}
    (ihp : ReadsBack (.property p) ts) (ht : t.kind = .comma)
    (ihps : ReadsBack (.properties ps) us) :
    ReadsBack (.properties (p :: ps)) (ts ++ t :: us) := by
  intro limit c c' hpasses hlen hclose bound hbound
  obtain ⟨c₁, hfirst, hrest⟩ := hpasses.split
  have hlength := hfirst.length_eq
  have hlength₁ := hrest.length_eq
  have hlength₂ := hrest.tail.length_eq
  simp only [List.length_cons] at hlength₁
  have hbound₁ : c₁.rest.length ≤ bound := by omega
  obtain ⟨bound, rfl, _⟩ := exists_succ_of_passes hrest hbound₁
  exact (ihp hfirst hlen bound).2 (hrest.kind_eq.trans ht) ps c'
    (ihps hrest.tail (by omega) hclose bound (by omega))

/-- An object literal is read whatever follows. -/
theorem ReadsBack.object {l r : Terminal} {ps : List Property} (h : ReadsBack (.properties ps) ts)
    (hl : l.kind = .openCurly) (hr : r.kind = .closeCurly)
    (hpasses : c.Passes (l :: (ts ++ [r])) c') (hlen : c.rest.length ≤ limit + 1) :
    reader limit .object c = .ok (.object ps) c' := by
  obtain ⟨c₁, hinner, hclose⟩ := hpasses.tail.split
  have hlength := hpasses.length_eq
  have hlength₁ := hpasses.tail.length_eq
  simp only [List.length_cons] at hlength
  have hkind := hclose.kind_eq.trans hr
  have hread : properties (exprWithin limit) limit c.advance = .ok ps c₁ :=
    h hinner (by omega) hkind limit (by omega)
  rw [← hclose.tail.eq_of_nil]
  exact object_of_openCurly (hpasses.kind_eq.trans hl) hread hkind

theorem readsBack_assign {t : Terminal} {target value : Expr} (htarget : ts ≠ [])
    (ht : t.kind = .assignment) (hvalue : Derives (.expr .assignment value) us)
    (iht : ReadsBack (.expr .object target) ts) (ihv : ReadsBack (.expr .assignment value) us) :
    ReadsBack (.expr .assignment (.assignment target value)) (ts ++ t :: us) := by
  intro limit c c' hpasses hlen hstop
  obtain ⟨c₁, hfirst, hrest⟩ := hpasses.split
  have hkind := hrest.kind_eq.trans ht
  have hlength := hfirst.length_eq
  have hlength₁ := hrest.length_eq
  have hlength₂ := hrest.tail.length_eq
  have hpos := List.length_pos_iff.2 htarget
  simp only [List.length_cons] at hlength₁
  have hread : reader limit .object c = .ok target c₁ :=
    (iht hfirst).finish hlen (by rw [hkind]; decide)
  exact assignment_of_assignment hread hkind
    (ihv.nested hvalue hrest.tail (by omega) hstop)

end

/-- Whatever a phrase consists of is read as that phrase. -/
theorem readsBack_of_derives {phrase : Phrase} {ts : List Terminal} (h : Derives phrase ts) :
    ReadsBack phrase ts := by
  induction h with
  | name ht =>
    intro limit c c' hpasses hlen _
    rw [← hpasses.current_eq, ← hpasses.tail.eq_of_nil]
    exact ⟨_, Nat.le_refl _, primary_of_identifier (hpasses.kind_eq.trans ht)⟩
  | number ht hd =>
    intro limit c c' hpasses hlen _
    rw [← hpasses.current_eq] at hd
    rw [← hpasses.tail.eq_of_nil]
    exact ⟨_, Nat.le_refl _, primary_of_number (hpasses.kind_eq.trans ht) hd⟩
  | string ht =>
    intro limit c c' hpasses hlen _
    rw [← hpasses.current_eq, ← hpasses.tail.eq_of_nil]
    exact ⟨_, Nat.le_refl _, primary_of_string (hpasses.kind_eq.trans ht)⟩
  | group hl he hr ih => exact readsBack_group hl he hr ih
  | loosen hlevel he ih => exact readsBack_loosen hlevel he ih
  | dot _ hd _ iho ihn => exact readsBack_dot iho hd ihn
  | index ho hl hp hr iho ihp => exact readsBack_index iho ho.ne_nil hl hp hr ihp
  | apply hf hl hes hr ihf ihes => exact readsBack_apply ihf hf.ne_nil hl hes hr ihes
  | binary hlevel _ ht _ ihl ihr => exact readsBack_binary hlevel ihl ht ihr
  | object hl _ hr ih =>
    intro limit c c' hpasses hlen _
    exact ⟨_, Nat.le_refl _, ih.object hl hr hpasses hlen⟩
  | assign htarget ht hvalue iht ihv => exact readsBack_assign htarget.ne_nil ht hvalue iht ihv
  | noArguments => exact fun _ _ _ hpasses => hpasses.eq_of_nil
  | lastArgument he ih =>
    intro limit c c' hpasses hlen hclose bound _
    exact ⟨c', ih.nested he hpasses hlen (by rw [hclose]; decide),
      argumentsTail_of_closeParen hclose⟩
  | moreArguments he ht _ ihe ihes => exact readsBack_moreArguments he ht ihe ihes
  | shorthand ht => exact readsBack_shorthand ht
  | entry ht hcolon hvalue ih => exact readsBack_entry ht hcolon hvalue ih
  | noProperties =>
    intro limit c c' hpasses _ hclose bound _
    cases hpasses.eq_of_nil
    exact properties_of_closeCurly hclose
  | lastProperty hp ih => exact readsBack_lastProperty (by cases hp <;> exact List.cons_ne_nil _ _) ih
  | moreProperties _ ht _ ihp ihps => exact readsBack_moreProperties ihp ht ihps

/-! ## Expressions and argument lists as a whole -/

/-- An expression that ends in a bare object literal is read unless a `=`
follows. -/
theorem reader_of_bare {e : Expr} {ts : List Terminal} (h : Bare e ts) :
    ∀ {limit : Nat} {c c' : Cursor}, c.Passes ts c' → c.rest.length ≤ limit + 1 →
      c'.kind ≠ .assignment → reader limit .assignment c = .ok e c' := by
  induction h with
  | object hl hps hr =>
    intro limit c c' hpasses hlen hstop
    exact assignment_of_ne ((readsBack_of_derives hps).object hl hr hpasses hlen) hstop
  | @assign t target value ts us htarget ht hvalue ih =>
    intro limit c c' hpasses hlen hstop
    obtain ⟨c₁, hfirst, hrest⟩ := hpasses.split
    have hkind := hrest.kind_eq.trans ht
    have hlength := hfirst.length_eq
    have hlength₁ := hrest.length_eq
    have hlength₂ := hrest.tail.length_eq
    have hpos := List.length_pos_iff.2 htarget.ne_nil
    have hpos₁ := List.length_pos_iff.2 hvalue.derives.ne_nil
    simp only [List.length_cons] at hlength₁
    have hread : reader limit .object c = .ok target c₁ :=
      (readsBack_of_derives htarget hfirst).finish hlen (by rw [hkind]; decide)
    obtain ⟨limit, rfl⟩ : ∃ fewer, limit = fewer + 1 := ⟨limit - 1, by omega⟩
    exact assignment_of_assignment hread hkind (ih hrest.tail (by omega) hstop)

/-- Terminals make up an expression and what follows does not go on it. -/
inductive Stands (e : Expr) (ts rest : List Terminal) : Prop where
  /-- What follows goes on no expression. -/
  | free (h : Derives (.expr .assignment e) ts)
      (hstop : headKind rest ∉ Level.continuedBy .assignment)
  /-- The expression ends in a bare object literal. -/
  | bare (h : Bare e ts) (hstop : headKind rest ≠ .assignment)

theorem Stands.derives {e : Expr} {ts rest : List Terminal} (h : Stands e ts rest) :
    Derives (.expr .assignment e) ts := by
  cases h with
  | free h _ => exact h
  | bare h _ => exact h.derives

/-- An expression is read where it stands. -/
theorem expression_complete {c c' : Cursor} {e : Expr} {ts : List Terminal}
    (hpasses : c.Passes ts c') (h : Stands e ts c'.terminals) : expression c = .ok e c' := by
  cases h with
  | free h hstop =>
    rw [← c'.kind_eq_headKind] at hstop
    have hread : ReadAs c.rest.length c c' (.expr .assignment e) := readsBack_of_derives h hpasses
    exact hread.finish (Nat.le_succ _) hstop
  | bare h hstop =>
    rw [← c'.kind_eq_headKind] at hstop
    exact reader_of_bare h hpasses (Nat.le_succ _) hstop

/-- Arguments are read with their parentheses, whatever follows. -/
theorem arguments_complete {c c' : Cursor} {l r : Terminal} {es : List Expr} {us : List Terminal}
    (hl : l.kind = .openParen) (hes : Derives (.arguments es) us) (hr : r.kind = .closeParen)
    (hpasses : c.Passes (l :: (us ++ [r])) c') : bounded arguments c = .ok es c' :=
  (readsBack_of_derives hes).arguments hes hl hr hpasses (Nat.le_succ _) (Nat.le_succ _)

/-- Terminals are read in one way: two expressions that stand at the front of the
same terminals are the same. -/
theorem Stands.unique {e e' : Expr} {ts ts' rest rest' : List Terminal} (h : Stands e ts rest)
    (h' : Stands e' ts' rest') (hsame : ts ++ rest = ts' ++ rest')
    (hopen : ∀ t ∈ rest, t.kind ≠ .endOfInput) : e = e' ∧ ts = ts' ∧ rest = rest' := by
  obtain ⟨c, hc⟩ := Cursor.exists_terminals_eq (ts ++ rest) fun t ht =>
    (List.mem_append.1 ht).elim (h.derives.kind_ne_end t) (hopen t)
  obtain ⟨c₁, hpasses, rfl⟩ := Cursor.exists_passes hc
  obtain ⟨c₂, hpasses', rfl⟩ := Cursor.exists_passes (hc.trans hsame)
  have hrun := (expression_complete hpasses h).symm.trans (expression_complete hpasses' h')
  simp only [EStateM.Result.ok.injEq] at hrun
  obtain ⟨rfl, rfl⟩ := hrun
  exact ⟨rfl, hpasses.unique hpasses' rfl, rfl⟩

end Scriptlet.Parser
