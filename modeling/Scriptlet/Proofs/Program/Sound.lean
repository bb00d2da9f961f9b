import Scriptlet.Proofs.Program.Grammar

/-!
# What the readers of statements read

A program that is read consists of the terminals of its source (`program_sound`).

Whether an expression has ended where its reader stopped depends on the token
that comes next, and that token is only known to be harmless once the next
statement has been read, or the body has been closed.  So a statement is read
soundly under the condition that its successor starts a statement or ends a body
(`SoundStatement`), and the loop over a body discharges the condition.
-/

namespace Scriptlet

open Token (Kind)

/-- A lookahead at a cursor sees the terminals to come. -/
theorem Detection.detects_remaining (mode : Detection) (c : Cursor) :
    mode.detects c.remaining = mode.recognises c.terminals := by
  rw [detects, Cursor.remaining, List.map_append]
  exact recognises_concat_end mode c.closing_isEnd

/-- The kinds that come behind a statement: those that start one, and the ends. -/
def followingKinds : List Kind := .closeCurly :: .endOfInput :: statementKinds

namespace Parser

theorem stands_of_following {e : Expr} {ts rest : List Terminal}
    (h : Derives (.expr .assignment e) ts) (hbare : headKind rest = .openParen → Bare e ts)
    (hnext : headKind rest ∈ followingKinds) : Stands e ts rest := by
  by_cases hparen : headKind rest = .openParen
  · exact .bare (hbare hparen) (by rw [hparen]; decide)
  · refine .free h ?_
    generalize headKind rest = kind at hparen hnext ⊢
    cases kind <;> first | decide | exact absurd rfl hparen | exact absurd hnext (by decide)

/-- A reader of statements reads what the grammar says, where at most `limit`
tokens are left and the right kind of token follows. -/
def SoundStatement (mode : Detection) (limit : Nat) (statement : Parser Stmt) : Prop :=
  ∀ ⦃c c' : Cursor⦄ ⦃s : Stmt⦄, c.rest.length ≤ limit → statement c = .ok s c' →
    ∃ ts, c.Passes ts c' ∧ headKind ts ∈ statementKinds ∧
      (c'.kind ∈ followingKinds → Reads mode (.statement s) ts c'.terminals)

section

variable {mode : Detection} {limit bound : Nat} {c c' : Cursor}

/-! ## Statements without a body -/

theorem binding_sound {s : Stmt} (hword : c.kind = .letWord ∨ c.kind = .constWord)
    (h : binding c = .ok s c') :
    ∃ ts, c.Passes ts c' ∧ headKind ts ∈ statementKinds ∧
      (c'.kind ∈ followingKinds → Reads mode (.statement s) ts c'.terminals) := by
  simp only [binding, bind_eq_ok_iff, advance_eq_ok_iff, current_eq_ok_iff] at h
  obtain ⟨_, _, ⟨rfl, rfl⟩, name, c₁, hname, _, _, ⟨rfl, rfl⟩, h⟩ := h
  have hfirst : c.Passes [c.current.terminal] c.advance :=
    Cursor.passes_advance (by rcases hword with hw | hw <;> rw [hw] <;> decide)
  have hstart : c.current.kind ∈ statementKinds := by
    have hkind : c.current.kind = c.kind := rfl
    rcases hword with hw | hw <;> rw [hkind, hw] <;> decide
  obtain ⟨hsecond, hnamekind⟩ := expect_passes (by decide) hname
  generalize hnext : c₁.current.kind = next at h
  generalize hw : c.current.kind = word at h
  split at h
  · exact absurd h fail_ne_ok
  · rename_i hlet
    obtain ⟨rfl, rfl⟩ := pure_eq_ok_iff.1 h
    have hempty : c₁.terminals = [] := by
      rw [Cursor.terminals, c₁.kind_eq_endOfInput_iff.1 hnext, List.map_nil]
    have hletword : c.current.kind = .letWord :=
      hword.resolve_right fun hconst => hlet (hw.symm.trans hconst)
    refine ⟨_, hfirst.trans hsecond, hstart, fun _ => ?_⟩
    rw [hempty]
    exact .bareBinding (w := c.current.terminal) hletword hnamekind
  · simp only [bind_eq_ok_iff, pure_eq_ok_iff] at h
    obtain ⟨sign, c₂, hsign, e, c₃, he, rfl, rfl⟩ := h
    obtain ⟨hthird, hsignkind⟩ := expect_passes (by decide) hsign
    obtain ⟨ts, hts, hderives, hbare⟩ := expression_sound he
    refine ⟨_, hfirst.trans (hsecond.trans (hthird.trans hts)), hstart, fun hfollowing => ?_⟩
    rw [Cursor.kind_eq_headKind] at hbare hfollowing
    rw [← hw]
    exact .binding (w := c.current.terminal) hword hnamekind hsignkind
      (stands_of_following hderives hbare hfollowing)

theorem expression_statement_sound {e : Expr} (hmode : mode.recognises c.terminals = false)
    (h : expression c = .ok e c') :
    ∃ ts, c.Passes ts c' ∧ headKind ts ∈ statementKinds ∧
      (c'.kind ∈ followingKinds → Reads mode (.statement (.expression e)) ts c'.terminals) := by
  obtain ⟨ts, hts, hderives, hbare⟩ := expression_sound h
  rw [Cursor.kind_eq_headKind] at hbare
  refine ⟨ts, hts, hderives.headKind_mem_statementKinds, fun hfollowing => ?_⟩
  rw [Cursor.kind_eq_headKind] at hfollowing
  rw [hts.terminals_eq] at hmode
  exact .expression (stands_of_following hderives hbare hfollowing) hmode

/-! ## Bodies -/

/-- A body that is read is followed by a token that ends it.  `ends` must end it
at the end of the source. -/
theorem statements_sound {ends : Kind → Bool} {statement : Parser Stmt} {ss : List Stmt}
    (hends : ∀ kind, ends kind → kind ∈ [Kind.closeCurly, .endOfInput])
    (hend : ends .endOfInput) (hstatement : SoundStatement mode limit statement)
    (hlen : c.rest.length ≤ limit) (hbound : c.rest.length ≤ bound)
    (h : statements ends statement bound c = .ok ss c') :
    ∃ ts, c.Passes ts c' ∧ c.kind ∈ followingKinds ∧ ends c'.kind ∧
      Reads mode (.body ss) ts c'.terminals := by
  have hclosed {kind : Kind} (hkind : ends kind) : kind ∈ followingKinds := by
    have hmem := hends kind hkind
    simp only [List.mem_cons, List.not_mem_nil, or_false] at hmem
    rcases hmem with rfl | rfl <;> decide
  induction bound generalizing ss c with
  | zero =>
    obtain ⟨rfl, rfl⟩ := pure_eq_ok_iff.1 h
    have hlast : c.kind = .endOfInput :=
      c.kind_eq_endOfInput_iff.2 (List.length_eq_zero_iff.1 (Nat.le_zero.1 hbound))
    rw [← hlast] at hend
    exact ⟨[], .refl c, hclosed hend, hend, .nil⟩
  | succ bound ih =>
    simp only [statements, bind_eq_ok_iff, kind_eq_ok_iff] at h
    obtain ⟨_, _, ⟨rfl, rfl⟩, h⟩ := h
    split at h
    next hkind =>
      obtain ⟨rfl, rfl⟩ := pure_eq_ok_iff.1 h
      exact ⟨[], .refl c, hclosed hkind, hkind, .nil⟩
    next =>
      simp only [bind_eq_ok_iff, pure_eq_ok_iff] at h
      obtain ⟨s, c₁, hs, others, c₂, hothers, rfl, rfl⟩ := h
      obtain ⟨us, hus, hstart, hreads⟩ := hstatement hlen hs
      have hne : us ≠ [] := by
        rintro rfl
        exact absurd hstart (by decide)
      have hlen₁ := hus.length_eq
      have hpos := List.length_pos_iff.2 hne
      obtain ⟨ts, hts, hfollowing, hended, hbody⟩ := ih (by omega) (by omega) hothers
      refine ⟨us ++ ts, hus.trans hts, ?_, hended, .cons ?_ hbody⟩
      · rw [Cursor.kind_eq_headKind, hus.terminals_eq, headKind_append _ hne]
        exact List.mem_cons_of_mem _ (List.mem_cons_of_mem _ hstart)
      · rw [← hts.terminals_eq]
        exact hreads hfollowing

theorem endsBody_mem {kind : Kind} (h : endsBody kind) : kind ∈ [Kind.closeCurly, .endOfInput] := by
  simpa [endsBody] using h

theorem endsProgram_mem {kind : Kind} (h : endsProgram kind) :
    kind ∈ [Kind.closeCurly, .endOfInput] := by
  simp only [endsProgram, decide_eq_true_eq] at h
  simp [h]

/-! ## Function declarations -/

theorem heading_sound {head : Heading} (h : heading c = .ok head c') :
    ∃ ts, c.Passes ts c' ∧ Opens head ts := by
  simp only [heading, bind_eq_ok_iff] at h
  obtain ⟨isAsync, c₁, hmodifier, name, c₂, hname, _, _, hcurrent, es, c₃, hes, h⟩ := h
  obtain ⟨_, rfl⟩ := current_eq_ok_iff.1 hcurrent
  obtain ⟨hfirst, hnamekind⟩ := expect_passes (by decide) hname
  obtain ⟨l, r, us, hus, hl, hderives, hr⟩ :=
    arguments_sound (exprWithin_sound c₂.rest.length) (Nat.le_succ _) hes
  generalize hnames : parameterNames es = names at h
  cases names with
  | error form => exact absurd h fail_ne_ok
  | ok names =>
    simp only [bind_eq_ok_iff, pure_eq_ok_iff] at h
    obtain ⟨brace, c₄, hbrace, rfl, rfl⟩ := h
    obtain ⟨hlast, hbracekind⟩ := expect_passes (by decide) hbrace
    have hsignature := hfirst.trans (hus.trans hlast)
    simp only [List.cons_append, List.append_assoc, List.nil_append] at hsignature
    simp only [asyncModifier, bind_eq_ok_iff, current_eq_ok_iff] at hmodifier
    obtain ⟨_, _, ⟨rfl, rfl⟩, hmodifier⟩ := hmodifier
    split at hmodifier
    next hasync =>
      simp only [bind_eq_ok_iff, advance_eq_ok_iff, pure_eq_ok_iff] at hmodifier
      obtain ⟨_, _, ⟨_, rfl⟩, rfl, rfl⟩ := hmodifier
      have hkind : c.kind = .identifier := Detection.kind_of_isAsyncWord hasync
      exact ⟨_, (passes_of_kind hkind (by decide)).trans hsignature,
        .async hasync hnamekind hl hderives hnames hr hbracekind⟩
    next hasync =>
      obtain ⟨rfl, rfl⟩ := pure_eq_ok_iff.1 hmodifier
      have hword := hsignature.current_eq
      rw [hword, Bool.not_eq_true] at hasync
      exact ⟨_, hsignature, .plain hasync hnamekind hl hderives hnames hr hbracekind⟩

theorem function_sound {statement : Parser Stmt} {s : Stmt}
    (hstatement : SoundStatement mode limit statement) (hlen : c.rest.length ≤ limit + 1)
    (hbound : limit ≤ bound) (h : function bound statement c = .ok s c') :
    ∃ ts, c.Passes ts c' ∧ headKind ts ∈ statementKinds ∧
      (c'.kind ∈ followingKinds → Reads mode (.statement s) ts c'.terminals) := by
  simp only [function, bind_eq_ok_iff, pure_eq_ok_iff] at h
  obtain ⟨head, c₁, hhead, ss, c₂, hss, close, c₃, hclose, rfl, rfl⟩ := h
  obtain ⟨hs, hhs, hopens⟩ := heading_sound hhead
  have hne : hs ≠ [] := by
    rintro rfl
    cases hopens
  have hlen₁ := hhs.length_eq
  have hpos := List.length_pos_iff.2 hne
  obtain ⟨bs, hbs, _, _, hbody⟩ := statements_sound (fun _ => endsBody_mem) (by decide) hstatement
    (by omega) (by omega) hss
  obtain ⟨hlast, hclosekind⟩ := expect_passes (by decide) hclose
  refine ⟨_, hhs.trans (hbs.trans hlast), ?_, fun _ => .function hopens ?_ hclosekind⟩
  · rw [headKind_append _ hne, hopens.headKind_eq]
    decide
  · rw [hlast.terminals_eq] at hbody
    exact hbody

theorem statementOver_sound {inner : Parser Stmt} (hinner : SoundStatement mode limit inner)
    (hbound : limit ≤ bound) : SoundStatement mode (limit + 1) (statementOver mode bound inner) := by
  intro c c' s hlen h
  simp only [statementOver, bind_eq_ok_iff, startsFunction, EStateM.Result.ok.injEq] at h
  obtain ⟨_, _, ⟨rfl, rfl⟩, h⟩ := h
  rw [Detection.detects_remaining] at h
  split at h
  next => exact function_sound hinner hlen hbound h
  next hmode =>
    rw [Bool.not_eq_true] at hmode
    simp only [bind_eq_ok_iff, kind_eq_ok_iff] at h
    obtain ⟨_, _, ⟨rfl, rfl⟩, h⟩ := h
    generalize hkind : c.kind = kind at h
    split at h
    · exact binding_sound (.inl hkind) h
    · exact binding_sound (.inr hkind) h
    · simp only [bind_eq_ok_iff, pure_eq_ok_iff] at h
      obtain ⟨e, c₁, he, rfl, rfl⟩ := h
      exact expression_statement_sound hmode he

end

/-! ## Closing the recursion -/

theorem statementWithin_sound (mode : Detection) (limit : Nat) :
    SoundStatement mode limit (statementWithin mode limit) := by
  induction limit with
  | zero =>
    intro c c' s _ h
    exact absurd h refuse_ne_ok
  | succ limit ih => exact statementOver_sound ih (Nat.le_refl limit)

/-- A program that is read consists of all the terminals of its source. -/
theorem program_sound {mode : Detection} {c c' : Cursor} {p : Program}
    (h : program mode c = .ok p c') : Reads mode (.body p.body) c.terminals [] := by
  simp only [program, bind_eq_ok_iff, pure_eq_ok_iff] at h
  obtain ⟨ss, c₁, hss, rfl, rfl⟩ := h
  obtain ⟨ts, hts, _, hended, hbody⟩ := statements_sound (fun _ => endsProgram_mem) (by decide)
    (statementWithin_sound mode c.rest.length) (Nat.le_refl _) (Nat.le_refl _) hss
  simp only [endsProgram, decide_eq_true_eq] at hended
  have hempty : c₁.terminals = [] := by
    rw [Cursor.terminals, c₁.kind_eq_endOfInput_iff.1 hended, List.map_nil]
  rw [hts.terminals_eq, hempty, List.append_nil]
  rw [hempty] at hbody
  exact hbody

end Parser

end Scriptlet
