import Scriptlet.Proofs.Expr.Grammar

/-!
# The lookaheads over expressions

Both lookaheads search for a `)` right before a `{`.  Inside an expression there
is none (`Derives.opensBody_eq_false`), and an expression closes every parenthesis
that it opens (`Derives.closesBeforeBody_append`).  So what a lookahead says of
terminals that start with an expression is decided where the expression ends.

The shape of a declaration is one of the things that the forward scan finds
(`scansForward_of_hasShape`).
-/

namespace Scriptlet

open Token (Kind)

/-- The kind of the last terminal, where an empty list is at the end of the
input. -/
def lastKind : List Terminal → Kind
  | [] => .endOfInput
  | [t] => t.kind
  | _ :: t :: ts => lastKind (t :: ts)

theorem lastKind_append_cons (ts : List Terminal) (t : Terminal) (us : List Terminal) :
    lastKind (ts ++ t :: us) = lastKind (t :: us) := by
  induction ts with
  | nil => rfl
  | cons s ts ih => cases ts <;> exact ih

@[simp] theorem lastKind_cons_concat (s : Terminal) (ts : List Terminal) (t : Terminal) :
    lastKind (s :: (ts ++ [t])) = t.kind := lastKind_append_cons (s :: ts) t []

namespace Detection

variable {t : Terminal} {ts us rest : List Terminal}

/-! ## Parentheses -/

theorem closesBeforeBody_openParen {inner : Nat} (h : t.kind = .openParen) :
    closesBeforeBody inner (t :: ts) = closesBeforeBody (inner + 1) ts := by
  simp only [closesBeforeBody, h]

theorem closesBeforeBody_closeParen {inner : Nat} (h : t.kind = .closeParen) :
    closesBeforeBody (inner + 1) (t :: ts) = closesBeforeBody inner ts := by
  simp only [closesBeforeBody, h]

theorem closesBeforeBody_matching (h : t.kind = .closeParen) :
    closesBeforeBody 0 (t :: ts) = decide (headKind ts = .openCurly) := by
  simp only [closesBeforeBody, h]
  cases ts with
  | nil => rfl
  | cons s ts => exact decide_eq_decide.2 Option.some_inj

theorem closesBeforeBody_other {inner : Nat} (hopen : t.kind ≠ .openParen)
    (hclose : t.kind ≠ .closeParen) (hend : t.kind ≠ .endOfInput) :
    closesBeforeBody inner (t :: ts) = closesBeforeBody inner ts := by
  obtain ⟨kind, value⟩ := t
  cases kind with
  | openParen => exact absurd rfl hopen
  | closeParen => exact absurd rfl hclose
  | endOfInput => exact absurd rfl hend
  | _ => rfl

theorem closesBeforeBody_of_kind {inner : Nat} {kind : Kind} (h : t.kind = kind)
    (hkind : kind ∉ [Kind.openParen, .closeParen, .endOfInput]) :
    closesBeforeBody inner (t :: ts) = closesBeforeBody inner ts := by
  simp only [List.mem_cons, List.not_mem_nil, or_false, not_or] at hkind
  obtain ⟨hopen, hclose, hend⟩ := hkind
  rw [← h] at hopen hclose hend
  exact closesBeforeBody_other hopen hclose hend

/-! ## A closing parenthesis before a brace -/

theorem opensBody_cons : opensBody (t :: ts) =
    ((decide (t.kind = .closeParen) && decide (headKind ts = .openCurly)) || opensBody ts) := by
  cases ts with
  | nil => simp [opensBody]
  | cons u us => rfl

theorem opensBody_append : opensBody (ts ++ us) = (opensBody ts ||
    (decide (lastKind ts = .closeParen) && decide (headKind us = .openCurly)) || opensBody us) := by
  induction ts with
  | nil => simp [opensBody, lastKind]
  | cons t ts ih =>
    cases ts with
    | nil =>
      have hsingle : opensBody [t] = false := rfl
      rw [List.singleton_append, opensBody_cons, hsingle, Bool.false_or]
      rfl
    | cons s ts =>
      rw [List.cons_append, opensBody_cons, ih, opensBody_cons (t := t), Bool.or_assoc, Bool.or_assoc,
        Bool.or_assoc]
      rfl

theorem opensBody_of_closesBeforeBody {inner : Nat} (h : closesBeforeBody inner ts) :
    opensBody ts := by
  induction ts generalizing inner with
  | nil => cases h
  | cons t ts ih =>
    rw [opensBody_cons]
    by_cases hopen : t.kind = .openParen
    · rw [closesBeforeBody_openParen hopen] at h
      rw [ih h, Bool.or_true]
    · by_cases hclose : t.kind = .closeParen
      · cases inner with
        | zero =>
          rw [closesBeforeBody_matching hclose] at h
          rw [hclose, h]
          rfl
        | succ inner =>
          rw [closesBeforeBody_closeParen hclose] at h
          rw [ih h, Bool.or_true]
      · by_cases hend : t.kind = .endOfInput
        · simp only [closesBeforeBody, hend, Bool.false_eq_true] at h
        · rw [closesBeforeBody_other hopen hclose hend] at h
          rw [ih h, Bool.or_true]

/-! ## What the two lookaheads find -/

theorem scansForward_iff : scansForward ts ↔
    headKind ts = .identifier ∧ (∃ t ∈ ts, t.kind = .openParen) ∧ opensBody ts := by
  cases ts with
  | nil => simp [scansForward]
  | cons t ts => simp [scansForward, and_assoc]

theorem opensDeclaration_iff : opensDeclaration ts ↔ ∃ name paren rest,
    ts = name :: paren :: rest ∧ name.kind = .identifier ∧ paren.kind = .openParen ∧
      closesBeforeBody 0 rest := by
  match ts with
  | [] => simp [opensDeclaration]
  | [name] => simp [opensDeclaration]
  | name :: paren :: rest => simp [opensDeclaration, and_assoc]

theorem afterAsync_eq (ts : List Terminal) :
    afterAsync ts = ts ∨ ∃ t, isAsyncWord t ∧ ts = t :: afterAsync ts := by
  cases ts with
  | nil => exact .inl rfl
  | cons t ts =>
    rw [afterAsync]
    split
    next h => exact .inr ⟨t, h, rfl⟩
    next => exact .inl rfl

theorem kind_of_isAsyncWord (h : isAsyncWord t) : t.kind = .identifier := by
  simp only [isAsyncWord, Bool.and_eq_true, decide_eq_true_eq] at h
  exact h.1

theorem headKind_of_opensDeclaration (h : opensDeclaration ts) : headKind ts = .identifier := by
  obtain ⟨name, paren, rest, rfl, hname, _⟩ := opensDeclaration_iff.1 h
  exact hname

theorem scansForward_of_opensDeclaration (h : opensDeclaration ts) : scansForward ts := by
  obtain ⟨name, paren, rest, rfl, hname, hparen, hbody⟩ := opensDeclaration_iff.1 h
  refine scansForward_iff.2 ⟨hname, ⟨paren, .tail name (.head rest), hparen⟩, ?_⟩
  rw [opensBody_cons, opensBody_cons, opensBody_of_closesBeforeBody hbody, Bool.or_true,
    Bool.or_true]

/-- What has the shape of a declaration is found by the forward scan. -/
theorem scansForward_of_hasShape (h : hasShape ts) : scansForward ts := by
  rw [hasShape] at h
  rcases afterAsync_eq ts with hsame | ⟨t, hasync, hts⟩
  · rw [hsame] at h
    exact scansForward_of_opensDeclaration h
  · obtain ⟨_, ⟨paren, hmem, hparen⟩, hbody⟩ :=
      scansForward_iff.1 (scansForward_of_opensDeclaration h)
    rw [hts]
    refine scansForward_iff.2 ⟨kind_of_isAsyncWord hasync, ⟨paren, .tail t hmem, hparen⟩, ?_⟩
    rw [opensBody_cons, hbody, Bool.or_true]

theorem recognises_of_hasShape (mode : Detection) (h : hasShape ts) : mode.recognises ts := by
  cases mode with
  | forwardScan => exact scansForward_of_hasShape h
  | anchored => exact h

/-- The forward scan finds all that is found. -/
theorem scansForward_of_recognises {mode : Detection} (h : mode.recognises ts) :
    scansForward ts := by
  cases mode with
  | forwardScan => exact h
  | anchored => exact scansForward_of_hasShape h

/-- A declaration starts with a name. -/
theorem headKind_of_recognises {mode : Detection} (h : mode.recognises ts) :
    headKind ts = .identifier := (scansForward_iff.1 (scansForward_of_recognises h)).1

/-! ## The end mark -/

theorem closesBeforeBody_concat_end {inner : Nat} (h : t.kind = .endOfInput) :
    closesBeforeBody inner (ts ++ [t]) = closesBeforeBody inner ts := by
  induction ts generalizing inner with
  | nil => simp only [List.nil_append, closesBeforeBody, h]
  | cons s ts ih =>
    rw [List.cons_append]
    by_cases hopen : s.kind = .openParen
    · rw [closesBeforeBody_openParen hopen, closesBeforeBody_openParen hopen, ih]
    · by_cases hclose : s.kind = .closeParen
      · cases inner with
        | zero =>
          rw [closesBeforeBody_matching hclose, closesBeforeBody_matching hclose]
          cases ts with
          | nil => rw [List.nil_append, headKind_cons, headKind_nil, h]
          | cons s ts => rfl
        | succ inner =>
          rw [closesBeforeBody_closeParen hclose, closesBeforeBody_closeParen hclose, ih]
      · by_cases hend : s.kind = .endOfInput
        · simp only [closesBeforeBody, hend]
        · rw [closesBeforeBody_other hopen hclose hend, closesBeforeBody_other hopen hclose hend, ih]

theorem opensDeclaration_concat_end (h : t.kind = .endOfInput) :
    opensDeclaration (ts ++ [t]) = opensDeclaration ts := by
  match ts with
  | [] => rfl
  | [s] => simp [opensDeclaration, h]
  | s :: s' :: ts => simp only [List.cons_append, opensDeclaration, closesBeforeBody_concat_end h]

/-- The end mark plays no part in a lookahead. -/
theorem recognises_concat_end (mode : Detection) (h : t.kind = .endOfInput) :
    mode.recognises (ts ++ [t]) = mode.recognises ts := by
  cases mode with
  | forwardScan =>
    rw [recognises, recognises, Bool.eq_iff_iff, scansForward_iff, scansForward_iff, opensBody_append]
    cases ts <;> simp [h, opensBody]
  | anchored =>
    rw [recognises, recognises, hasShape, hasShape]
    cases ts with
    | nil => simp [afterAsync, isAsyncWord, h, opensDeclaration]
    | cons s ts =>
      rw [List.cons_append, afterAsync, afterAsync]
      split
      next => exact opensDeclaration_concat_end h
      next =>
        show opensDeclaration (s :: ts ++ [t]) = opensDeclaration (s :: ts)
        exact opensDeclaration_concat_end h

end Detection

/-! ## Expressions -/

namespace Derives

open Detection

variable {phrase : Phrase} {ts : List Terminal}

/-- An expression closes the parentheses that it opens. -/
theorem closesBeforeBody_append (h : Derives phrase ts) (inner : Nat) (rest : List Terminal) :
    closesBeforeBody inner (ts ++ rest) = closesBeforeBody inner rest := by
  have hop (op : BinaryOp) : op.kind ∉ [Kind.openParen, .closeParen, .endOfInput] := by
    cases op <;> decide
  -- The parenthesis of a group or a call is closed with the rest still in view.
  have hpair {l r : Terminal} {us : List Terminal} (hl : l.kind = .openParen)
      (hr : r.kind = .closeParen)
      (ih : ∀ inner rest, closesBeforeBody inner (us ++ rest) = closesBeforeBody inner rest)
      (inner : Nat) (rest : List Terminal) :
      closesBeforeBody inner (l :: (us ++ r :: rest)) = closesBeforeBody inner rest := by
    rw [closesBeforeBody_openParen hl, ih, closesBeforeBody_closeParen hr]
  induction h generalizing inner rest with
  | name ht | string ht | shorthand ht => exact closesBeforeBody_of_kind ht (by decide)
  | number ht => exact closesBeforeBody_of_kind ht (by decide)
  | group hl _ hr ih =>
    rw [List.cons_append, List.append_assoc, List.singleton_append]
    exact hpair hl hr ih inner rest
  | loosen _ _ ih => exact ih inner rest
  | dot _ hd _ iho ihn =>
    rw [List.append_assoc, iho, List.cons_append, closesBeforeBody_of_kind hd (by decide), ihn]
  | index _ hl _ hr iho ihp =>
    rw [List.append_assoc, iho, List.cons_append, closesBeforeBody_of_kind hl (by decide),
      List.append_assoc, ihp, List.singleton_append, closesBeforeBody_of_kind hr (by decide)]
  | apply _ hl _ hr ihf ihes =>
    rw [List.append_assoc, ihf, List.cons_append, List.append_assoc, List.singleton_append]
    exact hpair hl hr ihes inner rest
  | @binary _ op _ _ _ _ _ _ _ ht _ ihl ihr =>
    rw [List.append_assoc, ihl, List.cons_append, closesBeforeBody_of_kind ht (hop op), ihr]
  | object hl _ hr ih =>
    rw [List.cons_append, closesBeforeBody_of_kind hl (by decide), List.append_assoc, ih,
      List.singleton_append, closesBeforeBody_of_kind hr (by decide)]
  | assign _ ht _ iht ihv =>
    rw [List.append_assoc, iht, List.cons_append, closesBeforeBody_of_kind ht (by decide), ihv]
  | noArguments => rfl
  | lastArgument _ ih => exact ih inner rest
  | moreArguments _ ht _ ihe ihes =>
    rw [List.append_assoc, ihe, List.cons_append, closesBeforeBody_of_kind ht (by decide), ihes]
  | entry ht hcolon _ ih =>
    rw [List.cons_append, closesBeforeBody_of_kind ht (by decide), List.cons_append,
      closesBeforeBody_of_kind hcolon (by decide), ih]
  | noProperties => rfl
  | lastProperty _ ih => exact ih inner rest
  | moreProperties _ ht _ ihp ihps =>
    rw [List.append_assoc, ihp, List.cons_append, closesBeforeBody_of_kind ht (by decide), ihps]

/-- No expression has a closing parenthesis before a brace. -/
theorem opensBody_eq_false (h : Derives phrase ts) : opensBody ts = false := by
  have hop (op : BinaryOp) : op.kind ≠ .closeParen ∧ op.kind ≠ .openCurly := by
    cases op <;> decide
  -- Where two parts meet, one of the two kinds is none of a body's beginning.
  induction h with
  | name ht | string ht | shorthand ht => rfl
  | number ht => rfl
  | loosen _ _ ih => exact ih
  | group hl _ hr ih => simp [opensBody_cons, opensBody_append, opensBody, ih, hl, hr]
  | dot _ hd _ iho ihn => simp [opensBody_cons, opensBody_append, iho, ihn, hd]
  | index _ hl _ hr iho ihp =>
    simp [opensBody_cons, opensBody_append, opensBody, iho, ihp, hl, hr]
  | apply _ hl _ hr ihf ihes =>
    simp [opensBody_cons, opensBody_append, opensBody, ihf, ihes, hl, hr]
  | @binary _ op _ _ _ _ _ _ _ ht _ ihl ihr =>
    simp [opensBody_cons, opensBody_append, ihl, ihr, ht, hop op]
  | object hl _ hr ih => simp [opensBody_cons, opensBody_append, opensBody, ih, hl, hr]
  | assign _ ht _ iht ihv => simp [opensBody_cons, opensBody_append, iht, ihv, ht]
  | noArguments => rfl
  | lastArgument _ ih => exact ih
  | moreArguments _ ht _ ihe ihes => simp [opensBody_cons, opensBody_append, ihe, ihes, ht]
  | entry ht hcolon _ ih => simp [opensBody_cons, ih, ht, hcolon]
  | noProperties => rfl
  | lastProperty _ ih => exact ih
  | moreProperties _ ht _ ihp ihps => simp [opensBody_cons, opensBody_append, ihp, ihps, ht]

end Derives

end Scriptlet
