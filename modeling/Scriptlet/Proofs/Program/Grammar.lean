import Scriptlet.Program.Parse
import Scriptlet.Proofs.Expr.Complete
import Scriptlet.Proofs.Program.Lookahead

/-!
# The grammar of programs

`Reads mode part ts rest` says that a statement or a body consists of the
terminals `ts` where `rest` follows.  What follows is part of the relation,
since a statement ends where nothing goes on it, and since a bare expression must
not look like a declaration to the lookahead of `mode`.  A declaration looks like
one to either lookahead, so no condition is put on it (`Opens.hasShape`).

A binding without a value ends the source.
-/

namespace Scriptlet

open Token (Kind)
open Scriptlet.Parser (Stands Heading parameterNames)

/-! ## Headings -/

/-- What stands before the body of a declaration consists of some terminals.  The
word `async` is a name only behind the modifier. -/
inductive Opens : Heading → List Terminal → Prop where
  /-- `name(parameters) {` -/
  | plain {t l r b : Terminal} {es : List Expr} {names : List String} {us : List Terminal}
      (hasync : Detection.isAsyncWord t = false) (ht : t.kind = .identifier)
      (hl : l.kind = .openParen) (hes : Derives (.arguments es) us)
      (hnames : parameterNames es = .ok names) (hr : r.kind = .closeParen)
      (hb : b.kind = .openCurly) : Opens ⟨false, t.value, names⟩ (t :: l :: (us ++ [r, b]))
  /-- `async name(parameters) {` -/
  | async {a t l r b : Terminal} {es : List Expr} {names : List String} {us : List Terminal}
      (hasync : Detection.isAsyncWord a) (ht : t.kind = .identifier)
      (hl : l.kind = .openParen) (hes : Derives (.arguments es) us)
      (hnames : parameterNames es = .ok names) (hr : r.kind = .closeParen)
      (hb : b.kind = .openCurly) : Opens ⟨true, t.value, names⟩ (a :: t :: l :: (us ++ [r, b]))

namespace Opens

variable {head : Heading} {ts : List Terminal}

theorem headKind_eq (h : Opens head ts) : headKind ts = .identifier := by
  cases h with
  | plain _ ht => exact ht
  | async hasync => exact Detection.kind_of_isAsyncWord hasync

theorem ne_nil (h : Opens head ts) : ts ≠ [] := by
  rintro rfl
  cases h

theorem opensDeclaration {t l r b : Terminal} {es : List Expr} {us : List Terminal}
    (ht : t.kind = .identifier) (hl : l.kind = .openParen) (hes : Derives (.arguments es) us)
    (hr : r.kind = .closeParen) (hb : b.kind = .openCurly) (rest : List Terminal) :
    Detection.opensDeclaration (t :: l :: (us ++ [r, b]) ++ rest) := by
  refine Detection.opensDeclaration_iff.2 ⟨t, l, us ++ [r, b] ++ rest, rfl, ht, hl, ?_⟩
  rw [List.append_assoc, hes.closesBeforeBody_append]
  exact (Detection.closesBeforeBody_matching hr).trans (decide_eq_true hb)

/-- A heading has the shape of a declaration, whatever follows it. -/
theorem hasShape (h : Opens head ts) (rest : List Terminal) : Detection.hasShape (ts ++ rest) := by
  cases h with
  | plain hasync ht hl hes _ hr hb =>
    rw [Detection.hasShape, List.cons_append, Detection.afterAsync, hasync]
    exact opensDeclaration ht hl hes hr hb rest
  | async hasync ht hl hes _ hr hb =>
    rw [Detection.hasShape, List.cons_append, Detection.afterAsync, hasync]
    exact opensDeclaration ht hl hes hr hb rest

theorem kind_ne_end (h : Opens head ts) : ∀ t ∈ ts, t.kind ≠ .endOfInput := by
  have hbetween {l r b : Terminal} {es : List Expr} {us : List Terminal}
      (hl : l.kind = .openParen) (hes : Derives (.arguments es) us) (hr : r.kind = .closeParen)
      (hb : b.kind = .openCurly) : ∀ t ∈ l :: (us ++ [r, b]), t.kind ≠ .endOfInput := by
    have hinner := hes.kind_ne_end
    simp_all [or_imp]
  cases h with
  | plain _ ht hl hes _ hr hb =>
    intro t hmem
    rcases List.mem_cons.1 hmem with rfl | hmem
    · simp [ht]
    · exact hbetween hl hes hr hb t hmem
  | async hasync ht hl hes _ hr hb =>
    intro t hmem
    rcases List.mem_cons.1 hmem with rfl | hmem
    · simp [Detection.kind_of_isAsyncWord hasync]
    · rcases List.mem_cons.1 hmem with rfl | hmem
      · simp [ht]
      · exact hbetween hl hes hr hb t hmem

end Opens

/-! ## Statements and bodies -/

/-- A part of a program. -/
inductive Part where
  /-- A statement. -/
  | statement (s : Stmt)
  /-- The statements of a body. -/
  | body (ss : List Stmt)

/-- A part consists of some terminals where others follow. -/
inductive Reads (mode : Detection) : Part → List Terminal → List Terminal → Prop where
  /-- `let name = value`, or the same with `const`. -/
  | binding {w t q : Terminal} {e : Expr} {ts rest : List Terminal}
      (hw : w.kind = .letWord ∨ w.kind = .constWord) (ht : t.kind = .identifier)
      (hq : q.kind = .assignment) (he : Stands e ts rest) :
      Reads mode (.statement (.binding t.value (w.kind = .constWord) (some e)))
        (w :: t :: q :: ts) rest
  /-- `let name` at the end of the source. -/
  | bareBinding {w t : Terminal} (hw : w.kind = .letWord) (ht : t.kind = .identifier) :
      Reads mode (.statement (.binding t.value false none)) [w, t] []
  /-- A function declaration. -/
  | function {close : Terminal} {head : Heading} {ss : List Stmt} {hs bs rest : List Terminal}
      (hopens : Opens head hs) (hbody : Reads mode (.body ss) bs (close :: rest))
      (hclose : close.kind = .closeCurly) :
      Reads mode (.statement (.function head.name head.parameters head.isAsync ss))
        (hs ++ (bs ++ [close])) rest
  /-- A bare expression, which must not look like a declaration. -/
  | expression {e : Expr} {ts rest : List Terminal} (he : Stands e ts rest)
      (hmode : mode.recognises (ts ++ rest) = false) :
      Reads mode (.statement (.expression e)) ts rest
  /-- No statement. -/
  | nil {rest : List Terminal} : Reads mode (.body []) [] rest
  /-- A statement and more of them. -/
  | cons {s : Stmt} {ss : List Stmt} {ts us rest : List Terminal}
      (hs : Reads mode (.statement s) ts (us ++ rest)) (hss : Reads mode (.body ss) us rest) :
      Reads mode (.body (s :: ss)) (ts ++ us) rest

/-- The kinds with which a statement starts. -/
def statementKinds : List Kind :=
  [.identifier, .number, .string, .openParen, .openCurly, .letWord, .constWord]

/-- An expression starts as a statement does. -/
theorem Derives.headKind_mem_statementKinds {level : Level} {e : Expr} {ts : List Terminal}
    (h : Derives (.expr level e) ts) : headKind ts ∈ statementKinds := by
  rcases h.headKind_mem with hmem | ⟨hcurly, _⟩
  · simp only [List.mem_cons, List.not_mem_nil, or_false] at hmem
    rcases hmem with h | h | h | h <;> rw [h] <;> decide
  · rw [hcurly]
    decide

namespace Reads

variable {mode : Detection} {s : Stmt} {ts rest : List Terminal}

theorem ne_nil (h : Reads mode (.statement s) ts rest) : ts ≠ [] := by
  cases h with
  | binding | bareBinding => exact List.cons_ne_nil _ _
  | function hopens =>
    intro hnil
    exact hopens.ne_nil (List.append_eq_nil_iff.1 hnil).1
  | expression he => exact he.derives.ne_nil

/-- Only a body without statements is empty. -/
theorem eq_nil {ss : List Stmt} (h : Reads mode (.body ss) ts rest) (hempty : ts = []) :
    ss = [] := by
  cases h with
  | nil => rfl
  | cons hs => exact absurd (List.append_eq_nil_iff.1 hempty).1 hs.ne_nil

/-- A binding without a value is not constant and ends the source. -/
theorem eq_of_bareBinding {name : String} {constant : Bool}
    (h : Reads mode (.statement (.binding name constant none)) ts rest) :
    constant = false ∧ rest = [] := by
  generalize hpart : Part.statement (.binding name constant none) = part at h
  cases h with
  | bareBinding =>
    cases hpart
    exact ⟨rfl, rfl⟩
  | _ => cases hpart

theorem headKind_mem (h : Reads mode (.statement s) ts rest) : headKind ts ∈ statementKinds := by
  cases h with
  | binding hw =>
    rcases hw with hw | hw <;> simp [hw, statementKinds]
  | bareBinding hw => simp [hw, statementKinds]
  | function hopens =>
    rw [headKind_append _ hopens.ne_nil, hopens.headKind_eq]
    decide
  | expression he => exact he.derives.headKind_mem_statementKinds

/-- A declaration consists of its heading, its body and a brace. -/
theorem exists_heading (h : Reads mode (.statement s) ts rest) (hform : s.form = .function) :
    ∃ head ss hs bs close, s = .function head.name head.parameters head.isAsync ss ∧
      ts = hs ++ (bs ++ [close]) ∧ Opens head hs ∧ Reads mode (.body ss) bs (close :: rest) ∧
      close.kind = .closeCurly := by
  cases h with
  | binding | bareBinding | expression => cases hform
  | function hopens hbody hclose => exact ⟨_, _, _, _, _, rfl, rfl, hopens, hbody, hclose⟩

theorem kind_ne_end {part : Part} (h : Reads mode part ts rest) :
    ∀ t ∈ ts, t.kind ≠ .endOfInput := by
  induction h with
  | binding hw ht hq he =>
    have hinner := he.derives.kind_ne_end
    rcases hw with hw | hw <;> simp_all [or_imp]
  | bareBinding hw ht => simp_all
  | function hopens _ hclose ih =>
    have hheading := hopens.kind_ne_end
    simp_all [or_imp]
  | expression he => exact he.derives.kind_ne_end
  | nil => simp
  | cons _ _ ihs ihss =>
    intro t hmem
    exact (List.mem_append.1 hmem).elim (ihs t) (ihss t)

/-- Either lookahead tells a declaration from what is none. -/
theorem recognises_eq (h : Reads mode (.statement s) ts rest) :
    mode.recognises (ts ++ rest) = decide (s.form = .function) := by
  have hother {k : Kind} (hk : headKind (ts ++ rest) = k) (hne : k ≠ .identifier) :
      mode.recognises (ts ++ rest) = false := by
    rw [Bool.eq_false_iff]
    intro hrecognises
    exact hne (hk.symm.trans (Detection.headKind_of_recognises hrecognises))
  cases h with
  | binding hw =>
    rcases hw with hw | hw
    · exact hother (by exact hw) (by decide)
    · exact hother (by exact hw) (by decide)
  | bareBinding hw => exact hother (by exact hw) (by decide)
  | function hopens =>
    rw [List.append_assoc]
    exact Detection.recognises_of_hasShape mode (hopens.hasShape _)
  | expression _ hmode => exact hmode

end Reads

end Scriptlet
