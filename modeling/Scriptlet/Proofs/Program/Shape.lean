import Mathlib.Data.List.TakeDrop
import Scriptlet.Proofs.Program.Lookahead

/-!
# The shape of a declaration

The anchored lookahead asks for a name, behind the word `async` or in front, and for a
parenthesis that is closed right before a `{`.  The place where it is closed is the first one up
to which as many parentheses are closed as are opened, and no end mark may come before it
(`Detection.detects_anchored_iff`).

The lookahead follows the parentheses that are open inside the outer one.  A scan that counts the
outer one, too, starts at zero and lowers its counter at every `)`.  `counts` is that scan, and it
has no answer where the counter would fall below zero.  This never happens.
-/

namespace Scriptlet.Detection

open Token (Kind)

/-! ## Counting parentheses -/

/-- Some kinds have as many parentheses that close as parentheses that open, and some more. -/
def ClosesMore (more : Nat) (kinds : List Kind) : Prop :=
  kinds.count .closeParen = kinds.count .openParen + more

/-- Behind as many kinds there stands the parenthesis that closes the innermost one of those that
are open, with `inner` more inside it, and a `{` behind that one. -/
structure ClosesAt (inner : Nat) (kinds : List Kind) (count : Nat) : Prop where
  /-- All are closed, and one more. -/
  closed : ClosesMore (inner + 1) (kinds.take (count + 1))
  /-- They are not closed before. -/
  first : ∀ n, n < count → ¬ ClosesMore (inner + 1) (kinds.take (n + 1))
  /-- The input does not end before. -/
  inside : .endOfInput ∉ kinds.take (count + 1)
  /-- A `{` comes next. -/
  body : kinds[count + 1]? = some .openCurly

/-- Over a kind that leaves `m` parentheses open the scan goes on with these. -/
theorem exists_closesAt_cons {kind : Kind} {kinds : List Kind} {inner m : Nat}
    (hkind : [kind].count .closeParen + m = [kind].count .openParen + inner)
    (hend : kind ≠ .endOfInput) :
    (∃ n, ClosesAt inner (kind :: kinds) n) ↔ ∃ n, ClosesAt m kinds n := by
  have hcount (k : Kind) (n : Nat) : ((kind :: kinds).take (n + 1)).count k =
      [kind].count k + (kinds.take n).count k := by
    rw [List.take_succ_cons, ← List.count_append, List.singleton_append]
  have hmore (n : Nat) : ClosesMore (inner + 1) ((kind :: kinds).take (n + 1)) ↔
      ClosesMore (m + 1) (kinds.take n) := by
    rw [ClosesMore, ClosesMore, hcount, hcount]
    omega
  have hnone : ¬ ClosesMore (m + 1) (kinds.take 0) := by
    simp [ClosesMore]
  constructor
  · rintro ⟨n, h⟩
    cases n with
    | zero => exact absurd ((hmore 0).1 h.closed) hnone
    | succ n =>
      refine ⟨n, (hmore _).1 h.closed, fun i hi => ?_, fun hmem => ?_, ?_⟩
      · exact fun hclosed => h.first (i + 1) (by omega) ((hmore _).2 hclosed)
      · exact h.inside (List.mem_cons_of_mem kind hmem)
      · exact h.body
  · rintro ⟨n, h⟩
    refine ⟨n + 1, (hmore _).2 h.closed, fun i hi => ?_, ?_, h.body⟩
    · cases i with
      | zero => exact fun hclosed => hnone ((hmore 0).1 hclosed)
      | succ i => exact fun hclosed => h.first i (by omega) ((hmore _).1 hclosed)
    · rw [List.take_succ_cons, List.mem_cons, not_or]
      exact ⟨fun h' => hend h'.symm, h.inside⟩

/-- The outermost parenthesis is closed by the first one that closes anything. -/
theorem exists_closesAt_matching {kinds : List Kind} :
    (∃ n, ClosesAt 0 (.closeParen :: kinds) n) ↔ kinds.head? = some .openCurly := by
  have hclosed : ClosesMore (0 + 1) ((Kind.closeParen :: kinds).take (0 + 1)) := rfl
  constructor
  · rintro ⟨n, h⟩
    cases n with
    | zero =>
      rw [List.head?_eq_getElem?]
      exact h.body
    | succ n => exact absurd hclosed (h.first 0 (Nat.succ_pos n))
  · intro hbody
    rw [List.head?_eq_getElem?] at hbody
    exact ⟨0, hclosed, fun n hn => absurd hn (Nat.not_lt_zero n), by simp, hbody⟩

/-- The scan finds the first place where as many parentheses are closed as were open. -/
theorem closesBeforeBody_iff {inner : Nat} {ts : List Terminal} :
    closesBeforeBody inner ts ↔ ∃ n, ClosesAt inner (ts.map Terminal.kind) n := by
  induction ts generalizing inner with
  | nil =>
    refine iff_of_false (by simp [closesBeforeBody]) ?_
    rintro ⟨n, h⟩
    cases h.body
  | cons t ts ih =>
    rw [List.map_cons]
    by_cases hopen : t.kind = .openParen
    · rw [closesBeforeBody_openParen hopen, ih,
        exists_closesAt_cons (m := inner + 1) (by simp [hopen]; omega) (by simp [hopen])]
    · by_cases hclose : t.kind = .closeParen
      · cases inner with
        | zero =>
          rw [hclose, exists_closesAt_matching, closesBeforeBody_matching hclose,
            decide_eq_true_iff]
          cases ts with
          | nil => simp
          | cons u us => simp
        | succ inner =>
          rw [closesBeforeBody_closeParen hclose, ih,
            exists_closesAt_cons (m := inner) (by simp [hclose]; omega) (by simp [hclose])]
      · by_cases hend : t.kind = .endOfInput
        · refine iff_of_false (by simp only [closesBeforeBody, hend]; decide) ?_
          rintro ⟨n, h⟩
          exact h.inside (by rw [List.take_succ_cons, hend]; exact .head _)
        · rw [closesBeforeBody_other hopen hclose hend, ih,
            exists_closesAt_cons (m := inner) (by simp [hopen, hclose]) hend]

/-! ## A counter that starts at zero -/

/-- Whether the parentheses that are open are closed right before a `{`, found with a counter of
these parentheses.  There is no answer where a counter of zero would have to be lowered. -/
def counts : Nat → List Kind → Option Bool
  | _, [] => some false
  | depth, .openParen :: kinds => counts (depth + 1) kinds
  | 0, .closeParen :: _ => none
  | depth + 1, .closeParen :: kinds =>
      if depth = 0 then some (kinds.head? = some .openCurly) else counts depth kinds
  | _, .endOfInput :: _ => some false
  | depth, _ :: kinds => counts depth kinds

/-- Above zero the counter is one more than the parentheses that are open inside the outer one. -/
theorem counts_succ (inner : Nat) (ts : List Terminal) :
    counts (inner + 1) (ts.map Terminal.kind) = some (closesBeforeBody inner ts) := by
  induction ts generalizing inner with
  | nil => rfl
  | cons t ts ih =>
    obtain ⟨kind, value⟩ := t
    cases kind with
    | openParen => exact ih (inner + 1)
    | closeParen =>
      cases inner with
      | zero =>
        simp [counts, closesBeforeBody, List.head?_map]
      | succ inner => exact ih inner
    | endOfInput => rfl
    | _ => exact ih inner

/-! ## The shape, place by place -/

/-- The place of the name: behind the word `async`, if that comes first. -/
def namePlace (tokens : List Token) : Nat :=
  if tokens.head?.any fun t => t.kind = .identifier && t.value = "async" then 1 else 0

/-- Whether some tokens have the shape of a declaration, found with a counter. -/
def countsShape (tokens : List Token) : Option Bool :=
  let kinds := tokens.map Token.kind
  let place := namePlace tokens
  if kinds[place]? = some .identifier ∧ kinds[place + 1]? = some .openParen then
    counts 0 (kinds.drop (place + 1))
  else some false

theorem afterAsync_eq_drop (tokens : List Token) :
    afterAsync (tokens.map Token.terminal) =
      (tokens.drop (namePlace tokens)).map Token.terminal := by
  cases tokens with
  | nil => rfl
  | cons t tokens =>
    have hword : isAsyncWord t.terminal = (t.kind = .identifier && t.value = "async") := rfl
    rw [List.map_cons, afterAsync, namePlace, List.head?_cons, Option.any_some, hword]
    split
    · rw [List.drop_succ_cons, List.drop_zero]
    · rw [List.drop_zero, List.map_cons]

/-- The kinds of a name and of a parenthesis stand next to each other. -/
theorem exists_drop_eq_iff {kinds : List Kind} {place : Nat} :
    (∃ behind, kinds.drop place = .identifier :: .openParen :: behind) ↔
      kinds[place]? = some .identifier ∧ kinds[place + 1]? = some .openParen := by
  constructor
  · rintro ⟨behind, h⟩
    have hname : (kinds.drop place)[0]? = some .identifier := by rw [h]; rfl
    have hparen : (kinds.drop place)[1]? = some .openParen := by rw [h]; rfl
    rw [List.getElem?_drop] at hname hparen
    exact ⟨hname, hparen⟩
  · rintro ⟨hname, hparen⟩
    obtain ⟨hlt, hname⟩ := List.getElem?_eq_some_iff.1 hname
    obtain ⟨hlt', hparen⟩ := List.getElem?_eq_some_iff.1 hparen
    refine ⟨kinds.drop (place + 2), ?_⟩
    rw [List.drop_eq_getElem_cons hlt, List.drop_eq_getElem_cons hlt', hname, hparen]

theorem opensDeclaration_iff_kinds {ts : List Terminal} : opensDeclaration ts ↔
    ∃ behind, ts.map Terminal.kind = .identifier :: .openParen :: behind ∧
      ∃ n, ClosesAt 0 behind n := by
  rw [opensDeclaration_iff]
  constructor
  · rintro ⟨name, paren, rest, rfl, hname, hparen, hcloses⟩
    refine ⟨rest.map Terminal.kind, ?_, closesBeforeBody_iff.1 hcloses⟩
    rw [List.map_cons, List.map_cons, hname, hparen]
  · rintro ⟨_, hkinds, hcloses⟩
    obtain ⟨name, ts, rfl, hname, hkinds⟩ := List.map_eq_cons_iff.1 hkinds
    obtain ⟨paren, ts, rfl, hparen, rfl⟩ := List.map_eq_cons_iff.1 hkinds
    exact ⟨name, paren, ts, rfl, hname, hparen, closesBeforeBody_iff.2 hcloses⟩

/-- The anchored lookahead sees the kinds from the name on. -/
theorem detects_anchored_eq (tokens : List Token) : anchored.detects tokens =
    opensDeclaration ((tokens.drop (namePlace tokens)).map Token.terminal) := by
  rw [detects, recognises, hasShape, afterAsync_eq_drop]

theorem map_kind_drop (tokens : List Token) (place : Nat) :
    ((tokens.drop place).map Token.terminal).map Terminal.kind =
      (tokens.map Token.kind).drop place := by
  rw [List.map_map, List.map_drop]
  rfl

/-- The counter finds what the lookahead finds. -/
theorem countsShape_eq (tokens : List Token) :
    countsShape tokens = some (anchored.detects tokens) := by
  have hkinds := map_kind_drop tokens (namePlace tokens)
  rw [detects_anchored_eq, countsShape]
  split
  next h =>
    obtain ⟨behind, hdrop⟩ := exists_drop_eq_iff.2 h
    have hbehind : (tokens.map Token.kind).drop (namePlace tokens + 1) = .openParen :: behind := by
      rw [← List.drop_drop, hdrop, List.drop_succ_cons, List.drop_zero]
    rw [hdrop] at hkinds
    obtain ⟨name, ts, hts, hname, hkinds⟩ := List.map_eq_cons_iff.1 hkinds
    obtain ⟨paren, ts, rfl, hparen, rfl⟩ := List.map_eq_cons_iff.1 hkinds
    rw [hbehind, hts, counts, counts_succ, opensDeclaration, hname, hparen]
    rfl
  next h =>
    symm
    rw [Option.some_inj, Bool.eq_false_iff]
    intro hopens
    obtain ⟨behind, hdrop, _⟩ := opensDeclaration_iff_kinds.1 hopens
    exact h (exists_drop_eq_iff.1 ⟨behind, hkinds.symm.trans hdrop⟩)

/-- Where the parenthesis behind a name is closed, counted from the start of the tokens. -/
theorem exists_closesAt_iff {kinds behind : List Kind} {place : Nat}
    (h : kinds.drop place = .identifier :: .openParen :: behind) :
    (∃ n, ClosesAt 0 behind n) ↔
      ∃ j, place + 1 < j ∧ ClosesMore 0 (kinds.extract (place + 1) (j + 1)) ∧
        (∀ k, place + 1 < k → k < j → ¬ ClosesMore 0 (kinds.extract (place + 1) (k + 1))) ∧
        .endOfInput ∉ kinds.extract (place + 1) (j + 1) ∧ kinds[j + 1]? = some .openCurly := by
  have hextract (n : Nat) : kinds.extract (place + 1) (place + 2 + n + 1) =
      .openParen :: behind.take (n + 1) := by
    have hdrop : kinds.drop (place + 1) = .openParen :: behind := by
      rw [← List.drop_drop, h, List.drop_succ_cons, List.drop_zero]
    have hlength : place + 2 + n + 1 - (place + 1) = n + 1 + 1 := by omega
    rw [List.extract_eq_take_drop, hdrop, hlength, List.take_succ_cons]
  have hmore (n : Nat) : ClosesMore 0 (kinds.extract (place + 1) (place + 2 + n + 1)) ↔
      ClosesMore (0 + 1) (behind.take (n + 1)) := by
    rw [hextract]
    simp [ClosesMore]
  have hbody (n : Nat) : kinds[place + 2 + n + 1]? = behind[n + 1]? := by
    have hdrop : kinds.drop (place + 2) = behind := by
      rw [← List.drop_drop, h, List.drop_succ_cons, List.drop_succ_cons, List.drop_zero]
    rw [← hdrop, List.getElem?_drop, Nat.add_assoc]
  constructor
  · rintro ⟨n, hcloses⟩
    refine ⟨place + 2 + n, by omega, (hmore n).2 hcloses.closed, fun k hlt hk => ?_, ?_, ?_⟩
    · obtain ⟨m, rfl⟩ := Nat.exists_eq_add_of_le hlt
      rw [hmore]
      exact hcloses.first m (by omega)
    · rw [hextract]
      simp [hcloses.inside]
    · rw [hbody]
      exact hcloses.body
  · rintro ⟨j, hlt, hclosed, hfirst, hinside, hnext⟩
    obtain ⟨n, rfl⟩ := Nat.exists_eq_add_of_le hlt
    refine ⟨n, (hmore n).1 hclosed, fun m hm => ?_, fun hmem => ?_, ?_⟩
    · rw [← hmore]
      exact hfirst _ (by omega) (by omega)
    · rw [hextract] at hinside
      exact hinside (.tail _ hmem)
    · rw [← hbody]
      exact hnext

/-- The anchored lookahead finds just the shape of a declaration.  From the place of the name on
there are a name and a `(`, up to some later place, and to no place before, as many parentheses are
closed as are opened, the input does not end up to there, and a `{` comes next.  A counter of the
parentheses that are open finds the same, and it is never lowered at zero. -/
theorem detects_anchored_iff (tokens : List Token) :
    let kinds := tokens.map Token.kind
    let name := namePlace tokens
    (anchored.detects tokens ↔
      kinds[name]? = some .identifier ∧ kinds[name + 1]? = some .openParen ∧
        ∃ j, name + 1 < j ∧ ClosesMore 0 (kinds.extract (name + 1) (j + 1)) ∧
          (∀ k, name + 1 < k → k < j → ¬ ClosesMore 0 (kinds.extract (name + 1) (k + 1))) ∧
          .endOfInput ∉ kinds.extract (name + 1) (j + 1) ∧ kinds[j + 1]? = some .openCurly) ∧
    countsShape tokens = some (anchored.detects tokens) := by
  intro kinds name
  constructor
  · rw [detects_anchored_eq, opensDeclaration_iff_kinds, map_kind_drop, ← and_assoc,
      ← exists_drop_eq_iff]
    constructor
    · rintro ⟨behind, h, hcloses⟩
      exact ⟨⟨behind, h⟩, (exists_closesAt_iff h).1 hcloses⟩
    · rintro ⟨⟨behind, h⟩, hcloses⟩
      exact ⟨behind, h, (exists_closesAt_iff h).2 hcloses⟩
  · exact countsShape_eq tokens

end Scriptlet.Detection
