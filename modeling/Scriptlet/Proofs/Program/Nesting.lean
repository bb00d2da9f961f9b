import Mathlib
import Scriptlet.Proofs.Program.Complete

/-!
# Brackets are nested

A program that is read closes what it opens, in the order of a stack: a `(` by a `)`, and both a
`{` and a `[` by a `}`.  It has no `]` (`Program.nested_of_ofTokens`).

`nest` is one step of a reader that keeps the closing kinds it waits for.  An expression leaves
them as they are, whatever they are, and so does a statement (`Balanced`).  This is what lets the
parts be put together.
-/

namespace Scriptlet

open Token (Kind)

/-! ## Reading with a stack -/

/-- The closing kinds that are waited for behind a kind, the innermost one first, or nothing where
another one is waited for.  Nothing is closed by a `]`. -/
def nest (waiting : List Kind) : Kind → Option (List Kind)
  | .openParen => some (.closeParen :: waiting)
  | .openCurly | .openBracket => some (.closeCurly :: waiting)
  | .closeParen => if waiting.head? = some .closeParen then some waiting.tail else none
  | .closeCurly => if waiting.head? = some .closeCurly then some waiting.tail else none
  | .closeBracket => none
  | _ => some waiting

variable {waiting waiting' : List Kind} {kinds kinds' : List Kind}

theorem foldlM_nest_cons {kind : Kind} (h : nest waiting kind = some waiting') :
    (kind :: kinds).foldlM nest waiting = kinds.foldlM nest waiting' := by
  rw [List.foldlM_cons, h]
  rfl

theorem foldlM_nest_append (h : kinds.foldlM nest waiting = some waiting') :
    (kinds ++ kinds').foldlM nest waiting = kinds'.foldlM nest waiting' := by
  rw [List.foldlM_append, h]
  rfl

/-- No reading gets over a `]`. -/
theorem not_mem_of_foldlM_nest (h : kinds.foldlM nest waiting = some waiting') :
    .closeBracket ∉ kinds := by
  intro hmem
  obtain ⟨front, behind, rfl⟩ := List.append_of_mem hmem
  cases hfront : front.foldlM nest waiting with
  | none =>
    rw [List.foldlM_append, hfront] at h
    cases h
  | some waiting₁ =>
    rw [foldlM_nest_append hfront] at h
    cases h

/-- The kinds that neither open nor close anything. -/
def Token.Kind.isNeutral (kind : Kind) : Bool :=
  kind ∉ [.openParen, .openCurly, .openBracket, .closeParen, .closeCurly, .closeBracket]

theorem nest_of_isNeutral {kind : Kind} (h : kind.isNeutral) :
    nest waiting kind = some waiting := by
  cases kind <;> first | rfl | cases h

/-! ## Balanced terminals -/

/-- Some terminals close what they open, and nothing else. -/
def Balanced (ts : List Terminal) : Prop :=
  ∀ waiting, (ts.map Terminal.kind).foldlM nest waiting = some waiting

namespace Balanced

variable {t l r : Terminal} {ts us : List Terminal}

theorem nil : Balanced [] := fun _ => rfl

theorem append (hts : Balanced ts) (hus : Balanced us) : Balanced (ts ++ us) := by
  intro waiting
  rw [List.map_append, foldlM_nest_append (hts waiting)]
  exact hus waiting

theorem cons (ht : t.kind.isNeutral) (hts : Balanced ts) : Balanced (t :: ts) := by
  intro waiting
  rw [List.map_cons, foldlM_nest_cons (nest_of_isNeutral ht)]
  exact hts waiting

/-- Between an opening terminal and the one that closes it there may be anything balanced. -/
theorem enclosed {closer : Kind} (hl : ∀ waiting, nest waiting l.kind = some (closer :: waiting))
    (hts : Balanced ts) (hr : ∀ waiting, nest (closer :: waiting) r.kind = some waiting) :
    Balanced (l :: (ts ++ [r])) := by
  intro waiting
  rw [List.map_cons, foldlM_nest_cons (hl waiting), List.map_append, foldlM_nest_append (hts _)]
  exact foldlM_nest_cons (hr waiting)

theorem parens (hl : l.kind = .openParen) (hts : Balanced ts) (hr : r.kind = .closeParen) :
    Balanced (l :: (ts ++ [r])) :=
  enclosed (fun _ => by rw [hl]; rfl) hts fun _ => by rw [hr]; rfl

/-- A brace closes an access as it closes an object literal. -/
theorem braces (hl : l.kind = .openCurly ∨ l.kind = .openBracket) (hts : Balanced ts)
    (hr : r.kind = .closeCurly) : Balanced (l :: (ts ++ [r])) := by
  have hopen (waiting : List Kind) : nest waiting l.kind = some (.closeCurly :: waiting) := by
    rcases hl with hl | hl <;> (rw [hl]; rfl)
  exact enclosed hopen hts fun _ => by rw [hr]; rfl

end Balanced

/-! ## What the grammar derives -/

theorem Derives.balanced {phrase : Phrase} {ts : List Terminal} (h : Derives phrase ts) :
    Balanced ts := by
  induction h with
  | name ht | string ht | shorthand ht => exact .cons (by rw [ht]; rfl) .nil
  | number ht => exact .cons (by rw [ht]; rfl) .nil
  | group hl _ hr ih => exact .parens hl ih hr
  | loosen _ _ ih | lastArgument _ ih | lastProperty _ ih => exact ih
  | dot _ hd _ iho ihn => exact iho.append (.cons (by rw [hd]; rfl) ihn)
  | index _ hl _ hr iho ihp => exact iho.append (.braces (.inr hl) ihp hr)
  | apply _ hl _ hr ihf ihes => exact ihf.append (.parens hl ihes hr)
  | @binary _ op _ _ _ _ _ _ _ ht _ ihl ihr =>
    exact ihl.append (.cons (by rw [ht]; cases op <;> rfl) ihr)
  | object hl _ hr ih => exact .braces (.inl hl) ih hr
  | assign _ ht _ iht ihv => exact iht.append (.cons (by rw [ht]; rfl) ihv)
  | noArguments | noProperties => exact .nil
  | moreArguments _ ht _ ihe ihes => exact ihe.append (.cons (by rw [ht]; rfl) ihes)
  | entry ht hcolon _ ih => exact .cons (by rw [ht]; rfl) (.cons (by rw [hcolon]; rfl) ih)
  | moreProperties _ ht _ ihp ihps => exact ihp.append (.cons (by rw [ht]; rfl) ihps)

/-- Behind a heading the brace that closes the body is waited for. -/
theorem Opens.foldlM_nest {head : Parser.Heading} {ts : List Terminal} (h : Opens head ts)
    (waiting : List Kind) :
    (ts.map Terminal.kind).foldlM nest waiting = some (.closeCurly :: waiting) := by
  have hsignature {t l r b : Terminal} {us : List Terminal} (ht : t.kind = .identifier)
      (hl : l.kind = .openParen) (hus : Balanced us) (hr : r.kind = .closeParen)
      (hb : b.kind = .openCurly) :
      ((t :: l :: (us ++ [r, b])).map Terminal.kind).foldlM nest waiting =
        some (.closeCurly :: waiting) := by
    have hsplit : t :: l :: (us ++ [r, b]) = (t :: l :: (us ++ [r])) ++ [b] := by simp
    have hfront : Balanced (t :: l :: (us ++ [r])) := .cons (by rw [ht]; rfl) (.parens hl hus hr)
    rw [hsplit, List.map_append, foldlM_nest_append (hfront waiting)]
    refine foldlM_nest_cons ?_
    rw [hb]
    rfl
  cases h with
  | plain _ ht hl hes _ hr hb => exact hsignature ht hl hes.balanced hr hb
  | async hasync ht hl hes _ hr hb =>
    rw [List.map_cons, Detection.kind_of_isAsyncWord hasync, foldlM_nest_cons rfl]
    exact hsignature ht hl hes.balanced hr hb

theorem Reads.balanced {mode : Detection} {part : Part} {ts rest : List Terminal}
    (h : Reads mode part ts rest) : Balanced ts := by
  induction h with
  | binding hw ht hq he =>
    refine .cons ?_ (.cons (by rw [ht]; rfl) (.cons (by rw [hq]; rfl) he.derives.balanced))
    rcases hw with hw | hw <;> (rw [hw]; rfl)
  | bareBinding hw ht => exact .cons (by rw [hw]; rfl) (.cons (by rw [ht]; rfl) .nil)
  | function hopens _ hclose ih =>
    intro waiting
    rw [List.map_append, foldlM_nest_append (hopens.foldlM_nest waiting), List.map_append,
      foldlM_nest_append (ih _)]
    refine foldlM_nest_cons ?_
    rw [hclose]
    rfl
  | expression he => exact he.derives.balanced
  | nil => exact .nil
  | cons _ _ ihs ihss => exact ihs.append ihss

/-! ## Programs -/

namespace Program

variable {mode : Detection} {tokens : List Token} {p : Program}

/-- A program that is read is nested: read from the left with a stack, every closing token is the
one that is waited for, a `}` behind a `[`, and at the end none is.  There is no `]` in it. -/
theorem nested_of_ofTokens (h : ofTokens mode tokens = .ok p) :
    (tokens.map Token.kind).foldlM nest [] = some [] ∧ ∀ t ∈ tokens, t.kind ≠ .closeBracket := by
  obtain ⟨c, hc, hreads⟩ := ofTokens_eq_ok_iff.1 h
  obtain rfl := Cursor.remaining_of_ofTokens hc
  have hkinds : c.remaining.map Token.kind = c.terminals.map Terminal.kind ++ [.endOfInput] := by
    rw [Cursor.remaining, List.map_append, List.map_singleton, c.closing_isEnd, Cursor.terminals,
      List.map_map]
    rfl
  have hnested : (c.remaining.map Token.kind).foldlM nest [] = some [] := by
    rw [hkinds, foldlM_nest_append (hreads.balanced [])]
    rfl
  refine ⟨hnested, fun t ht hkind => ?_⟩
  exact not_mem_of_foldlM_nest hnested (List.mem_map.2 ⟨t, ht, hkind⟩)

/-- One sign closes an access, an object literal and a body here, one right behind the other. -/
theorem nested_of_ofTokens_braces : ∃ (tokens : List Token) (p : Program),
    Token.ofSource "" "f(x) \x7b y = \x7ba: b[(c)\x7d\x7d\x7d" = .ok tokens ∧
      ofTokens .anchored tokens = .ok p ∧
      (tokens.map Token.kind).foldlM nest [] = some [] ∧
      ∀ t ∈ tokens, t.kind ≠ .closeBracket := by
  have hrun : ∃ (tokens : List Token) (p : Program),
      Token.ofSource "" "f(x) \x7b y = \x7ba: b[(c)\x7d\x7d\x7d" = .ok tokens ∧
        ofTokens .anchored tokens = .ok p := ⟨_, _, by cbv, by cbv⟩
  obtain ⟨tokens, p, htokens, hread⟩ := hrun
  exact ⟨tokens, p, htokens, hread, nested_of_ofTokens hread⟩

end Program

end Scriptlet
