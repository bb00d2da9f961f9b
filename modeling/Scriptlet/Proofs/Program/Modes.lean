import Mathlib
import Scriptlet.Proofs.Program.Complete

/-!
# The two ways of recognising declarations

Whatever is read with the forward scan is read in the anchored way, too, as the
same program.  The forward scan goes wrong in one direction only: it takes a
statement for a declaration that is none, and then its heading cannot be read.
So in a program that was read with it the two lookaheads agree wherever a
statement starts, and those places are what `Visits` describes.
-/

namespace Scriptlet

open Token (Kind)

/-- A reading with the forward scan is one in the anchored way. -/
theorem Reads.anchored {part : Part} {ts rest : List Terminal}
    (h : Reads .forwardScan part ts rest) : Reads .anchored part ts rest := by
  induction h with
  | binding hw ht hq he => exact .binding hw ht hq he
  | bareBinding hw ht => exact .bareBinding hw ht
  | function hopens _ hclose ih => exact .function hopens ih hclose
  | @expression e ts rest he hmode =>
    refine .expression he ?_
    rw [Bool.eq_false_iff]
    intro hshape
    have hscan : Detection.forwardScan.recognises (ts ++ rest) :=
      Detection.scansForward_of_hasShape hshape
    rw [hmode] at hscan
    cases hscan
  | nil => exact .nil
  | cons _ _ ihs ihss => exact .cons ihs ihss

namespace Parser

/-- Where a run over a body asks for a statement, the body being ended by some
kinds: at its start, behind a statement that it read, and inside the body of a
declaration. -/
inductive Visits (mode : Detection) : (Kind → Bool) → Cursor → Cursor → Prop where
  /-- The first statement. -/
  | here {ends : Kind → Bool} {c : Cursor} (hopen : ends c.kind = false) : Visits mode ends c c
  /-- A later statement of the same body. -/
  | later {ends : Kind → Bool} {c c' d : Cursor} {s : Stmt} (hopen : ends c.kind = false)
      (hs : statement mode c = .ok s c') (hd : Visits mode ends c' d) : Visits mode ends c d
  /-- A statement inside the declaration that comes first. -/
  | inside {ends : Kind → Bool} {c b d : Cursor} {head : Heading} (hopen : ends c.kind = false)
      (hdetects : mode.detects c.remaining) (hhead : heading c = .ok head b)
      (hd : Visits mode endsBody b d) : Visits mode ends c d

/-- A body that is not over starts with a statement. -/
theorem exists_statement_of_reads {mode : Detection} {ends : Kind → Bool} {c c' : Cursor}
    {ss : List Stmt} {ts : List Terminal} (hopen : ends c.kind = false) (hended : ends c'.kind)
    (hpasses : c.Passes ts c') (hbody : Reads mode (.body ss) ts c'.terminals) :
    ∃ s ss' us vs c₁, c.Passes us c₁ ∧ c₁.Passes vs c' ∧
      Reads mode (.statement s) us c₁.terminals ∧ Reads mode (.body ss') vs c'.terminals := by
  cases hbody with
  | nil =>
    cases hpasses.eq_of_nil
    rw [hopen] at hended
    cases hended
  | cons hs hss =>
    obtain ⟨c₁, hfirst, hothers⟩ := hpasses.split
    rw [← hothers.terminals_eq] at hs
    exact ⟨_, _, _, _, c₁, hfirst, hothers, hs, hss⟩

/-- Wherever a run visits a body that it reads, a statement of the grammar
starts. -/
theorem Visits.reads {mode : Detection} {ends : Kind → Bool} {c d : Cursor}
    (h : Visits mode ends c d) : ∀ {ss : List Stmt} {ts : List Terminal} {c' : Cursor},
    c.Passes ts c' → ends c'.kind → Reads mode (.body ss) ts c'.terminals →
    ∃ s us rest, d.terminals = us ++ rest ∧ Reads mode (.statement s) us rest := by
  induction h with
  | here hopen =>
    intro ss ts c' hpasses hended hbody
    obtain ⟨s, _, us, _, c₁, hfirst, _, hs, _⟩ :=
      exists_statement_of_reads hopen hended hpasses hbody
    exact ⟨s, us, c₁.terminals, hfirst.terminals_eq, hs⟩
  | later hopen hrun _ ih =>
    intro ss ts c' hpasses hended hbody
    obtain ⟨s, _, us, _, c₁, hfirst, hothers, hs, hss⟩ :=
      exists_statement_of_reads hopen hended hpasses hbody
    have hread := statement_complete hs hfirst
    rw [hrun] at hread
    cases hread
    exact ih hothers hended hss
  | inside hopen hdetects hrun _ ih =>
    intro ss ts c' hpasses hended hbody
    obtain ⟨s, _, us, _, c₁, hfirst, _, hs, _⟩ :=
      exists_statement_of_reads hopen hended hpasses hbody
    rw [Detection.detects_remaining, recognises_of_reads hs hfirst] at hdetects
    obtain ⟨head, body, heads, inner, close, rfl, rfl, hopens, hinner, hclose⟩ :=
      hs.exists_heading (of_decide_eq_true hdetects)
    obtain ⟨c₂, hheading, hrest⟩ := hfirst.split
    obtain ⟨c₃, hstatements, hlast⟩ := hrest.split
    have hread := heading_complete hopens hheading
    rw [hrun] at hread
    cases hread
    have hended : endsBody c₃.kind := by
      rw [hlast.kind_eq, hclose]
      rfl
    have hafter : close :: c₁.terminals = c₃.terminals := by
      rw [hlast.terminals_eq]
      rfl
    rw [hafter] at hinner
    exact ih hstatements hended hinner

end Parser

namespace Program

open Scriptlet.Parser (Visits endsProgram)

/-- The anchored way goes on reading whatever the forward scan reads, as the same
program, and its lookahead finds nothing that the forward scan does not find.
Where a statement starts in a program that was read with the forward scan, the two
lookaheads agree. -/
theorem anchored_extends_forwardScan (tokens : List Token) :
    (∀ p, ofTokens .forwardScan tokens = .ok p → ofTokens .anchored tokens = .ok p) ∧
      (Detection.anchored.detects tokens → Detection.forwardScan.detects tokens) ∧
      ∀ p c d, ofTokens .forwardScan tokens = .ok p → Cursor.ofTokens tokens = .ok c →
        Visits .forwardScan endsProgram c d →
        Detection.anchored.detects d.remaining = Detection.forwardScan.detects d.remaining := by
  refine ⟨?_, Detection.scansForward_of_hasShape, ?_⟩
  · intro p h
    obtain ⟨c, hcursor, hreads⟩ := ofTokens_eq_ok_iff.1 h
    exact ofTokens_eq_ok_iff.2 ⟨c, hcursor, hreads.anchored⟩
  · intro p c d h hcursor hvisits
    obtain ⟨c', hcursor', hreads⟩ := ofTokens_eq_ok_iff.1 h
    rw [hcursor] at hcursor'
    cases hcursor'
    obtain ⟨last, hpasses, hlast⟩ := Cursor.exists_passes (List.append_nil c.terminals).symm
    rw [← hlast] at hreads
    have hended : endsProgram last.kind := by
      rw [Cursor.kind_eq_headKind, hlast]
      rfl
    obtain ⟨s, us, rest, hterminals, hstatement⟩ := hvisits.reads hpasses hended hreads
    rw [Detection.detects_remaining, Detection.detects_remaining, hterminals,
      hstatement.recognises_eq, hstatement.anchored.recognises_eq]

/-- A declaration with an empty body is visited and read in both ways. -/
theorem anchored_extends_forwardScan_declaration :
    ∃ (c : Cursor) (p : Program), ofTokens .forwardScan c.remaining = .ok p ∧
      Visits .forwardScan endsProgram c c ∧ Detection.anchored.detects c.remaining ∧
      ofTokens .anchored c.remaining = .ok p ∧ Detection.forwardScan.detects c.remaining ∧
      Detection.anchored.detects c.remaining = Detection.forwardScan.detects c.remaining := by
  let c : Cursor :=
    ⟨[⟨.identifier, "f", .ofSize "" 0 1⟩, ⟨.openParen, "(", .ofSize "" 1 1⟩,
      ⟨.closeParen, ")", .ofSize "" 2 1⟩, ⟨.openCurly, "\x7b", .ofSize "" 4 1⟩,
      ⟨.closeCurly, "\x7d", .ofSize "" 5 1⟩], Token.endMark "" 6, by decide, rfl⟩
  have hread : ofTokens .forwardScan c.remaining = .ok ⟨[.function "f" [] false []]⟩ := by cbv
  have hvisits : Visits .forwardScan endsProgram c c := .here rfl
  have hshape : Detection.anchored.detects c.remaining := by decide
  obtain ⟨hsame, hscan, hagree⟩ := anchored_extends_forwardScan c.remaining
  exact ⟨c, _, hread, hvisits, hshape, hsame _ hread, hscan hshape,
    hagree _ c c hread (Cursor.ofTokens_remaining c) hvisits⟩

end Program

end Scriptlet
