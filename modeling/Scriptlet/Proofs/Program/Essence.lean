import Mathlib
import Scriptlet.Proofs.Expr.Essence
import Scriptlet.Proofs.Program.Echo

/-!
# Writing keeps what a source says

The text that is written for a program says what the source said, token for token
and in the same order: only parentheses and commas behind a last property may
differ, and the spelling of a number (`Program.essence_written`).

This holds in either mode, also where the text does not read back.  Then the
parentheses that the printer adds join two statements, but nothing else of the
source is lost by them.
-/

namespace Scriptlet

open Token (Kind)

/-! ## Headings -/

theorem Agrees.parameters {es : List Expr} {names : List String} {us : List Terminal}
    {l r b : Terminal} (hes : Derives (.arguments es) us)
    (hnames : Parser.parameterNames es = .ok names) (hl : l.kind = .openParen)
    (hr : r.kind = .closeParen) (hb : b.kind = .openCurly)
    (hlexical : ∀ t ∈ us ++ [r, b], t.Lexical) :
    Agrees (l :: (us ++ [r, b])) (.mark .openParen ::
      (separated (names.map fun name => [⟨.identifier, name⟩]) ++
        [.mark .closeParen, .mark .openCurly])) := by
  obtain ⟨hus, hclose⟩ := List.forall_mem_append.1 hlexical
  obtain ⟨_, hbrace⟩ := List.forall_mem_cons.1 hclose
  obtain rfl := parameterNames_eq_ok hnames
  have harguments := hes.agrees hus (hes.printable hus (areFinite_identifiers names))
  rw [terminalsOfList_identifiers] at harguments
  rw [(hbrace _ (.head _)).eq_mark hb rfl, List.append_cons us,
    List.append_cons _ (Terminal.mark .closeParen)]
  exact (harguments.parenthesised hl hr).append (.cons rfl (by decide) .nil)

/-- A heading is written as it stood in the source. -/
theorem Opens.agrees {head : Parser.Heading} {hs : List Terminal} (h : Opens head hs)
    (hlexical : ∀ t ∈ hs, t.Lexical) :
    Agrees hs (Stmt.headingTerminals head.name head.parameters head.isAsync) := by
  cases h with
  | plain _ ht hl hes hnames hr hb =>
    have hinner := (List.forall_mem_cons.1 (List.forall_mem_cons.1 hlexical).2).2
    exact .cons ht (by decide) (.parameters hes hnames hl hr hb hinner)
  | @async a _ _ _ _ _ _ _ hasync ht hl hes hnames hr hb =>
    have hbehind := (List.forall_mem_cons.1 hlexical).2
    have hinner := (List.forall_mem_cons.1 (List.forall_mem_cons.1 hbehind).2).2
    have hword : a.kind = .identifier ∧ a.value = "async" := by
      simpa [Detection.isAsyncWord] using hasync
    rw [Stmt.headingTerminals, ← hword.2]
    exact .cons hword.1 (by decide) (.cons ht (by decide) (.parameters hes hnames hl hr hb hinner))

/-! ## Statements and bodies -/

/-- Whatever follows, what is written for a part says what its terminals in a source
say. -/
def Part.Agrees (mode : Detection) (us : List Terminal) : Part → Prop
  | .statement s => s.Printable → ∀ text, Scriptlet.Agrees us (s.terminalsBefore mode text)
  | .body ss => (∀ s ∈ ss, s.Printable) → ∀ text,
      Scriptlet.Agrees us (Stmt.terminalsOfBodyBefore mode text ss)

theorem Reads.agrees {mode : Detection} {part : Part} {us source : List Terminal}
    (h : Reads mode part us source) (hlexical : ∀ t ∈ us, t.Lexical) : part.Agrees mode us := by
  induction h with
  | @binding w t q e ts _ hw ht hq he =>
    rintro (⟨_, hvalue⟩) text
    obtain ⟨hword, hlexical⟩ := List.forall_mem_cons.1 hlexical
    obtain ⟨_, hlexical⟩ := List.forall_mem_cons.1 hlexical
    obtain ⟨hsign, hlexical⟩ := List.forall_mem_cons.1 hlexical
    have hvalue := he.derives.agrees hlexical (hvalue e rfl)
    have hsigned := Agrees.cons (t := .mark .assignment) rfl (by decide) hvalue
    have hinner := hsigned.cons ht (by decide)
    rw [hsign.eq_mark hq rfl, Stmt.terminalsBefore, Stmt.bindingTerminals]
    rcases hw with hw | hw
    · rw [hword.eq_mark hw rfl]
      exact .cons rfl (by decide) hinner
    · rw [hword.eq_mark hw rfl]
      exact .cons rfl (by decide) hinner
  | bareBinding hw ht =>
    intro _ text
    obtain ⟨hword, _⟩ := List.forall_mem_cons.1 hlexical
    rw [hword.eq_mark hw rfl]
    exact .cons rfl (by decide) (.cons ht (by decide) .nil)
  | function hopens _ hclose ih =>
    rintro (⟨⟩ | ⟨_, _, hp⟩) text
    obtain ⟨hheading, hlexical⟩ := List.forall_mem_append.1 hlexical
    obtain ⟨hbody, hbrace⟩ := List.forall_mem_append.1 hlexical
    rw [(hbrace _ (.head _)).eq_mark hclose rfl, Stmt.terminalsBefore]
    exact (hopens.agrees hheading).append ((ih hbody hp _).append (.cons rfl (by decide) .nil))
  | expression he =>
    rintro (⟨⟩ | ⟨⟩ | ⟨hp⟩) text
    exact (he.derives.agrees hlexical hp).enclosed _
  | nil => exact fun _ _ => .nil
  | cons _ _ ihs ihss =>
    intro hp text
    obtain ⟨hfirst, hothers⟩ := List.forall_mem_append.1 hlexical
    rw [Stmt.terminalsOfBodyBefore]
    exact (ihs hfirst (hp _ (.head _)) _).append (ihss hothers (fun s hs => hp s (.tail _ hs)) text)

/-! ## Programs -/

namespace Program

variable {mode : Detection} {file source : String} {p : Program}

/-- The text of a program says what the source said.  Nothing but parentheses and
commas behind a last property is added, dropped or moved, and no number changes. -/
theorem essence_written (h : ofSource mode file source = .ok p) (hfinite : p.isFinite)
    (other : String) : ∃ tokens written, Token.ofSource file source = .ok tokens ∧
      Token.ofSource other (p.written mode) = .ok written ∧
      essence (written.map Token.terminal) = essence (tokens.map Token.terminal) := by
  obtain ⟨c, hsource, hreads, hlexical⟩ := exists_cursor_of_read h
  have hp : ∀ s ∈ p.body, s.Printable := hreads.printable hlexical hfinite
  obtain ⟨tokens, mark, htext, hmark, hterminals⟩ := ofSource_written mode hp other
  have hend : mark.terminal = c.closing.terminal :=
    (Token.terminal_of_ofText htext).trans (Token.terminal_of_ofText hsource).symm
  refine ⟨_, _, hsource, htext, ?_⟩
  rw [Cursor.remaining, List.map_append, List.map_append, hterminals, List.map_singleton,
    List.map_singleton, hend]
  exact (hreads.agrees hlexical hp [] rfl).symm

/-- A comma behind the last property and two pairs of parentheses are not written. -/
theorem essence_written_trailing_comma : ∃ p tokens written,
    ofSource .anchored "" "let a = ({b: (c),}) d" = .ok p ∧ p.isFinite ∧
      p.written .anchored = "let a = { b: c }
d
" ∧
      Token.ofSource "" "let a = ({b: (c),}) d" = .ok tokens ∧
      Token.ofSource "" (p.written .anchored) = .ok written ∧
      essence (written.map Token.terminal) = essence (tokens.map Token.terminal) := by
  have h : ofSource .anchored "" "let a = ({b: (c),}) d" =
      .ok ⟨[.binding "a" false (some (.object [.entry "b" (.identifier "c")])),
        .expression (.identifier "d")]⟩ := by
    cbv
  obtain ⟨tokens, written, hsource, htext, hsame⟩ := essence_written h rfl ""
  exact ⟨_, tokens, written, h, rfl, by decide +kernel, hsource, htext, hsame⟩

end Program

end Scriptlet
