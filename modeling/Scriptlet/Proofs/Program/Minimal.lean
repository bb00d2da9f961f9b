import Mathlib
import Scriptlet.Proofs.Expr.Minimal
import Scriptlet.Proofs.Program.Echo

/-!
# Programs are written with the fewest tokens

No source of a program has fewer tokens than the text that is written for it
(`Program.length_written_le`).  For the expressions in it this is known.  The
printer adds parentheses around statements as well, where a statement would be
taken for a declaration.  Such a statement started with a parenthesis in the source
(`Echo.headKind_of_needed`), which the expression alone would be written without, so
the source had these two terminals to spare.
-/

namespace Scriptlet

open Scriptlet.Parser (Stands)

/-! ## Headings and bindings -/

/-- No heading is shorter than the one that is written. -/
theorem Opens.length_headingTerminals_le {head : Parser.Heading} {hs : List Terminal}
    (h : Opens head hs) :
    (Stmt.headingTerminals head.name head.parameters head.isAsync).length ≤ hs.length := by
  have hparameters {es : List Expr} {names : List String} {us : List Terminal}
      (hes : Derives (.arguments es) us) (hnames : Parser.parameterNames es = .ok names) :
      (separated (names.map fun name => [⟨.identifier, name⟩])).length ≤ us.length := by
    rw [← terminalsOfList_identifiers, ← parameterNames_eq_ok hnames]
    exact hes.length_arguments_le
  cases h with
  | plain _ _ _ hes hnames => simpa [Stmt.headingTerminals] using hparameters hes hnames
  | async _ _ _ hes hnames => simpa [Stmt.headingTerminals] using hparameters hes hnames

/-- A statement is written in no more terminals than the bare expression had in the
source. -/
theorem Echo.length_expression_le {mode : Detection} {e : Expr} {source text us : List Terminal}
    (h : Echo source text) (he : Stands e us source) (hp : e.Printable)
    (hmode : mode.recognises (us ++ source) = false) :
    ((Stmt.expression e).terminalsBefore mode text).length ≤ us.length := by
  have hspares := he.derives.spares
  rw [Stmt.terminalsBefore]
  cases hneeded : mode.recognises (e.terminals ++ text) with
  | false => exact hspares.length
  | true =>
    have hhead := h.headKind_of_needed he hp hmode hneeded
    have hname := Detection.headKind_of_recognises hneeded
    rw [headKind_append _ e.terminals_ne_nil] at hname
    have hspare := hspares.group hhead (by simp [hname])
    rw [enclosed, if_pos rfl, List.length_cons, List.length_append, List.length_singleton]
    exact hspare

/-! ## Statements and bodies -/

/-- A part stood in a source, where it took up the terminals `us`, with some
terminals behind it.  Where others echo these, no more terminals are written for
the part. -/
def Part.Spares (mode : Detection) (us source : List Terminal) : Part → Prop
  | .statement s => s.Printable → ∀ ⦃text : List Terminal⦄, Echo source text →
      (s.terminalsBefore mode text).length ≤ us.length
  | .body ss => (∀ s ∈ ss, s.Printable) → ∀ ⦃text : List Terminal⦄, Echo source text →
      (Stmt.terminalsOfBodyBefore mode text ss).length ≤ us.length

theorem Reads.spares {mode : Detection} {part : Part} {us source : List Terminal}
    (h : Reads mode part us source) : part.Spares mode us source := by
  induction h with
  | binding _ _ _ he =>
    intro _ text _
    simpa [Stmt.terminalsBefore, Stmt.bindingTerminals] using he.derives.length_terminals_le
  | bareBinding => exact fun _ _ _ => Nat.le_refl 2
  | function hopens _ hclose ih =>
    rintro (⟨⟩ | ⟨_, _, hp⟩) text hecho
    have hheading := hopens.length_headingTerminals_le
    have hbody := ih hp (hecho.closing hclose)
    rw [Stmt.terminalsBefore, List.length_append, List.length_append, List.length_append,
      List.length_append]
    exact Nat.add_le_add hheading (Nat.succ_le_succ hbody)
  | expression he hmode =>
    rintro (⟨⟩ | ⟨⟩ | ⟨hp⟩) text hecho
    exact hecho.length_expression_le he hp hmode
  | nil => exact fun _ _ _ => Nat.le_refl 0
  | cons _ hss ihs ihss =>
    intro hp text hecho
    have hothers := fun s' hs' => hp s' (.tail _ hs')
    have hfirst := ihs (hp _ (.head _)) (hss.echo_body hothers hecho)
    rw [Stmt.terminalsOfBodyBefore, List.length_append, List.length_append]
    exact Nat.add_le_add hfirst (ihss hothers hecho)

/-! ## Programs -/

namespace Program

variable {mode : Detection} {file source : String} {p : Program}

/-- The text of a program has no more tokens than any source that is read as this
program. -/
theorem length_written_le (h : ofSource mode file source = .ok p) (hfinite : p.isFinite)
    (other : String) : ∃ tokens written, Token.ofSource file source = .ok tokens ∧
      Token.ofSource other (p.written mode) = .ok written ∧ written.length ≤ tokens.length := by
  obtain ⟨c, hsource, hreads, hlexical⟩ := exists_cursor_of_read h
  have hp : ∀ s ∈ p.body, s.Printable := hreads.printable hlexical hfinite
  obtain ⟨tokens, mark, htext, _, hterminals⟩ := ofSource_written mode hp other
  refine ⟨_, _, hsource, htext, ?_⟩
  have hlength := hreads.spares hp .nil
  rw [← hterminals, List.length_map, Cursor.length_terminals] at hlength
  rw [Cursor.remaining, List.length_append, List.length_append]
  exact Nat.add_le_add_right hlength 1

/-- A call in a body stands before an object literal.  It is written in parentheses,
and takes up no more tokens than in the source, where the callee was in
parentheses. -/
theorem length_written_le_call_before_object : ∃ p tokens written,
    ofSource .anchored "" "f(x) \x7b (g)(x) \x7b\x7d \x7d" = .ok p ∧ p.isFinite ∧
      p.written .anchored = "f(x) \x7b\n  (g(x))\n  \x7b\x7d\n\x7d\n" ∧
      Token.ofSource "" "f(x) \x7b (g)(x) \x7b\x7d \x7d" = .ok tokens ∧
      Token.ofSource "" (p.written .anchored) = .ok written ∧ written.length ≤ tokens.length := by
  have h : ofSource .anchored "" "f(x) \x7b (g)(x) \x7b\x7d \x7d" = .ok ⟨[.function "f" ["x"] false
      [.expression (.call (.identifier "g") [.identifier "x"]), .expression (.object [])]]⟩ := by
    cbv
  obtain ⟨tokens, written, hsource, htext, hlength⟩ := length_written_le h rfl ""
  exact ⟨_, tokens, written, h, rfl, by decide +kernel, hsource, htext, hlength⟩

end Program

end Scriptlet
