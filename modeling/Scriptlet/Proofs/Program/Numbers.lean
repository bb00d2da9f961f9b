import Mathlib
import Scriptlet.Proofs.Program.WellFormed

/-!
# The numbers of a program

A number of a program was read from digits with at most one point among them.  So it has no
sign, and it is finite unless the digits are too large for a double, which makes it infinite
(`Numeral.Plain.finite_or_infinite`).

A finite number is written as one numeral that denotes it, from zero up to the largest double.
Infinity has no numeral.  It is written `inf`, which is a name.  `Program.number_reads_back_iff`
says both.
-/

namespace Scriptlet

open Scriptlet.Parser (Stands)

/-! ## Texts of one token -/

/-- A text that spells one terminal is split into one token. -/
theorem Token.Spells.exists_token {text : List Char} {u : Terminal} (h : Spells text [u] [])
    (file : String) :
    ∃ t : Token, t.terminal = u ∧
      Token.ofSource file (String.ofList text) = .ok [t, .endMark file (Text.byteSize text)] := by
  obtain ⟨tokens, hterminals, htext⟩ := h.ofText_eq file 0
  obtain ⟨t, rfl, rfl⟩ := List.map_eq_singleton_iff.1 hterminals
  rw [Nat.zero_add] at htext
  exact ⟨t, rfl, by rw [Token.ofSource, String.toList_ofList]; exact htext⟩

/-- A plain text denotes a number without sign, or is too large for one. -/
theorem Numeral.Plain.finite_or_infinite {text : List Char} {d : Double} (h : Plain text)
    (hread : read? text = some d) : (∃ rank, d = .finite false rank) ∨ d = .infinite false := by
  obtain ⟨decimal, rfl⟩ := h.exists_decimal hread
  rw [Decimal.toDouble]
  split
  next hlt => exact .inl ⟨_, rfl⟩
  next => exact .inr rfl

theorem Numeral.plain_cons_replicate {c d : Char} (hc : c.isDigit) (hd : d.isDigit) (count : Nat) :
    Plain (c :: List.replicate count d) := by
  refine .whole (List.cons_ne_nil _ _) (List.forall_mem_cons.2 ⟨hc, fun e he => ?_⟩)
  rw [List.eq_of_mem_replicate he]
  exact hd

/-! ## Numbers and their texts -/

namespace Double

/-- The text of a number is split into one token, a number that denotes it. -/
def ReadsBack (d : Double) : Prop :=
  ∀ file, ∃ t : Token, Token.ofSource file (Expr.number d).written =
      .ok [t, .endMark file (Text.byteSize (Expr.number d).written.toList)] ∧
    t.kind = .number ∧ Numeral.read? t.value.toList = some d

theorem readsBack_finite (rank : Fin finiteCount) : (Double.finite false rank).ReadsBack := by
  intro file
  obtain ⟨t, hterminal, htokens⟩ :=
    (Token.spells_number (plain_written rank) Token.separate_nil).exists_token file
  obtain ⟨hkind, hvalue⟩ := Terminal.mk.inj hterminal
  rw [Expr.written, String.toList_ofList]
  refine ⟨t, htokens, hkind, ?_⟩
  rw [hvalue, String.toList_ofList]
  exact read?_written rank

/-- Infinity is written as a name. -/
theorem ofSource_infinite (file : String) :
    ∃ t : Token, t.terminal = ⟨.identifier, "inf"⟩ ∧
      Token.ofSource file (Expr.number (.infinite false)).written = .ok [t, .endMark file 3] := by
  have hname : Lexeme.IsName "inf" := ⟨'i', ['n', 'f'], by cbv, by cbv⟩
  exact (Token.spells_name hname Token.separate_nil).exists_token file

theorem not_readsBack_infinite : ¬ (Double.infinite false).ReadsBack := by
  intro h
  obtain ⟨t, hnumber, hkind, _⟩ := h ""
  obtain ⟨u, hname, htokens⟩ := ofSource_infinite ""
  rw [htokens] at hnumber
  obtain ⟨rfl, _⟩ := List.cons.inj (Except.ok.inj hnumber)
  cases hkind.symm.trans (congrArg Terminal.kind hname)

end Double

/-! ## Numbers in programs -/

namespace Program

variable {mode : Detection} {file source : String} {p : Program}

/-- A numeral is a program. -/
theorem ofSource_of_plain {text : List Char} {d : Double} (h : Numeral.Plain text)
    (hread : Numeral.read? text = some d) (mode : Detection) (file : String) :
    ofSource mode file (String.ofList text) = .ok ⟨[.expression (.number d)]⟩ := by
  obtain ⟨t, hterminal, htokens⟩ := (Token.spells_number h Token.separate_nil).exists_token file
  obtain ⟨c, hremaining, _⟩ := exists_cursor_of_ofSource htokens
  rw [← hremaining] at htokens
  have hsplit : c.rest ++ [c.closing] = [t] ++ [.endMark file (Text.byteSize text)] := hremaining
  have hrest : c.rest = [t] := (List.append_inj' hsplit rfl).1
  have hterminals : c.terminals = [⟨.number, String.ofList text⟩] := by
    rw [Cursor.terminals, hrest, List.map_singleton, hterminal]
  have hnumber : Derives (.expr .primary (.number d)) c.terminals := by
    rw [hterminals]
    exact .number rfl (by rw [String.toList_ofList]; exact hread)
  have hstands : Stands (.number d) c.terminals [] :=
    .free (hnumber.loosen_to (by decide)) (by decide)
  have hmode : mode.recognises (c.terminals ++ []) = false := by
    rw [hterminals]
    cases mode <;> rfl
  have hstatement : Reads mode (.statement (.expression (.number d))) c.terminals [] :=
    .expression hstands hmode
  have hbody : Reads mode (.body [.expression (.number d)]) (c.terminals ++ []) [] :=
    .cons hstatement .nil
  rw [List.append_nil] at hbody
  exact (ofSource_eq_ok_iff htokens).2 hbody

/-- A number of a program that was read from a source is finite, or it is the infinity without
sign. -/
theorem finite_or_infinite_of_mem (h : ofSource mode file source = .ok p) {d : Double}
    (hd : .number d ∈ p.expressions) : (∃ rank, d = .finite false rank) ∨ d = .infinite false := by
  obtain ⟨ts, hreads, hlexical⟩ := reads_of_ofSource h
  obtain ⟨t, ht, hkind, hread⟩ : (Expr.number d).StoodIn ts := stoodIn_of_mem hreads hd
  exact ((hlexical t ht).number hkind).finite_or_infinite hread

/-- A number of a program that was read from a source is written as one numeral that denotes it
just when it is finite.  A numeral that is too large for a double was read as infinity, and
infinity is written as the name `inf`. -/
theorem number_reads_back_iff (h : ofSource mode file source = .ok p) {d : Double}
    (hd : .number d ∈ p.expressions) :
    (d.ReadsBack ↔ d.isFinite) ∧
      (¬ d.isFinite → ∀ other, ∃ t : Token, t.terminal = ⟨.identifier, "inf"⟩ ∧
        Token.ofSource other (Expr.number d).written = .ok [t, .endMark other 3]) := by
  rcases finite_or_infinite_of_mem h hd with ⟨rank, rfl⟩ | rfl
  · exact ⟨iff_of_true (Double.readsBack_finite rank) rfl, fun hinfinite => absurd rfl hinfinite⟩
  · exact ⟨iff_of_false Double.not_readsBack_infinite (by decide),
      fun _ => Double.ofSource_infinite⟩

/-- A numeral of 309 digits, more than a double has, is written as another one that denotes the
same double. -/
theorem number_reads_back_iff_long : ∃ (p : Program) (d : Double),
    ofSource .anchored "" (String.ofList ('1' :: List.replicate 308 '1')) = .ok p ∧
      .number d ∈ p.expressions ∧ d.toBits = 0x7fe3c747785b50b2 ∧ d.ReadsBack := by
  have hplain := Numeral.plain_cons_replicate (c := '1') (d := '1') rfl rfl 308
  have hread : Numeral.read? ('1' :: List.replicate 308 '1') =
      some (.finite false ⟨0x7fe3c747785b50b2, by decide⟩) := by
    decide +kernel
  have hsource := ofSource_of_plain hplain hread .anchored ""
  exact ⟨_, _, hsource, .head _, by decide, (number_reads_back_iff hsource (.head _)).1.2 rfl⟩

/-- A numeral that is too large for a double is read as infinity.  The program is written as a
name, and that is what is read back. -/
theorem number_written_as_name :
    ∃ p, ofSource .forwardScan "" (String.ofList ('1' :: List.replicate 309 '0')) = .ok p ∧
      .number (.infinite false) ∈ p.expressions ∧ ¬ (Double.infinite false).ReadsBack ∧
      p.written .forwardScan = "inf\n" ∧
      ofSource .forwardScan Position.unnamed (p.written .forwardScan) =
        .ok ⟨[.expression (.identifier "inf")]⟩ := by
  have hplain := Numeral.plain_cons_replicate (c := '1') (d := '0') rfl rfl 309
  have hread : Numeral.read? ('1' :: List.replicate 309 '0') = some (.infinite false) := by
    decide +kernel
  have hwritten : written .forwardScan ⟨[.expression (.number (.infinite false))]⟩ = "inf\n" := by
    decide +kernel
  refine ⟨_, ofSource_of_plain hplain hread _ _, .head _, Double.not_readsBack_infinite, hwritten,
    ?_⟩
  rw [hwritten]
  cbv

end Program

end Scriptlet
