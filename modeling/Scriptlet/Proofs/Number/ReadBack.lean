import Mathlib.Data.List.TakeDrop
import Scriptlet.Number.Decimal
import Scriptlet.Number.Written
import Scriptlet.Proofs.Number.Rank
import Scriptlet.Proofs.Text.Lines

/-!
# Numbers read back

In a program a finite number without a sign is written with digits and at most
one point among them (`plain_written`), and its text denotes that number
(`read?_written`).  The text need not spell out the decimal it was made of:
what is read from a whole number has no power of ten left.
-/

namespace Scriptlet

namespace Numeral

/-- A text of digits, with a point among them or without. -/
inductive Plain : List Char → Prop where
  /-- Digits only. -/
  | whole {digits : List Char} (hne : digits ≠ []) (hdigits : ∀ c ∈ digits, c.isDigit) :
      Plain digits
  /-- Digits on both sides of a point. -/
  | pointed {left right : List Char} (hleft : left ≠ []) (hright : right ≠ [])
      (hdigits : ∀ c ∈ left ++ right, c.isDigit) : Plain (left ++ '.' :: right)

/-! ## Reading plain texts -/

theorem span_isDigit {digits rest : List Char} (hdigits : ∀ c ∈ digits, c.isDigit)
    (hrest : ∀ c ∈ rest.head?, ¬ c.isDigit) :
    (digits ++ rest).span Char.isDigit = (digits, rest) := by
  obtain ⟨htake, hdrop⟩ := takeWhile_append_of_head hdigits hrest
  rw [List.span_eq_takeWhile_dropWhile, htake, hdrop]

theorem span_isDigit_self {digits : List Char} (hdigits : ∀ c ∈ digits, c.isDigit) :
    digits.span Char.isDigit = (digits, []) := by
  have hnone : ∀ c ∈ ([] : List Char).head?, ¬ c.isDigit := by simp
  have hspan := span_isDigit hdigits hnone
  rw [List.append_nil] at hspan
  exact hspan

theorem decimal?_whole {digits : List Char} (hne : digits ≠ [])
    (hdigits : ∀ c ∈ digits, c.isDigit) :
    decimal? digits = some ⟨digitsValue digits, 0⟩ := by
  simp only [decimal?, span_isDigit_self hdigits, fraction, List.append_nil, hne, if_false, exponent?, Option.map_some]
  rfl

theorem decimal?_pointed {left right : List Char} (hleft : left ≠ [])
    (hdigits : ∀ c ∈ left ++ right, c.isDigit) :
    decimal? (left ++ '.' :: right) = some ⟨digitsValue (left ++ right), -right.length⟩ := by
  have hpoint : ∀ c ∈ ('.' :: right).head?, ¬ c.isDigit := by simp
  have hspan := span_isDigit (fun c hc => hdigits c (List.mem_append_left right hc)) hpoint
  have hspan' := span_isDigit_self fun c hc => hdigits c (List.mem_append_right left hc)
  have hne : left ++ right ≠ [] := List.append_ne_nil_of_left_ne_nil hleft right
  simp only [decimal?, hspan, fraction, hspan', hne, if_false, exponent?, Option.map_some,
    Int.zero_sub]

/-- A text that starts with a digit has no sign. -/
theorem read?_of_isDigit {text : List Char} (h : ∃ c ∈ text.head?, c.isDigit) :
    read? text = magnitude? false text := by
  unfold read?
  split
  · exact absurd h (by simp)
  · exact absurd h (by simp)
  · rfl

theorem Plain.head_isDigit {text : List Char} (h : Plain text) :
    ∃ c ∈ text.head?, c.isDigit := by
  cases h with
  | whole hne hdigits =>
    obtain ⟨c, digits, rfl⟩ := List.exists_cons_of_ne_nil hne
    exact ⟨c, rfl, hdigits c (.head _)⟩
  | @pointed left right hleft _ hdigits =>
    obtain ⟨c, left, rfl⟩ := List.exists_cons_of_ne_nil hleft
    exact ⟨c, rfl, hdigits c (.head _)⟩

theorem Plain.isDigit_or_point {text : List Char} (h : Plain text) :
    ∀ c ∈ text, c.isDigit ∨ c = '.' := by
  intro c hc
  cases h with
  | whole _ hdigits => exact .inl (hdigits c hc)
  | pointed _ _ hdigits =>
    rcases List.mem_append.1 hc with hc | hc
    · exact .inl (hdigits c (List.mem_append_left _ hc))
    · rcases List.mem_cons.1 hc with rfl | hc
      · exact .inr rfl
      · exact .inl (hdigits c (List.mem_append_right _ hc))

end Numeral

namespace Decimal

open Numeral

/-! ## Positional texts -/

theorem isDigit_zero : '0'.isDigit := by decide

theorem isDigit_of_mem_padded {count n : Nat} :
    ∀ c ∈ List.replicate count '0' ++ Nat.toDigits 10 n, c.isDigit := by
  intro c hc
  rcases List.mem_append.1 hc with hc | hc
  · rw [List.eq_of_mem_replicate hc]
    exact isDigit_zero
  · exact Nat.isDigit_of_mem_toDigits (by decide) (by decide) hc

theorem digitsValue_padded (count n : Nat) :
    digitsValue (List.replicate count '0' ++ Nat.toDigits 10 n) = n := by
  rw [digitsValue, Nat.ofDigitChars_append, Nat.ofDigitChars_replicate_zero, Nat.mul_zero,
    Nat.ofDigitChars_ten_toDigits]

/-- A positional text is plain and denotes a decimal of the same rank. -/
theorem positional_reads (d : Decimal) :
    Plain (d.positional .program) ∧
      ∃ d', decimal? (d.positional .program) = some d' ∧ d'.rank = d.rank := by
  obtain ⟨n, exponent⟩ := d
  simp only [positional]
  split
  next hwhole =>
    obtain ⟨count, rfl⟩ := Int.eq_ofNat_of_zero_le hwhole
    have hne : Nat.toDigits 10 n ++ List.replicate count '0' ≠ [] :=
      List.append_ne_nil_of_left_ne_nil Nat.toDigits_ne_nil _
    have hdigits : ∀ c ∈ Nat.toDigits 10 n ++ List.replicate count '0', c.isDigit := by
      intro c hc
      exact isDigit_of_mem_padded c (List.mem_append.2 (List.mem_append.1 hc).symm)
    have hvalue : digitsValue (Nat.toDigits 10 n ++ List.replicate count '0') = n * 10 ^ count := by
      rw [digitsValue, Nat.ofDigitChars_append, Nat.ofDigitChars_replicate_zero,
        Nat.ofDigitChars_ten_toDigits, Nat.mul_comm]
    have htext : Nat.toDigits 10 n ++ List.replicate (Int.toNat count) '0' ++
        (if NumberStyle.program.marksWhole then ['.', '0'] else []) =
        Nat.toDigits 10 n ++ List.replicate count '0' := List.append_nil _
    rw [htext]
    refine ⟨.whole hne hdigits, _, decimal?_whole hne hdigits, ?_⟩
    rw [hvalue, rank_mul_pow_ten]
  next hfraction =>
    obtain ⟨places, rfl⟩ : ∃ places : Nat, exponent = -places := ⟨(-exponent).toNat, by omega⟩
    have hplaces : (- -(places : Int)).toNat = places := by omega
    rw [hplaces]
    generalize hpadded : List.replicate (places + 1 - (Nat.toDigits 10 n).length) '0' ++
      Nat.toDigits 10 n = padded
    have hlength : places + 1 ≤ padded.length := by
      rw [← hpadded, List.length_append, List.length_replicate]
      omega
    have hleft : padded.take (padded.length - places) ≠ [] := by
      rw [← List.length_pos_iff, List.length_take]
      omega
    have hright : (padded.drop (padded.length - places)).length = places := by
      rw [List.length_drop]
      omega
    have hjoined := List.take_append_drop (padded.length - places) padded
    have hdigits : ∀ c ∈ padded.take (padded.length - places) ++
        padded.drop (padded.length - places), c.isDigit := by
      rw [hjoined, ← hpadded]
      exact isDigit_of_mem_padded
    have hvalue : digitsValue padded = n := by rw [← hpadded, digitsValue_padded]
    refine ⟨.pointed hleft ?_ hdigits, _, decimal?_pointed hleft hdigits, ?_⟩
    · rw [← List.length_pos_iff, hright]
      omega
    · rw [hjoined, hvalue, hright]

end Decimal

/-! ## Numbers -/

namespace Double

open Numeral

/-- A number is written like a decimal of its rank. -/
theorem exists_written_eq (rank : Fin finiteCount) : ∃ d : Decimal,
    (Double.finite false rank).written .program = d.positional .program ∧ d.rank = rank.val := by
  have htext (d : Decimal) : d.written .program = d.positional .program := rfl
  simp only [written, signText, Bool.false_eq_true, if_false, List.nil_append, htext]
  split
  next hzero => exact ⟨⟨0, 0⟩, rfl, by rw [Decimal.rank_zero, hzero]⟩
  next hpos => exact ⟨_, rfl, Shortest.rank_decimal (Nat.pos_of_ne_zero hpos) rank.isLt⟩

theorem plain_written (rank : Fin finiteCount) :
    Plain ((Double.finite false rank).written .program) := by
  obtain ⟨d, htext, _⟩ := exists_written_eq rank
  rw [htext]
  exact d.positional_reads.1

/-- The text of a number denotes that number. -/
theorem read?_written (rank : Fin finiteCount) :
    read? ((Double.finite false rank).written .program) = some (.finite false rank) := by
  obtain ⟨d, htext, hrank⟩ := exists_written_eq rank
  obtain ⟨hplain, d', hread, hrank'⟩ := d.positional_reads
  have hlt : d'.rank < finiteCount := by
    rw [hrank', hrank]
    exact rank.isLt
  rw [htext, read?_of_isDigit hplain.head_isDigit, magnitude?, hread]
  simp only [Decimal.toDouble, hrank', hrank, rank.isLt, dif_pos]

end Double

end Scriptlet
