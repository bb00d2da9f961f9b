import Scriptlet.Proofs.Token.Spelling

/-!
# Legible texts

A text is legible when it can be split without a look at what it means: a slash
stands before a space, so it starts no comment, and a quote belongs to a whole
literal.  Words, numbers and marks may stand anywhere.  They can run together, as
the two numbers of `1.5.2` do.

A legible text is split into some terminals, and these are the same whatever comes
behind it, if a word may end there (`Legible.exists_spells`).  The induction takes
one lexeme off the text at a time (`Legible.exists_lexeme`).
-/

namespace Scriptlet

open Token (Spells Separate)

/-! ## Runs of characters -/

/-- A run in a text ends in the text, or behind it where the rest does not go on with
the run. -/
theorem takeWhile_append_of_stop {p : Char → Bool} (text : List Char) {rest : List Char}
    (hrest : ∀ c ∈ rest.head?, ¬ p c) : (text ++ rest).takeWhile p = text.takeWhile p ∧
      (text ++ rest).dropWhile p = text.dropWhile p ++ rest := by
  induction text with
  | nil => exact takeWhile_append_of_head (List.forall_mem_nil _) hrest
  | cons c text ih =>
    rw [List.cons_append, List.takeWhile_cons, List.takeWhile_cons, List.dropWhile_cons,
      List.dropWhile_cons]
    split
    next => exact ⟨congrArg _ ih.1, ih.2⟩
    next => exact ⟨rfl, rfl⟩

namespace Lexeme

theorem not_isDigit_head {rest : List Char} (hrest : Separate rest) :
    ∀ c ∈ rest.head?, ¬ c.isDigit := by
  intro c hc hdigit
  exact hrest.head c hc (isWordChar_of_isDigit hdigit)

theorem fractionPart_append (text : List Char) {rest : List Char} (hrest : Separate rest) :
    fractionPart (text ++ rest) = fractionPart text := by
  have hdigit := not_isDigit_head hrest
  cases text with
  | nil => exact hrest.point
  | cons c text =>
    by_cases hpoint : c = '.'
    · subst hpoint
      cases text with
      | cons d text =>
        rw [List.cons_append, List.cons_append, fractionPart, fractionPart,
          (takeWhile_append_of_stop text hdigit).1]
      | nil =>
        cases rest with
        | nil => rfl
        | cons d rest =>
          rw [List.singleton_append, fractionPart, if_neg (hdigit d rfl)]
          rfl
    · rw [List.cons_append, Token.fractionPart_of_ne hpoint, Token.fractionPart_of_ne hpoint]

/-- A number ends in a text as it does when more follows the text. -/
theorem numberTail_append (text : List Char) {rest : List Char} (hrest : Separate rest) :
    numberTail (text ++ rest) = numberTail text := by
  obtain ⟨htake, hdrop⟩ := takeWhile_append_of_stop text (not_isDigit_head hrest)
  rw [numberTail, numberTail, htake, hdrop, fractionPart_append _ hrest]

end Lexeme

/-! ## Legible texts -/

open Lexeme

/-- Whether a character may stand anywhere in a legible text. -/
def isPlain (c : Char) : Bool :=
  c = ' ' || isWordChar c || (c ≠ '/' && (punctuation? c).isSome)

/-- A text in which each slash stands before a space and each quote belongs to a
literal. -/
inductive Legible : List Char → Prop where
  /-- The empty text. -/
  | nil : Legible []
  /-- A character that may stand anywhere. -/
  | plain {c : Char} {text : List Char} (hc : isPlain c) (h : Legible text) : Legible (c :: text)
  /-- A slash and the space behind it. -/
  | slash {text : List Char} (h : Legible text) : Legible ('/' :: ' ' :: text)
  /-- A string literal. -/
  | literal (value : List Char) {text : List Char} (h : Legible text) :
      Legible ('"' :: (Escape.escape value ++ '"' :: text))

namespace Legible

variable {c : Char} {text text' front : List Char}

theorem append (h : Legible text) (h' : Legible text') : Legible (text ++ text') := by
  induction h with
  | nil => exact h'
  | plain hc _ ih => exact .plain hc ih
  | slash _ ih => exact .slash ih
  | literal value _ ih =>
    rw [List.cons_append, List.append_assoc, List.cons_append]
    exact .literal value ih

theorem of_forall (h : ∀ c ∈ text, isPlain c) : Legible text := by
  induction text with
  | nil => exact .nil
  | cons c text ih => exact .plain (h c (.head text)) (ih fun d hd => h d (.tail c hd))

theorem of_cons (h : Legible (c :: text)) (hc : isPlain c) : Legible text := by
  cases h with
  | plain _ h => exact h
  | slash => exact absurd hc (by decide)
  | literal => exact absurd hc (by decide)

/-- What stands behind plain characters is legible. -/
theorem of_append (h : Legible (front ++ text)) (hfront : ∀ c ∈ front, isPlain c) :
    Legible text := by
  induction front with
  | nil => exact h
  | cons c front ih =>
    exact ih (h.of_cons (hfront c (.head front))) fun d hd => hfront d (.tail c hd)

end Legible

theorem isPlain_of_isWordChar {c : Char} (h : isWordChar c) : isPlain c := by
  simp [isPlain, h]

theorem isPlain_of_isDigit_or_point {c : Char} (h : c.isDigit ∨ c = '.') : isPlain c := by
  rcases h with h | rfl
  · exact isPlain_of_isWordChar (isWordChar_of_isDigit h)
  · decide

namespace Legible

variable {c : Char} {text : List Char}

/-- A legible text that starts with a plain character starts with a lexeme, and what
is left is legible. -/
theorem exists_lexeme (hc : isPlain c) (h : Legible text) : ∃ tail others ts,
    text = tail ++ others ∧ Legible others ∧ (c ≠ ' ' → ts ≠ []) ∧
      ∀ rest, Separate rest → Spells (c :: tail) ts (others ++ rest) := by
  by_cases hword : isWordStart c
  · have htail : ∀ d ∈ text.takeWhile isWordChar, isPlain d := fun d hd =>
      isPlain_of_isWordChar (List.mem_takeWhile_imp hd)
    have hsplit : text.takeWhile isWordChar ++ text.dropWhile isWordChar = text :=
      List.takeWhile_append_dropWhile
    refine ⟨text.takeWhile isWordChar, text.dropWhile isWordChar,
      [⟨wordKind (c :: text.takeWhile isWordChar), String.ofList (c :: text.takeWhile isWordChar)⟩],
      hsplit.symm, of_append (hsplit.symm ▸ h) htail, fun _ => List.cons_ne_nil _ _, ?_⟩
    intro rest hrest
    apply Token.spells_of_next?
    rw [← List.append_assoc, hsplit, next?, if_pos hword,
      (takeWhile_append_of_stop text hrest.head).1]
  by_cases hdigit : c.isDigit
  · obtain ⟨others, hsplit, hplain, _⟩ := exists_numberTail text
    have htail : ∀ d ∈ numberTail text, isPlain d := fun d hd =>
      isPlain_of_isDigit_or_point (hplain d hd)
    refine ⟨numberTail text, others, [⟨.number, String.ofList (c :: numberTail text)⟩], hsplit,
      of_append (hsplit ▸ h) htail, fun _ => List.cons_ne_nil _ _, ?_⟩
    intro rest hrest
    apply Token.spells_of_next?
    rw [← List.append_assoc, ← hsplit, next?, if_neg hword, if_pos hdigit,
      numberTail_append text hrest]
  · have hmark : c = ' ' ∨ c ≠ '/' ∧ ∃ kind, punctuation? c = some kind := by
      have hchar : isWordChar c = false := by
        rw [Bool.eq_false_iff]
        exact fun hc => (isWordChar_iff.1 hc).elim hword hdigit
      simpa [isPlain, hchar, Option.isSome_iff_exists] using hc
    rcases hmark with rfl | ⟨hslash, kind, hkind⟩
    · exact ⟨[], text, [], rfl, h, fun hne => absurd rfl hne, fun rest _ =>
        Token.spells_blank Text.isBlank_space _⟩
    · exact ⟨[], text, [.mark kind], rfl, h, by simp, fun rest _ =>
        Token.spells_mark_of_head hkind fun heq => absurd heq hslash⟩

/-- A legible text is split into some terminals wherever a word may end behind it. -/
theorem exists_spells (h : Legible text) : ∃ ts, (∀ rest, Separate rest → Spells text ts rest) ∧
    ((∃ c ∈ text.head?, c ≠ ' ') → ts ≠ []) := by
  -- A lexeme takes up more than one rule of `Legible`, so the induction is on the length.
  induction hlength : text.length using Nat.strong_induction_on generalizing text with
  | _ length ih =>
    subst hlength
    cases h with
    | nil => exact ⟨[], fun rest _ => .nil rest, by simp⟩
    | @plain c text hc h =>
      obtain ⟨tail, others, ts, rfl, hothers, hne, hspells⟩ := exists_lexeme hc h
      have hless : others.length < (c :: (tail ++ others)).length := by
        simp only [List.length_cons, List.length_append]
        omega
      obtain ⟨us, hus, _⟩ := ih _ hless hothers rfl
      refine ⟨ts ++ us, fun rest hrest => (hspells rest hrest).append (hus rest hrest), ?_⟩
      rintro ⟨_, ⟨⟩, hvisible⟩
      exact List.append_ne_nil_of_left_ne_nil (hne hvisible) us
    | @slash text h =>
      have hless : text.length < ('/' :: ' ' :: text).length :=
        (Nat.lt_succ_self _).trans (Nat.lt_succ_self _)
      obtain ⟨us, hus, _⟩ := ih _ hless h rfl
      refine ⟨.mark .slash :: us, fun rest hrest => ?_, fun _ => List.cons_ne_nil _ _⟩
      have hblank := (Token.spells_blank Text.isBlank_space (text ++ rest)).append (hus rest hrest)
      exact (Token.spells_mark_of_head rfl (by simp)).append hblank
    | @literal value text h =>
      have hless : text.length < ('"' :: (Escape.escape value ++ '"' :: text)).length := by
        simp only [List.length_cons, List.length_append]
        omega
      obtain ⟨us, hus, _⟩ := ih _ hless h rfl
      refine ⟨⟨.string, String.ofList value⟩ :: us, fun rest hrest => ?_,
        fun _ => List.cons_ne_nil _ _⟩
      have hliteral := Token.spells_literal (String.ofList value) (text ++ rest)
      have htext : (Scriptlet.literal (String.ofList value)).toList =
          '"' :: (Escape.escape value ++ ['"']) := by
        simp [Scriptlet.literal]
      rw [htext] at hliteral
      have hboth := hliteral.append (hus rest hrest)
      rw [List.cons_append, List.append_assoc] at hboth
      exact hboth

end Legible

end Scriptlet
