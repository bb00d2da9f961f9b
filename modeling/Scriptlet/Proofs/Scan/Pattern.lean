import Mathlib
import Scriptlet.Proofs.Token.Boundary

/-!
# Patterns

The lexemes of the language can be described by a table.  Each of its rows is a pattern for the
front of a text and says what to do with what it finds.  The rows are tried in order.

A pattern tries its alternatives in order, too, takes as much as it can where it may be repeated,
and goes back where what follows cannot be found then.  `Pattern.endings` lists what each way
leaves of a text, the preferred one first.

For each pattern of the language a lemma says what it leaves in the preferred way, in the terms of
the reader of lexemes.  Only the literal needs its other endings: the quote that ends it has to be
found behind as many of its units as possible (`Pattern.behind?_units`).
-/

namespace Scriptlet

open Token (Kind)

/-- A pattern for the front of a text. -/
inductive Pattern where
  /-- One character of some kind. -/
  | char (isIn : Char → Bool)
  /-- A pattern and another one behind it. -/
  | seq (first second : Pattern)
  /-- A pattern or else another one. -/
  | either (first second : Pattern)
  /-- A pattern as often as it can be found. -/
  | many (body : Pattern)
  /-- A pattern if it can be found. -/
  | optional (body : Pattern)

namespace Pattern

/-- What rounds of a pattern may leave of a text, most rounds first.  A round takes at least one
character, so their number is bounded. -/
def roundEndings (round : List Char → List (List Char)) : Nat → List Char → List (List Char)
  | 0, text => [text]
  | bound + 1, text =>
      ((round text).filter (·.length < text.length)).flatMap (roundEndings round bound) ++ [text]

/-- What a pattern may leave of a text, the preferred way to find it first. -/
def endings : Pattern → List Char → List (List Char)
  | char _, [] => []
  | char isIn, c :: rest => if isIn c then [rest] else []
  | seq first second, text => (endings first text).flatMap (endings second)
  | either first second, text => endings first text ++ endings second text
  | many body, text => roundEndings (endings body) text.length text
  | optional body, text => endings body text ++ [text]

/-- What a pattern leaves of a text in the preferred way. -/
def behind? (pattern : Pattern) (text : List Char) : Option (List Char) :=
  (pattern.endings text).head?

/-- Whether a pattern is found at the front of a text. -/
def isFound (pattern : Pattern) (text : List Char) : Bool := (pattern.behind? text).isSome

/-- The characters that a pattern finds, and none if it is not found. -/
def found (pattern : Pattern) (text : List Char) : List Char :=
  match pattern.behind? text with
  | some behind => text.take (text.length - behind.length)
  | none => []

/-- A pattern at least once. -/
def oneOrMore (body : Pattern) : Pattern := seq body (many body)

/-! ## What a pattern leaves -/

theorem found_of_behind? {pattern : Pattern} {raw behind : List Char}
    (h : pattern.behind? (raw ++ behind) = some behind) : pattern.found (raw ++ behind) = raw := by
  rw [found, h]
  simp only [List.length_append, Nat.add_sub_cancel, List.take_left]

theorem behind?_char (isIn : Char → Bool) (c : Char) (rest : List Char) :
    (char isIn).behind? (c :: rest) = if isIn c then some rest else none := by
  rw [behind?, endings]
  split <;> rfl

theorem behind?_seq (first second : Pattern) (text : List Char) :
    (seq first second).behind? text = (first.endings text).findSome? second.behind? := by
  rw [behind?, endings, List.head?_flatMap]
  rfl

/-- A pattern that is found behind the preferred ending of another one is found there. -/
theorem behind?_seq_of_some {first second : Pattern} {text middle behind : List Char}
    (hfirst : first.behind? text = some middle) (hsecond : second.behind? middle = some behind) :
    (seq first second).behind? text = some behind := by
  obtain ⟨others, hendings⟩ := List.head?_eq_some_iff.1 hfirst
  rw [behind?_seq, hendings, List.findSome?_cons, hsecond]

theorem behind?_seq_char (isIn : Char → Bool) (second : Pattern) (c : Char) (rest : List Char) :
    (seq (char isIn) second).behind? (c :: rest) =
      if isIn c then second.behind? rest else none := by
  rw [behind?_seq, endings]
  split
  next => rw [List.findSome?_singleton]
  next => rfl

theorem behind?_optional (body : Pattern) (text : List Char) :
    (optional body).behind? text = (body.behind? text).or (some text) := by
  rw [behind?, endings, List.head?_append]
  rfl

/-- A kind of character is repeated as far as it goes. -/
theorem behind?_many_char (isIn : Char → Bool) (text : List Char) :
    (many (char isIn)).behind? text = some (text.dropWhile isIn) := by
  have hrounds (bound : Nat) (h : text.length ≤ bound) :
      (roundEndings (char isIn).endings bound text).head? = some (text.dropWhile isIn) := by
    induction text generalizing bound with
    | nil => cases bound <;> rfl
    | cons c rest ih =>
      obtain _ | bound := bound
      · cases h
      · rw [roundEndings, endings, List.dropWhile_cons]
        split
        next =>
          have hrest := ih bound (Nat.le_of_succ_le_succ h)
          simp [hrest]
        next => rfl
  exact hrounds text.length (Nat.le_refl _)

theorem behind?_oneOrMore_char (isIn : Char → Bool) (c : Char) (rest : List Char) :
    (oneOrMore (char isIn)).behind? (c :: rest) =
      if isIn c then some (rest.dropWhile isIn) else none := by
  rw [oneOrMore, behind?_seq_char, behind?_many_char]

/-! ## The patterns of lexemes -/

/-- A word. -/
def word : Pattern := seq (char Lexeme.isWordStart) (many (char Lexeme.isWordChar))

/-- A number. -/
def number : Pattern :=
  seq (oneOrMore (char Char.isDigit))
    (optional (seq (char (· = '.')) (oneOrMore (char Char.isDigit))))

/-- Blanks. -/
def blanks : Pattern := oneOrMore (char Text.isBlank)

/-- A character between the quotes of a literal, or a backslash and the character it hides. -/
def unit : Pattern :=
  either (char fun c => c ≠ '"' && c ≠ '\\') (seq (char (· = '\\')) (char (· ≠ '\n')))

/-- A string literal. -/
def literal : Pattern := seq (char (· = '"')) (seq (many unit) (char (· = '"')))

/-- A comment. -/
def comment : Pattern := seq (char (· = '/')) (seq (char (· = '/')) (many (char (· ≠ '\n'))))

theorem behind?_word (c : Char) (rest : List Char) :
    word.behind? (c :: rest) =
      if Lexeme.isWordStart c then some (rest.dropWhile Lexeme.isWordChar) else none := by
  rw [word, behind?_seq_char, behind?_many_char]

theorem drop_length_takeWhile (isIn : Char → Bool) (text : List Char) :
    text.drop (text.takeWhile isIn).length = text.dropWhile isIn := by
  induction text with
  | nil => rfl
  | cons c rest ih =>
    rw [List.takeWhile_cons, List.dropWhile_cons]
    split
    next => exact ih
    next => rfl

theorem behind?_fraction (text : List Char) :
    (optional (seq (char (· = '.')) (oneOrMore (char Char.isDigit)))).behind? text =
      some (text.drop (Lexeme.fractionPart text).length) := by
  rw [behind?_optional]
  match text with
  | [] => rfl
  | [c] =>
    rw [behind?_seq_char, Lexeme.fractionPart]
    · split <;> rfl
    · simp
  | c :: d :: rest =>
    rw [behind?_seq_char, behind?_oneOrMore_char]
    by_cases hpoint : c = '.'
    · subst hpoint
      rw [if_pos (by decide), Lexeme.fractionPart]
      by_cases hdigit : d.isDigit
      · rw [if_pos hdigit, if_pos hdigit, List.length_cons, List.length_cons, List.drop_succ_cons,
          List.drop_succ_cons, drop_length_takeWhile]
        rfl
      · rw [if_neg hdigit, if_neg hdigit]
        rfl
    · rw [if_neg (by simpa using hpoint), Lexeme.fractionPart]
      · rfl
      · rintro _ _ ⟨rfl, _⟩
        exact hpoint rfl

theorem behind?_number (c : Char) (rest : List Char) :
    number.behind? (c :: rest) =
      if c.isDigit then some (rest.drop (Lexeme.numberTail rest).length) else none := by
  have hdigits := behind?_oneOrMore_char Char.isDigit c rest
  by_cases hdigit : c.isDigit
  · rw [if_pos hdigit] at hdigits ⊢
    rw [number, behind?_seq_of_some hdigits (behind?_fraction _), Lexeme.numberTail,
      List.length_append, ← List.drop_drop, drop_length_takeWhile]
  · rw [if_neg hdigit, number, behind?_seq, oneOrMore, endings, endings, if_neg hdigit]
    rfl

theorem findSome?_roundEndings_of_round {α : Type} {round : List Char → List (List Char)}
    {text rest : List Char} (h : round text = [rest]) (hless : rest.length < text.length)
    (bound : Nat) (f : List Char → Option α) :
    (roundEndings round (bound + 1) text).findSome? f =
      ((roundEndings round bound rest).findSome? f).or (f text) := by
  have hfilter : [rest].filter (·.length < text.length) = [rest] := by simp [hless]
  rw [roundEndings, h, hfilter, List.flatMap_singleton, List.findSome?_append,
    List.findSome?_singleton]

theorem findSome?_roundEndings_of_stop {α : Type} {round : List Char → List (List Char)}
    {text : List Char} (h : round text = []) (bound : Nat) (f : List Char → Option α) :
    (roundEndings round bound text).findSome? f = f text := by
  cases bound with
  | zero => rw [roundEndings, List.findSome?_singleton]
  | succ bound =>
    rw [roundEndings, h, List.filter_nil, List.flatMap_nil, List.nil_append,
      List.findSome?_singleton]

/-- Only behind all the units that can be found does a quote come next. -/
theorem behind?_units (text : List Char) :
    (seq (many unit) (char (· = '"'))).behind? text =
      (Lexeme.stringTail? text).map fun tail => text.drop tail.length := by
  have hrounds (bound : Nat) (h : text.length ≤ bound) :
      (roundEndings unit.endings bound text).findSome? (char (· = '"')).behind? =
        (Lexeme.stringTail? text).map fun tail => text.drop tail.length := by
    fun_induction Lexeme.stringTail? text generalizing bound with
    | case1 => exact findSome?_roundEndings_of_stop rfl bound _
    | case2 rest => exact findSome?_roundEndings_of_stop rfl bound _
    | case3 => exact findSome?_roundEndings_of_stop rfl bound _
    | case4 rest => exact findSome?_roundEndings_of_stop rfl bound _
    | case5 c rest hnewline ih =>
      obtain _ | bound := bound
      · cases h
      · have hround : unit.endings ('\\' :: c :: rest) = [rest] := by
          simp [unit, endings, hnewline]
        rw [findSome?_roundEndings_of_round hround (by simp),
          ih bound (by simp only [List.length_cons] at h; omega)]
        cases Lexeme.stringTail? rest <;> rfl
    | case6 c rest hquote hlone hslash ih =>
      have hc : c ≠ '\\' := by
        rintro rfl
        cases rest with
        | nil => exact hlone rfl rfl
        | cons d rest => exact hslash d rest rfl rfl
      obtain _ | bound := bound
      · cases h
      · have hround : unit.endings (c :: rest) = [rest] := by
          have hquote : c ≠ '"' := hquote
          simp [unit, endings, hc, hquote]
        rw [findSome?_roundEndings_of_round hround (Nat.lt_succ_self _),
          ih bound (Nat.le_of_succ_le_succ h), behind?_char, if_neg (by simpa using hquote)]
        cases Lexeme.stringTail? rest <;> rfl
  rw [behind?_seq]
  exact hrounds text.length (Nat.le_refl _)

theorem behind?_literal (c : Char) (rest : List Char) :
    literal.behind? (c :: rest) =
      if c = '"' then (Lexeme.stringTail? rest).map (fun tail => rest.drop tail.length)
      else none := by
  rw [literal, behind?_seq_char, behind?_units]
  simp only [decide_eq_true_eq]

theorem behind?_comment (c : Char) (rest : List Char) :
    comment.behind? (c :: rest) =
      if c = '/' ∧ rest.head? = some '/' then some (rest.dropWhile (· ≠ '\n')) else none := by
  rw [comment, behind?_seq_char]
  cases rest with
  | nil =>
    have hnothing : (seq (char (· = '/')) (many (char (· ≠ '\n')))).behind? [] = none := rfl
    rw [hnothing, ite_self, if_neg fun h => absurd h.2 (by simp)]
  | cons d rest =>
    rw [behind?_seq_char, behind?_many_char]
    by_cases hc : c = '/'
    · by_cases hd : d = '/'
      · subst hd
        rw [if_pos (decide_eq_true hc), if_pos (by decide), if_pos ⟨hc, rfl⟩,
          List.dropWhile_cons_of_pos (by decide)]
      · rw [if_pos (decide_eq_true hc), if_neg (by simpa using hd),
          if_neg fun h => hd (Option.some.inj h.2)]
    · rw [if_neg (by simpa using hc), if_neg fun h => hc h.1]

end Pattern

end Scriptlet
