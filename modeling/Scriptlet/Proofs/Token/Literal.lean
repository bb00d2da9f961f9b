import Mathlib
import Scriptlet.Proofs.Token.Lossless

/-!
# Inside a string literal

Between its quotes a literal falls into pieces, from left to right: plain characters,
letters that stand for one character, numbers of characters, and backslashes that stand
for themselves (`Escape.Splits`).  A number takes two digits where it can, and one with
fewer is deficient.

A literal denotes what its pieces denote one behind the other, unless one of them is
deficient, and then the first such piece is at fault (`unescape_of_splits`).

A literal that was written for a text is one token, and it denotes that text
(`Token.ofSource_written_string`).
-/

namespace Scriptlet.Escape

/-! ## Letters and digits -/

/-- The letters that stand for one character behind a backslash, with that character. -/
def letters : List (Char × Char) :=
  [('n', '\n'), ('t', '\t'), ('r', '\r'), ('\\', '\\'), ('"', '"'), ('0', '\x00')]

/-- The hexadecimal digits with small letters, in the order of what they denote. -/
def smallDigits : List Char :=
  ['0', '1', '2', '3', '4', '5', '6', '7', '8', '9', 'a', 'b', 'c', 'd', 'e', 'f']

/-- The hexadecimal digits. -/
def hexDigits : List Char := smallDigits ++ ['A', 'B', 'C', 'D', 'E', 'F']

/-- What a hexadecimal digit denotes. -/
def digitValue (d : Char) : Nat := smallDigits.idxOf d.toLower

theorem letter?_eq_some_iff {c value : Char} : letter? c = some value ↔ (c, value) ∈ letters := by
  constructor
  · intro h
    unfold letter? at h
    split at h <;> cases h <;> decide
  · intro h
    simp only [letters, List.mem_cons, Prod.mk.injEq, List.not_mem_nil, or_false] at h
    rcases h with h | h | h | h | h | h <;> rw [h.1, h.2] <;> rfl

theorem letter?_eq_none_iff {c : Char} : letter? c = none ↔ ∀ value, (c, value) ∉ letters := by
  simp only [← letter?_eq_some_iff]
  exact Option.eq_none_iff_forall_ne_some

theorem isHexDigit_iff {d : Char} : isHexDigit d ↔ d ∈ hexDigits := by
  -- Beyond ASCII there is no digit, so the others can be gone through one by one.
  have hascii : ∀ code < 128, isHexDigit (Char.ofNat code) → Char.ofNat code ∈ hexDigits := by
    decide +kernel
  have hdigits : ∀ d ∈ hexDigits, isHexDigit d := List.all_eq_true.1 rfl
  refine ⟨fun h => ?_, hdigits d⟩
  have hcode : d.toNat < 128 := by
    have htoNat : d.toNat = d.val.toNat := rfl
    simp [isHexDigit, Char.isDigit, Char.le_def, UInt32.le_iff_toNat_le] at h
    omega
  rw [← Char.ofNat_toNat d] at h ⊢
  exact hascii _ hcode h

theorem hexValue_eq : ∀ d ∈ hexDigits, hexValue d = digitValue d := List.map_inj_left.1 rfl

/-! ## Pieces -/

/-- A piece of the inside of a literal. -/
inductive Piece where
  /-- A character other than a backslash. -/
  | plain (c : Char)
  /-- A backslash and a letter, which stand for one character. -/
  | letter (c value : Char)
  /-- `\x` and hexadecimal digits. -/
  | number (digits : List Char)
  /-- A backslash and any other character, which stand for themselves. -/
  | kept (c : Char)
  deriving DecidableEq, Repr

namespace Piece

/-- The characters of a piece. -/
def text : Piece → List Char
  | plain c => [c]
  | letter c _ => ['\\', c]
  | number digits => '\\' :: 'x' :: digits
  | kept c => ['\\', c]

/-- Whether a piece is a number that lacks a digit. -/
def isDeficient : Piece → Bool
  | number digits => digits.length < 2
  | _ => false

/-- What a piece denotes that is not deficient. -/
def value : Piece → List Char
  | plain c => [c]
  | letter _ value => [value]
  | number digits => [Char.ofNat (digits.foldl (fun code d => 16 * code + digitValue d) 0)]
  | kept c => ['\\', c]

end Piece

/-- The inside of a literal falls into pieces.  A number takes the digits behind it, up to
two. -/
inductive Splits : List Char → List Piece → Prop where
  /-- Nothing. -/
  | nil : Splits [] []
  /-- A plain character. -/
  | plain {c : Char} {rest : List Char} {pieces : List Piece} (hslash : c ≠ '\\')
      (h : Splits rest pieces) : Splits (c :: rest) (.plain c :: pieces)
  /-- A letter. -/
  | letter {c value : Char} {rest : List Char} {pieces : List Piece}
      (hletter : (c, value) ∈ letters) (h : Splits rest pieces) :
      Splits ('\\' :: c :: rest) (.letter c value :: pieces)
  /-- A number. -/
  | number {digits rest : List Char} {pieces : List Piece} (hdigits : ∀ d ∈ digits, d ∈ hexDigits)
      (hcount : digits.length ≤ 2)
      (hgreedy : digits.length < 2 → ∀ d ∈ rest.head?, d ∉ hexDigits) (h : Splits rest pieces) :
      Splits ('\\' :: 'x' :: (digits ++ rest)) (.number digits :: pieces)
  /-- A backslash that stands for itself. -/
  | kept {c : Char} {rest : List Char} {pieces : List Piece} (hx : c ≠ 'x')
      (hletter : ∀ value, (c, value) ∉ letters) (h : Splits rest pieces) :
      Splits ('\\' :: c :: rest) (.kept c :: pieces)

/-- The pieces are the characters of the literal. -/
theorem Splits.flatMap_text {text : List Char} {pieces : List Piece} (h : Splits text pieces) :
    pieces.flatMap Piece.text = text := by
  induction h with
  | nil => rfl
  | plain _ _ ih | letter _ _ ih | number _ _ _ _ ih | kept _ _ _ ih =>
    rw [List.flatMap_cons, ih]
    rfl

/-! ## What the pieces denote -/

theorem ne_x_of_mem_letters {c value : Char} (h : (c, value) ∈ letters) : c ≠ 'x' := by
  rintro rfl
  cases letter?_eq_some_iff.2 h

theorem unescape_letter {c value : Char} (h : (c, value) ∈ letters) (rest : List Char) :
    unescape ('\\' :: c :: rest) = (unescape rest).map (value :: ·) := by
  have hx := ne_x_of_mem_letters h
  rw [unescape, letter?_eq_some_iff.2 h]
  · exact fun high low others hc _ => hx hc
  · exact hx

theorem unescape_kept {c : Char} (hx : c ≠ 'x') (h : ∀ value, (c, value) ∉ letters)
    (rest : List Char) :
    unescape ('\\' :: c :: rest) = (unescape rest).map (['\\', c] ++ ·) := by
  rw [unescape, letter?_eq_none_iff.2 h]
  · rfl
  · exact fun high low others hc _ => hx hc
  · exact hx

/-- Two digits make a number. -/
theorem unescape_number {digits : List Char} (hdigits : ∀ d ∈ digits, d ∈ hexDigits)
    (hcount : digits.length = 2) (rest : List Char) :
    unescape ('\\' :: 'x' :: (digits ++ rest)) =
      (unescape rest).map ((Piece.number digits).value ++ ·) := by
  obtain ⟨high, low, rfl⟩ := List.length_eq_two.1 hcount
  have hhigh := hdigits high (.head _)
  have hlow := hdigits low (.tail _ (.head _))
  have hvalue : (Piece.number [high, low]).value =
      [Char.ofNat (16 * hexValue high + hexValue low)] := by
    simp only [Piece.value, List.foldl_cons, List.foldl_nil, Nat.mul_zero, Nat.zero_add,
      hexValue_eq high hhigh, hexValue_eq low hlow]
  rw [hvalue, List.cons_append, List.singleton_append, unescape, isHexDigit_iff.2 hhigh,
    isHexDigit_iff.2 hlow]
  rfl

/-- A number that lacks a digit is at fault. -/
theorem unescape_deficient {digits rest : List Char} (hdigits : ∀ d ∈ digits, d ∈ hexDigits)
    (hcount : digits.length < 2) (hstop : ∀ d ∈ rest.head?, d ∉ hexDigits) :
    unescape ('\\' :: 'x' :: (digits ++ rest)) = .error ('\\' :: 'x' :: digits) := by
  simp only [← isHexDigit_iff] at hdigits hstop
  rcases digits with _ | ⟨d, _ | ⟨e, digits⟩⟩
  · rcases rest with _ | ⟨e, _ | ⟨f, rest⟩⟩
    · rfl
    · have he : isHexDigit e = false := by simpa using hstop e rfl
      simp [unescape, deficient, he]
    · have he : isHexDigit e = false := by simpa using hstop e rfl
      simp [unescape, deficient, he]
  · have hd : isHexDigit d := hdigits d (.head _)
    rcases rest with _ | ⟨e, rest⟩
    · simp [unescape, deficient, hd]
    · have he : isHexDigit e = false := by simpa using hstop e rfl
      simp [unescape, deficient, hd, he]
  · simp at hcount

/-- A literal denotes what its pieces denote, or the first deficient one is at fault. -/
theorem unescape_of_splits {text : List Char} {pieces : List Piece} (h : Splits text pieces) :
    unescape text = match pieces.find? Piece.isDeficient with
      | some piece => .error piece.text
      | none => .ok (pieces.flatMap Piece.value) := by
  have hgoes (piece : Piece) (rest : List Piece) (text : List Char)
      (hrest : unescape text = match rest.find? Piece.isDeficient with
        | some piece => .error piece.text
        | none => .ok (rest.flatMap Piece.value)) (hpiece : piece.isDeficient = false) :
      (unescape text).map (piece.value ++ ·) =
        match (piece :: rest).find? Piece.isDeficient with
        | some piece => .error piece.text
        | none => .ok ((piece :: rest).flatMap Piece.value) := by
    rw [List.find?_cons_of_neg (by rw [hpiece]; decide), List.flatMap_cons, hrest]
    cases rest.find? Piece.isDeficient <;> rfl
  induction h with
  | nil => rfl
  | @plain c rest pieces hslash _ ih =>
    rw [unescape_cons c rest hslash]
    exact hgoes (.plain c) pieces rest ih rfl
  | @letter c value rest pieces hletter _ ih =>
    rw [unescape_letter hletter]
    exact hgoes (.letter c value) pieces rest ih rfl
  | @number digits rest pieces hdigits hcount hgreedy _ ih =>
    by_cases hless : digits.length < 2
    · rw [unescape_deficient hdigits hless (hgreedy hless), List.find?_cons_of_pos]
      · rfl
      · exact decide_eq_true hless
    · rw [unescape_number hdigits (by omega)]
      exact hgoes (.number digits) pieces rest ih (decide_eq_false hless)
  | @kept c rest pieces hx hletter _ ih =>
    rw [unescape_kept hx hletter]
    exact hgoes (.kept c) pieces rest ih rfl

/-- A number takes the digits at the front of a text, up to two. -/
theorem exists_digits (text : List Char) : ∃ digits rest, text = digits ++ rest ∧
    (∀ d ∈ digits, d ∈ hexDigits) ∧ digits.length ≤ 2 ∧
    (digits.length < 2 → ∀ d ∈ rest.head?, d ∉ hexDigits) := by
  simp only [← isHexDigit_iff]
  refine ⟨(text.takeWhile isHexDigit).take 2, (text.takeWhile isHexDigit).drop 2 ++
    text.dropWhile isHexDigit, ?_, ?_, List.length_take_le .., ?_⟩
  · rw [← List.append_assoc, List.take_append_drop, List.takeWhile_append_dropWhile]
  · exact fun d hd => List.mem_takeWhile_imp (List.mem_of_mem_take hd)
  · intro hless d hd
    rw [List.length_take] at hless
    rw [List.drop_of_length_le (by omega), List.nil_append] at hd
    exact not_of_mem_head?_dropWhile d hd

/-- Digits are plain characters. -/
theorem inside_of_digits {digits rest : List Char} (hdigits : ∀ d ∈ digits, d ∈ hexDigits)
    (h : Lexeme.Inside (digits ++ rest)) : Lexeme.Inside rest := by
  induction digits with
  | nil => exact h
  | cons d digits ih =>
    obtain ⟨hd, hothers⟩ := List.forall_mem_cons.1 hdigits
    refine ih hothers ?_
    rw [List.cons_append] at h
    generalize digits ++ rest = others at h ⊢
    cases h with
    | plain _ _ h => exact h
    | escaped => exact absurd hd (by decide)

/-- The inside of a literal falls into pieces. -/
theorem exists_splits {text : List Char} (h : Lexeme.Inside text) :
    ∃ pieces, Splits text pieces := by
  -- A number takes up more than one rule of `Inside`, so the induction is on the length.
  induction hlength : text.length using Nat.strong_induction_on generalizing text with
  | _ length ih =>
    subst hlength
    cases h with
    | nil => exact ⟨[], .nil⟩
    | @plain c rest _ hslash hrest =>
      obtain ⟨pieces, hpieces⟩ := ih _ (Nat.lt_succ_self _) hrest rfl
      exact ⟨_, .plain hslash hpieces⟩
    | @escaped c rest _ hrest =>
      by_cases hx : c = 'x'
      · subst hx
        obtain ⟨digits, others, rfl, hdigits, hcount, hgreedy⟩ := exists_digits rest
        obtain ⟨pieces, hpieces⟩ := ih others.length (by simp; omega)
          (inside_of_digits hdigits hrest) rfl
        exact ⟨_, .number hdigits hcount hgreedy hpieces⟩
      · obtain ⟨pieces, hpieces⟩ := ih rest.length (by simp) hrest rfl
        cases hletter : letter? c with
        | some value => exact ⟨_, .letter (letter?_eq_some_iff.1 hletter) hpieces⟩
        | none => exact ⟨_, .kept hx (letter?_eq_none_iff.1 hletter) hpieces⟩

end Scriptlet.Escape

namespace Scriptlet.Token

/-- The text of a string is read as one token that denotes the string and takes up the whole
text. -/
theorem ofSource_written_string (file value : String) :
    ofSource file (Expr.string value).written =
      .ok [⟨.string, value,
          .ofSize file 0 (Text.byteSize (Expr.string value).written.toList)⟩,
        endMark file (Text.byteSize (Expr.string value).written.toList)] := by
  rw [Expr.written, ofSource, toList_literal, ofText, ← List.append_nil (_ ++ ['"']),
    next?_literal]
  simp only [List.append_nil, List.drop_length, Nat.zero_add]
  rw [ofText]
  rfl

end Scriptlet.Token
