import Mathlib
import Scriptlet.Proofs.Scan.Pattern
import Scriptlet.Proofs.Token.Failure

/-!
# The table of lexemes

The rows of the table are tried in order, and the first one whose pattern is found says what to do
with the characters.  Words and numbers are tried before anything else, and comments before the
mark that starts like one.

The rows know their patterns but not what these find.  A mark is written down twice, once as the
character of its pattern and once as the text that is taken over.  `Row.Takes` says what has to
fit together for a row to be of use, and `exists_takes` that the row which is found for a lexeme is
such a row and gives the lexeme.  Where no lexeme starts, no row is found (`rowAt?_eq_none`).
-/

namespace Scriptlet

open Token (Kind)

namespace Pattern

/-- What is done with the characters of a lexeme. -/
inductive Action where
  /-- They are a reserved word or a name. -/
  | word
  /-- They are a number. -/
  | number
  /-- They are passed over. -/
  | skip
  /-- They are a string literal. -/
  | literal
  /-- Whatever they are, a mark of some kind with this text is taken over. -/
  | mark (kind : Kind) (text : String)
  deriving DecidableEq

/-- A row of the table. -/
structure Row where
  /-- What is looked for. -/
  pattern : Pattern
  /-- What is done with it. -/
  action : Action

/-- The row of a punctuation mark. -/
def mark (c : Char) (kind : Kind) (text : String) : Row := ⟨char (· = c), .mark kind text⟩

/-- The rows of the punctuation marks. -/
def marks : List Row :=
  [mark '[' .openBracket "[", mark ']' .closeBracket "]", mark '{' .openCurly "\x7b",
    mark '}' .closeCurly "\x7d", mark '(' .openParen "(", mark ')' .closeParen ")",
    mark '=' .assignment "=", mark '.' .dot ".", mark ':' .colon ":", mark ',' .comma ",",
    mark '+' .plus "+", mark '-' .dash "-", mark '/' .slash "/", mark '*' .star "*",
    mark '%' .percent "%"]

/-- The rows of the table. -/
def rows : List Row :=
  [⟨word, .word⟩, ⟨number, .number⟩, ⟨blanks, .skip⟩, ⟨literal, .literal⟩, ⟨comment, .skip⟩] ++
    marks

/-- The first row whose pattern is found at the front of a text. -/
def rowAt? (text : List Char) : Option Row := rows.find? (·.pattern.isFound text)

/-- What a lexeme says by the row that is found for it. -/
def Action.content : Action → List Char → Lexeme.Content
  | word, raw => .token (Lexeme.wordKind raw) (String.ofList raw)
  | number, raw => .token .number (String.ofList raw)
  | skip, _ => .gap
  | literal, raw => Lexeme.stringContent raw.tail
  | mark kind text, _ => .token kind text

/-- The characters are such as a row expects.  A mark has its own text for them, and a literal is
read between its quotes. -/
def Action.Suits : Action → List Char → Prop
  | mark _ text, raw => text.toList = raw
  | literal, raw => ∃ inside, raw = '"' :: (inside ++ ['"'])
  | word, _ | number, _ | skip, _ => True

/-- A row takes over the first characters of a text, and leaves the others. -/
structure Row.Takes (row : Row) (text raw behind : List Char) : Prop where
  /-- What is taken over and what is left are the text. -/
  split : text = raw ++ behind
  /-- Something is taken over. -/
  ne_nil : raw ≠ []
  /-- This is what the pattern finds. -/
  found : row.pattern.found text = raw
  /-- The row does not expect anything else. -/
  suits : row.action.Suits raw

/-! ## The row of a lexeme -/

section

variable (c : Char) (rest : List Char)

theorem isFound_char (isIn : Char → Bool) : (char isIn).isFound (c :: rest) = isIn c := by
  rw [isFound, behind?_char]
  cases isIn c <;> rfl

theorem isFound_word : word.isFound (c :: rest) = Lexeme.isWordStart c := by
  rw [isFound, behind?_word]
  cases Lexeme.isWordStart c <;> rfl

theorem isFound_number : number.isFound (c :: rest) = c.isDigit := by
  rw [isFound, behind?_number]
  cases c.isDigit <;> rfl

theorem isFound_blanks : blanks.isFound (c :: rest) = Text.isBlank c := by
  rw [isFound, blanks, behind?_oneOrMore_char]
  cases Text.isBlank c <;> rfl

theorem isFound_literal :
    literal.isFound (c :: rest) = (c == '"' && (Lexeme.stringTail? rest).isSome) := by
  rw [isFound, behind?_literal]
  by_cases hquote : c = '"' <;> simp [hquote]

theorem isFound_comment :
    comment.isFound (c :: rest) = (c == '/' && rest.head? == some '/') := by
  rw [isFound, behind?_comment]
  by_cases hslash : c = '/' <;> by_cases hrest : rest.head? = some '/' <;> simp [hslash, hrest]

/-- The row of a mark has the text and the kind of its character. -/
theorem find?_marks :
    marks.find? (·.pattern.isFound (c :: rest)) =
      (Lexeme.punctuation? c).map fun kind => mark c kind (String.singleton c) := by
  simp only [marks, mark, List.find?_cons, List.find?_nil, isFound_char]
  cases hmark : Lexeme.punctuation? c with
  | none =>
    unfold Lexeme.punctuation? at hmark
    split at hmark <;> first | contradiction | simp_all
  | some kind =>
    unfold Lexeme.punctuation? at hmark
    split at hmark <;> cases hmark <;> rfl

/-- The first row that is found for a text. -/
theorem rowAt?_cons :
    rowAt? (c :: rest) =
      if Lexeme.isWordStart c then some ⟨word, .word⟩
      else if c.isDigit then some ⟨number, .number⟩
      else if Text.isBlank c then some ⟨blanks, .skip⟩
      else if c == '"' && (Lexeme.stringTail? rest).isSome then some ⟨literal, .literal⟩
      else if c == '/' && rest.head? == some '/' then some ⟨comment, .skip⟩
      else (Lexeme.punctuation? c).map fun kind => mark c kind (String.singleton c) := by
  rw [← find?_marks c rest, rowAt?, rows]
  simp only [List.cons_append, List.nil_append, List.find?_cons, isFound_word, isFound_number,
    isFound_blanks, isFound_literal, isFound_comment]
  split_ifs with hword hdigit hblank hliteral hcomment <;>
    simp only [*, Bool.not_eq_true] at *

end

/-- Without a lexeme there is no row. -/
theorem rowAt?_eq_none {c : Char} {rest : List Char} (h : Lexeme.next? c rest = none) :
    rowAt? (c :: rest) = none := by
  have hliteral : ¬ (c == '"' && (Lexeme.stringTail? rest).isSome) := by
    intro hboth
    obtain ⟨hquote, htail⟩ := Bool.and_eq_true_iff.1 hboth
    obtain rfl := beq_iff_eq.1 hquote
    rw [Lexeme.next?_quote, Option.map_eq_none_iff] at h
    rw [h] at htail
    cases htail
  obtain ⟨hword, hdigit, hblank, hmark, _⟩ := Lexeme.next?_eq_none_iff.1 h
  have hcomment : ¬ (c == '/' && rest.head? == some '/') := by
    intro hboth
    obtain rfl := beq_iff_eq.1 (Bool.and_eq_true_iff.1 hboth).1
    cases hmark
  rw [rowAt?_cons, if_neg hword, if_neg hdigit, if_neg hblank, if_neg hliteral, if_neg hcomment,
    hmark, Option.map_none]

/-- The row of a lexeme leaves what is behind the lexeme, and says what it says. -/
theorem exists_rowAt? {c : Char} {rest : List Char} {lexeme : Lexeme}
    (h : Lexeme.next? c rest = some lexeme) :
    ∃ row, rowAt? (c :: rest) = some row ∧
      row.pattern.behind? (c :: rest) = some (rest.drop lexeme.tail.length) ∧
      row.action.content (c :: lexeme.tail) = lexeme.content ∧
      row.action.Suits (c :: lexeme.tail) := by
  have hfront := Lexeme.atFront_of_next? h
  rw [rowAt?_cons]
  cases hfront with
  | word hword =>
    refine ⟨⟨word, .word⟩, if_pos hword, ?_, rfl, trivial⟩
    rw [behind?_word, if_pos hword, drop_length_takeWhile]
  | number hdigit =>
    refine ⟨⟨number, .number⟩, ?_, ?_, rfl, trivial⟩
    · rw [Lexeme.not_isWordStart_of_isDigit hdigit, if_neg Bool.false_ne_true, if_pos hdigit]
    · rw [behind?_number, if_pos hdigit]
  | blanks hblank =>
    obtain ⟨hword, hdigit⟩ := Lexeme.not_isWordStart_of_isBlank hblank
    refine ⟨⟨blanks, .skip⟩, ?_, ?_, rfl, trivial⟩
    · rw [hword, hdigit, if_neg Bool.false_ne_true, if_neg Bool.false_ne_true, if_pos hblank]
    · rw [blanks, behind?_oneOrMore_char, if_pos hblank, drop_length_takeWhile]
  | @literal _ tail htail =>
    obtain ⟨inside, _, rfl, _, _⟩ := Lexeme.exists_inside htail
    refine ⟨⟨literal, .literal⟩, ?_, ?_, rfl, inside, rfl⟩
    · rw [htail]
      rfl
    · rw [behind?_literal, if_pos rfl, htail]
      rfl
  | comment rest =>
    refine ⟨⟨comment, .skip⟩, rfl, ?_, rfl, trivial⟩
    rw [behind?_comment, if_pos ⟨rfl, rfl⟩, drop_length_takeWhile]
  | @mark _ _ kind hmark hcomment =>
    obtain ⟨hword, hdigit, hblank, hquote⟩ := Lexeme.not_isWordStart_of_punctuation? hmark
    have hslashes : ¬ (c == '/' && rest.head? == some '/') := by
      intro hboth
      obtain ⟨hslash, hrest⟩ := Bool.and_eq_true_iff.1 hboth
      exact hcomment (beq_iff_eq.1 hslash) (beq_iff_eq.1 hrest)
    refine ⟨mark c kind (String.singleton c), ?_, ?_, rfl, String.toList_singleton c⟩
    · simp [hword, hdigit, hblank, hquote, hslashes, hmark]
    · rw [mark, behind?_char, if_pos (decide_eq_true rfl)]
      rfl

/-- The row of a lexeme takes over the characters of the lexeme. -/
theorem exists_takes {c : Char} {rest : List Char} {lexeme : Lexeme}
    (h : Lexeme.next? c rest = some lexeme) :
    ∃ row behind, rowAt? (c :: rest) = some row ∧
      row.Takes (c :: rest) (c :: lexeme.tail) behind ∧
      row.action.content (c :: lexeme.tail) = lexeme.content := by
  obtain ⟨row, hrow, hbehind, hcontent, hsuits⟩ := exists_rowAt? h
  obtain ⟨behind, rfl, _⟩ := Lexeme.standsBefore_of_next? h
  rw [List.drop_left, ← List.cons_append] at hbehind
  exact ⟨row, behind, hrow, ⟨rfl, List.cons_ne_nil _ _, found_of_behind? hbehind, hsuits⟩, hcontent⟩

end Pattern

end Scriptlet
