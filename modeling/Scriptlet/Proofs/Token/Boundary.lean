import Mathlib
import Scriptlet.Proofs.Token.Lossless

/-!
# Where a lexeme ends

Some characters are a lexeme because of what they are and because of what comes behind
them.  `Lexeme.StandsBefore` lists the six forms of a lexeme in this way, and the reader
of lexemes finds just these (`next?_eq_some_iff`).

So a lexeme stays one when the text is cut anywhere behind it (`StandsBefore.cut`), and
when a newline and more is put behind the text (`StandsBefore.newline`).  Blanks at the
end of a text are the exception, since a newline goes on with them.

A text is read by getting over one lexeme after the other, and `Token.ofText_induction` is
the induction along this.
-/

namespace Scriptlet.Lexeme

open Token (Kind)

/-- A lexeme with a first character stands before some others. -/
inductive StandsBefore (behind : List Char) : Char → Lexeme → Prop where
  /-- A word, with no character of a word behind it. -/
  | word {c : Char} {tail : List Char} (hword : isWordStart c) (htail : ∀ d ∈ tail, isWordChar d)
      (hstop : ∀ d ∈ behind.head?, ¬ isWordChar d) :
      StandsBefore behind c
        ⟨tail, .token (wordKind (c :: tail)) (String.ofList (c :: tail))⟩
  /-- A number, with no digit behind it and, if it has no point, no point and digit. -/
  | number {c : Char} {tail : List Char} (hplain : Numeral.Plain (c :: tail))
      (hdigit : ∀ d ∈ behind.head?, ¬ d.isDigit)
      (hwhole : '.' ∉ tail → ∀ d others, behind = '.' :: d :: others → ¬ d.isDigit) :
      StandsBefore behind c ⟨tail, .token .number (String.ofList (c :: tail))⟩
  /-- Blanks, with no blank behind them. -/
  | blanks {c : Char} {tail : List Char} (hblank : ∀ d ∈ c :: tail, Text.isBlank d)
      (hstop : ∀ d ∈ behind.head?, ¬ Text.isBlank d) : StandsBefore behind c ⟨tail, .gap⟩
  /-- A string literal, whatever is behind it. -/
  | literal {inside : List Char} (hinside : Inside inside) :
      StandsBefore behind '"' ⟨inside ++ ['"'], stringContent (inside ++ ['"'])⟩
  /-- A comment, with a newline behind it or nothing. -/
  | comment {body : List Char} (hbody : ∀ d ∈ body, d ≠ '\n')
      (hstop : ∀ d ∈ behind.head?, d = '\n') : StandsBefore behind '/' ⟨'/' :: body, .gap⟩
  /-- A punctuation mark, and if it is a slash no slash behind it. -/
  | mark {c : Char} {kind : Kind} (hmark : punctuation? c = some kind)
      (hcomment : c = '/' → behind.head? ≠ some '/') :
      StandsBefore behind c ⟨[], .token kind (String.singleton c)⟩

/-! ## The reader of lexemes -/

/-- A literal goes on to the first quote that is not part of an escape. -/
theorem stringTail?_of_inside {inside : List Char} (h : Inside inside) (behind : List Char) :
    stringTail? (inside ++ '"' :: behind) = some (inside ++ ['"']) := by
  induction h with
  | nil => rfl
  | @plain c text hquote hslash _ ih =>
    rw [List.cons_append, stringTail?, ih]
    · rfl
    · exact hquote
    · exact fun h _ => hslash h
    · exact fun _ _ h _ => hslash h
  | escaped hnewline _ ih =>
    rw [List.cons_append, List.cons_append, stringTail?, if_neg hnewline, ih]
    rfl

theorem next?_comment (rest : List Char) :
    next? '/' ('/' :: rest) = some ⟨'/' :: rest.takeWhile (· ≠ '\n'), .gap⟩ := by
  rw [next?, if_neg, if_neg, if_neg, if_neg, if_pos ⟨rfl, rfl⟩,
    List.takeWhile_cons_of_pos (by decide)] <;> decide

/-- What is found at the front of a text stands before what is left of it. -/
theorem standsBefore_of_next? {c : Char} {text : List Char} {lexeme : Lexeme}
    (h : next? c text = some lexeme) :
    ∃ behind, text = lexeme.tail ++ behind ∧ StandsBefore behind c lexeme := by
  cases atFront_of_next? h with
  | word hword =>
    exact ⟨_, List.takeWhile_append_dropWhile.symm,
      .word hword (fun _ hd => List.mem_takeWhile_imp hd) not_of_mem_head?_dropWhile⟩
  | number hdigit =>
    obtain ⟨behind, hsplit, _, hstop, hwhole⟩ := exists_numberTail text
    exact ⟨behind, hsplit, .number (plain_numberTail hdigit text) hstop hwhole⟩
  | blanks hblank =>
    refine ⟨_, List.takeWhile_append_dropWhile.symm, .blanks ?_ not_of_mem_head?_dropWhile⟩
    exact List.forall_mem_cons.2 ⟨hblank, fun _ hd => List.mem_takeWhile_imp hd⟩
  | literal htail =>
    obtain ⟨inside, behind, rfl, hsplit, hinside⟩ := exists_inside htail
    exact ⟨behind, hsplit, .literal hinside⟩
  | comment rest =>
    rw [List.takeWhile_cons_of_pos (by decide)]
    refine ⟨rest.dropWhile (· ≠ '\n'), ?_, .comment ?_ ?_⟩
    · rw [List.cons_append, List.takeWhile_append_dropWhile]
    · intro d hd
      have hbody := List.mem_takeWhile_imp hd
      simpa using hbody
    · intro d hd
      have hstop := not_of_mem_head?_dropWhile d hd
      simpa using hstop
  | mark hmark hcomment => exact ⟨text, rfl, .mark hmark hcomment⟩

/-- What stands before some characters is found there. -/
theorem StandsBefore.next? {c : Char} {behind : List Char} {lexeme : Lexeme}
    (h : StandsBefore behind c lexeme) :
    Lexeme.next? c (lexeme.tail ++ behind) = some lexeme := by
  cases h with
  | word hword htail hstop =>
    rw [Lexeme.next?, if_pos hword]
    simp only [(takeWhile_append_of_head htail hstop).1]
  | number hplain hdigit hwhole =>
    obtain ⟨_, ⟨⟩, hc⟩ := hplain.head_isDigit
    rw [Lexeme.next?, if_neg (by rw [not_isWordStart_of_isDigit hc]; decide), if_pos hc]
    simp only [numberTail_append_of_plain hplain hdigit hwhole]
  | blanks hblank hstop =>
    obtain ⟨hc, htail⟩ := List.forall_mem_cons.1 hblank
    rw [next?_of_isBlank hc, (takeWhile_append_of_head htail hstop).1]
  | literal hinside =>
    rw [next?_quote, List.append_assoc, List.singleton_append, stringTail?_of_inside hinside]
    rfl
  | @comment body hbody hstop =>
    have hrun : (body ++ behind).takeWhile (· ≠ '\n') = body := by
      refine (takeWhile_append_of_head (p := (· ≠ '\n')) ?_ ?_).1
      · simpa using hbody
      · simpa using hstop
    rw [List.cons_append, next?_comment, hrun]
  | mark hmark hcomment => exact next?_of_punctuation? hmark hcomment

/-- The lexeme at the front of a text is the one that stands before the rest of it. -/
theorem next?_eq_some_iff {c : Char} {text : List Char} {lexeme : Lexeme} :
    Lexeme.next? c text = some lexeme ↔
      ∃ behind, text = lexeme.tail ++ behind ∧ StandsBefore behind c lexeme := by
  constructor
  · exact standsBefore_of_next?
  · rintro ⟨behind, rfl, h⟩
    exact h.next?

/-! ## Cutting and going on -/

namespace StandsBefore

variable {c : Char} {behind further : List Char} {lexeme : Lexeme}

/-- A text may be cut anywhere behind a lexeme. -/
theorem cut (h : StandsBefore (behind ++ further) c lexeme) : StandsBefore behind c lexeme := by
  have hhead : ∀ d ∈ behind.head?, d ∈ (behind ++ further).head? := by
    intro d hd
    rw [List.head?_append, hd]
    rfl
  cases h with
  | word hword htail hstop => exact .word hword htail fun d hd => hstop d (hhead d hd)
  | number hplain hdigit hwhole =>
    refine .number hplain (fun d hd => hdigit d (hhead d hd)) fun hpoint d others hbehind => ?_
    subst hbehind
    exact hwhole hpoint d (others ++ further) rfl
  | blanks hblank hstop => exact .blanks hblank fun d hd => hstop d (hhead d hd)
  | literal hinside => exact .literal hinside
  | comment hbody hstop => exact .comment hbody fun d hd => hstop d (hhead d hd)
  | mark hmark hcomment => exact .mark hmark fun hslash hd => hcomment hslash (hhead _ hd)

/-- A newline may come at the end of a text, and anything behind the newline.  Only blanks at
the end go on with it. -/
theorem newline (h : StandsBefore behind c lexeme) (further : List Char) :
    StandsBefore (behind ++ '\n' :: further) c lexeme ∨
      lexeme.content = .gap ∧ ∀ d ∈ c :: lexeme.tail, Text.isBlank d := by
  have hhead : ∀ d ∈ (behind ++ '\n' :: further).head?, d ∈ behind.head? ∨ d = '\n' := by
    intro d hd
    cases behind with
    | nil => exact .inr (Option.some.inj hd).symm
    | cons => exact .inl hd
  cases h with
  | word hword htail hstop =>
    refine .inl (.word hword htail fun d hd => ?_)
    rcases hhead d hd with hd | rfl
    · exact hstop d hd
    · decide
  | number hplain hdigit hwhole =>
    refine .inl (.number hplain (fun d hd => ?_) fun hpoint d others hbehind => ?_)
    · rcases hhead d hd with hd | rfl
      · exact hdigit d hd
      · decide
    · -- The newline is at best the second of the two characters, and it is no digit.
      rcases behind with _ | ⟨_, _ | ⟨_, behind⟩⟩
      · cases hbehind
      · cases hbehind
        decide
      · cases hbehind
        exact hwhole hpoint d behind rfl
  | blanks hblank _ => exact .inr ⟨rfl, hblank⟩
  | literal hinside => exact .inl (.literal hinside)
  | comment hbody hstop =>
    exact .inl (.comment hbody fun d hd => (hhead d hd).elim (hstop d) id)
  | mark hmark hcomment =>
    refine .inl (.mark hmark fun hslash hd => ?_)
    rcases hhead _ hd with hd | hd
    · exact hcomment hslash hd
    · cases hd

end StandsBefore

end Scriptlet.Lexeme

namespace Scriptlet.Token

open Lexeme

/-! ## Steps of the reader of a text -/

variable {file : String} {offset : Nat} {c : Char} {tail rest : List Char}

theorem ofText_of_gap (h : next? c (tail ++ rest) = some ⟨tail, .gap⟩) :
    ofText file offset (c :: (tail ++ rest)) =
      ofText file (offset + Text.byteSize (c :: tail)) rest := by
  rw [ofText, h]
  simp only [List.drop_left]

theorem ofText_of_token {kind : Kind} {value : String}
    (h : next? c (tail ++ rest) = some ⟨tail, .token kind value⟩) :
    ofText file offset (c :: (tail ++ rest)) =
      (ofText file (offset + Text.byteSize (c :: tail)) rest).map
        (⟨kind, value, .ofSize file offset (Text.byteSize (c :: tail))⟩ :: ·) := by
  rw [ofText, h]
  simp only [List.drop_left]

/-- What holds at the end of a text and where the reading fails, and what holds before a lexeme
if it holds behind it, holds of every text at every offset. -/
@[elab_as_elim]
theorem ofText_induction {motive : Nat → List Char → Prop}
    (empty : ∀ offset, motive offset [])
    (unrecognised : ∀ {offset c rest}, next? c rest = none → motive offset (c :: rest))
    (badEscape : ∀ {offset c rest tail sequence},
      next? c rest = some ⟨tail, .badEscape sequence⟩ → motive offset (c :: rest))
    (gap : ∀ {offset c tail behind}, StandsBefore behind c ⟨tail, .gap⟩ →
      motive (offset + Text.byteSize (c :: tail)) behind → motive offset (c :: (tail ++ behind)))
    (token : ∀ {offset c tail behind kind value}, StandsBefore behind c ⟨tail, .token kind value⟩ →
      motive (offset + Text.byteSize (c :: tail)) behind → motive offset (c :: (tail ++ behind)))
    (offset : Nat) (text : List Char) : motive offset text := by
  induction hlength : text.length using Nat.strong_induction_on generalizing offset text with
  | _ length ih =>
    subst hlength
    cases text with
    | nil => exact empty offset
    | cons c rest =>
      cases hnext : next? c rest with
      | none => exact unrecognised hnext
      | some lexeme =>
        obtain ⟨tail, content⟩ := lexeme
        obtain ⟨behind, rfl, hstands⟩ : ∃ behind, rest = tail ++ behind ∧ _ :=
          standsBefore_of_next? hnext
        have hbehind (place : Nat) : motive place behind :=
          ih behind.length (by simp) place behind rfl
        cases content with
        | gap => exact gap hstands (hbehind _)
        | badEscape sequence => exact badEscape hnext
        | token kind value => exact token hstands (hbehind _)

/-- Blanks leave nothing behind, also when more blanks follow. -/
theorem ofText_of_blanks {blanks : List Char} (h : ∀ d ∈ blanks, Text.isBlank d) :
    ofText file offset (blanks ++ rest) = ofText file (offset + Text.byteSize blanks) rest := by
  induction blanks generalizing offset with
  | nil => rfl
  | cons d blanks ih =>
    obtain ⟨hd, hblanks⟩ := List.forall_mem_cons.1 h
    rw [List.cons_append, ofText_of_isBlank hd, ih hblanks, Text.byteSize_cons, Nat.add_assoc]

end Scriptlet.Token
