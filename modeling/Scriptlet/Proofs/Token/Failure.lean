import Mathlib
import Scriptlet.Proofs.Token.Boundary
import Scriptlet.Proofs.Token.Literal

/-!
# Where a source cannot be read on

The reader of a source gets over one lexeme after the other (`Token.Run`), until the
source is over or no lexeme that it can use comes next.  There are two ways for it to
stop: a character starts no lexeme at all (`Lexeme.Unrecognised`), or a complete literal
holds an escape that lacks a digit (`Lexeme.HasBadEscape`).  A failure stands just where
a run gets to and one of the two holds (`Token.fails_ofSource_exactly`).

Both are said without the reader of lexemes, by the characters that stand there.
-/

namespace Scriptlet

namespace Lexeme

/-! ## What cannot be read on -/

/-- No lexeme starts with a character that some others follow. -/
structure Unrecognised (c : Char) (rest : List Char) : Prop where
  /-- It starts no word. -/
  word : ¬ isWordStart c
  /-- It starts no number. -/
  number : ¬ c.isDigit
  /-- It is no blank. -/
  blank : ¬ Text.isBlank c
  /-- It is no punctuation mark. -/
  mark : punctuation? c = none
  /-- If it is a quote, no other quote ends the literal. -/
  literal : c = '"' → ∀ inside behind : List Char, rest = inside ++ '"' :: behind → ¬ Inside inside

/-- Behind a quote a literal is completed, and this is the first of its escapes that lack a
digit. -/
def HasBadEscape (rest : List Char) (sequence : String) : Prop :=
  ∃ (inside behind : List Char) (pieces : List Escape.Piece) (piece : Escape.Piece),
    rest = inside ++ '"' :: behind ∧ Inside inside ∧ Escape.Splits inside pieces ∧
      pieces.find? Escape.Piece.isDeficient = some piece ∧ sequence = String.ofList piece.text

theorem next?_eq_none_iff {c : Char} {rest : List Char} :
    next? c rest = none ↔ Unrecognised c rest := by
  constructor
  · intro h
    unfold next? at h
    split at h
    next => cases h
    next hword =>
      split at h
      next => cases h
      next hdigit =>
        split at h
        next => cases h
        next hblank =>
          split at h
          next hquote =>
            subst hquote
            refine ⟨hword, hdigit, hblank, rfl, ?_⟩
            rintro _ inside behind rfl hinside
            rw [stringTail?_of_inside hinside] at h
            cases h
          next hquote =>
            split at h
            next => cases h
            next =>
              exact ⟨hword, hdigit, hblank, Option.map_eq_none_iff.1 h,
                fun hc => absurd hc hquote⟩
  · intro h
    have hcomment : ¬ (c = '/' ∧ rest.head? = some '/') := by
      rintro ⟨rfl, _⟩
      cases h.mark
    rw [next?, if_neg h.word, if_neg h.number, if_neg h.blank, if_neg hcomment, h.mark]
    split
    next hquote =>
      cases htail : stringTail? rest with
      | none => rfl
      | some tail =>
        obtain ⟨inside, behind, rfl, rfl, hinside⟩ := exists_inside htail
        rw [List.append_assoc] at h
        exact absurd hinside (h.literal hquote inside behind rfl)
    next => rfl

theorem stringContent_of_deficient {inside : List Char} {pieces : List Escape.Piece}
    {piece : Escape.Piece} (h : Escape.Splits inside pieces)
    (hfind : pieces.find? Escape.Piece.isDeficient = some piece) :
    stringContent (inside ++ ['"']) = .badEscape (String.ofList piece.text) := by
  rw [stringContent, List.dropLast_concat, Escape.unescape_of_splits h, hfind]

theorem stringContent_of_complete {inside : List Char} {pieces : List Escape.Piece}
    (h : Escape.Splits inside pieces) (hfind : pieces.find? Escape.Piece.isDeficient = none) :
    stringContent (inside ++ ['"']) =
      .token .string (String.ofList (pieces.flatMap Escape.Piece.value)) := by
  rw [stringContent, List.dropLast_concat, Escape.unescape_of_splits h, hfind]

/-- A complete literal is at fault for its first escape that lacks a digit. -/
theorem stringContent_eq_badEscape_iff {inside : List Char} {sequence : String}
    (h : Inside inside) : stringContent (inside ++ ['"']) = .badEscape sequence ↔
      ∃ pieces piece, Escape.Splits inside pieces ∧
        pieces.find? Escape.Piece.isDeficient = some piece ∧
        sequence = String.ofList piece.text := by
  constructor
  · intro hbad
    obtain ⟨pieces, hsplits⟩ := Escape.exists_splits h
    cases hfind : pieces.find? Escape.Piece.isDeficient with
    | none =>
      rw [stringContent_of_complete hsplits hfind] at hbad
      cases hbad
    | some piece =>
      rw [stringContent_of_deficient hsplits hfind] at hbad
      cases hbad
      exact ⟨pieces, piece, hsplits, hfind, rfl⟩
  · rintro ⟨pieces, piece, hsplits, hfind, rfl⟩
    exact stringContent_of_deficient hsplits hfind

theorem next?_eq_badEscape_iff {c : Char} {rest : List Char} {sequence : String} :
    (∃ tail, next? c rest = some ⟨tail, .badEscape sequence⟩) ↔
      c = '"' ∧ HasBadEscape rest sequence := by
  constructor
  · rintro ⟨tail, h⟩
    obtain ⟨behind, hrest, hstands⟩ := standsBefore_of_next? h
    generalize hlexeme : (⟨tail, .badEscape sequence⟩ : Lexeme) = lexeme at hstands
    cases hstands with
    | literal hinside =>
      cases congrArg Lexeme.tail hlexeme
      obtain ⟨pieces, piece, hsplits, hfind, hsequence⟩ :=
        (stringContent_eq_badEscape_iff hinside).1 (congrArg Lexeme.content hlexeme).symm
      exact ⟨rfl, _, behind, pieces, piece, hrest.trans (List.append_assoc ..), hinside, hsplits,
        hfind, hsequence⟩
    | word | number | blanks | comment | mark => cases hlexeme
  · rintro ⟨rfl, inside, behind, pieces, piece, rfl, hinside, hsplits, hfind, hsequence⟩
    have hcontent := (stringContent_eq_badEscape_iff hinside).2
      ⟨pieces, piece, hsplits, hfind, hsequence⟩
    have hstands : StandsBefore behind '"' ⟨inside ++ ['"'], _⟩ := .literal hinside
    have hnext := hstands.next?
    rw [hcontent, List.append_assoc] at hnext
    exact ⟨_, hnext⟩

/-- Why a text cannot be read on from a character. -/
def Refuses (c : Char) (rest : List Char) : Cause → Prop
  | .unrecognisedToken token => token = String.singleton c ∧ Unrecognised c rest
  | .invalidEscape sequence => c = '"' ∧ HasBadEscape rest sequence
  | _ => False

end Lexeme

namespace Token

open Lexeme

/-! ## Runs -/

/-- A run over a source gets over some characters, lexeme by lexeme, with others behind them.
It starts at some offset and leaves some tokens. -/
inductive Run (file : String) (behind : List Char) : Nat → List Char → List Token → Prop where
  /-- No step. -/
  | stay (offset : Nat) : Run file behind offset [] []
  /-- A step over a gap. -/
  | gap {offset : Nat} {c : Char} {tail front : List Char} {tokens : List Token}
      (hnext : next? c (tail ++ (front ++ behind)) = some ⟨tail, .gap⟩)
      (h : Run file behind (offset + Text.byteSize (c :: tail)) front tokens) :
      Run file behind offset (c :: (tail ++ front)) tokens
  /-- A step over a token. -/
  | token {offset : Nat} {c : Char} {tail front : List Char} {kind : Kind} {value : String}
      {tokens : List Token}
      (hnext : next? c (tail ++ (front ++ behind)) = some ⟨tail, .token kind value⟩)
      (h : Run file behind (offset + Text.byteSize (c :: tail)) front tokens) :
      Run file behind offset (c :: (tail ++ front))
        (⟨kind, value, .ofSize file offset (Text.byteSize (c :: tail))⟩ :: tokens)

namespace Run

variable {file : String} {behind further front : List Char} {offset : Nat} {tokens : List Token}

/-- Where a run gets to, the reading goes on. -/
theorem ofText_eq (h : Run file behind offset front tokens) :
    ofText file offset (front ++ behind) =
      (ofText file (offset + Text.byteSize front) behind).map (tokens ++ ·) := by
  induction h with
  | stay offset =>
    rw [List.nil_append, Text.byteSize_nil, Nat.add_zero]
    cases ofText file offset behind <;> rfl
  | @gap offset c tail front tokens hnext _ ih =>
    rw [List.cons_append, List.append_assoc, ofText_of_gap hnext, ih, ← List.cons_append,
      Text.byteSize_append, Nat.add_assoc]
  | @token offset c tail front kind value tokens hnext _ ih =>
    rw [List.cons_append, List.append_assoc, ofText_of_token hnext, ih, ← List.cons_append,
      Text.byteSize_append, Nat.add_assoc]
    cases ofText file (offset + (Text.byteSize (c :: tail) + Text.byteSize front)) behind <;> rfl

/-- A run gets as far when the text is cut behind it. -/
theorem cut (h : Run file (behind ++ further) offset front tokens) :
    Run file behind offset front tokens := by
  have hstep {c : Char} {tail front : List Char} {content : Content}
      (hnext : next? c (tail ++ (front ++ (behind ++ further))) = some ⟨tail, content⟩) :
      next? c (tail ++ (front ++ behind)) = some ⟨tail, content⟩ := by
    obtain ⟨rest, hrest, hstands⟩ := standsBefore_of_next? hnext
    cases List.append_cancel_left hrest
    rw [← List.append_assoc] at hstands
    exact hstands.cut.next?
  induction h with
  | stay offset => exact .stay offset
  | gap hnext _ ih => exact .gap (hstep hnext) ih
  | token hnext _ ih => exact .token (hstep hnext) ih

/-- What a run gets over can be read alone. -/
theorem ofText_front (h : Run file behind offset front tokens) :
    ofText file offset front =
      .ok (tokens ++ [endMark file (offset + Text.byteSize front)]) := by
  have halone : Run file [] offset front tokens := cut h
  have hfront := halone.ofText_eq
  rw [List.append_nil] at hfront
  rw [hfront, ofText]
  rfl

end Run

/-! ## Failures -/

/-- A text that cannot be read on from its first character fails there. -/
theorem ofText_of_refuses {file : String} {offset : Nat} {c : Char} {rest : List Char}
    {cause : Cause} (h : Refuses c rest cause) :
    ofText file offset (c :: rest) = .error ⟨cause, .ofNat file offset⟩ := by
  cases cause with
  | unrecognisedToken token =>
    obtain ⟨rfl, hnone⟩ := h
    rw [ofText, next?_eq_none_iff.2 hnone]
  | invalidEscape sequence =>
    obtain ⟨tail, hnext⟩ := next?_eq_badEscape_iff.2 h
    rw [ofText, hnext]
  | _ => exact h.elim

/-- A text fails where a run gets to a character from which it cannot be read on. -/
theorem ofText_eq_error_iff {file : String} {offset : Nat} {text : List Char} {d : Diagnostic} :
    ofText file offset text = .error d ↔ ∃ (front : List Char) (c : Char) (rest : List Char)
      (tokens : List Token), text = front ++ c :: rest ∧ Run file (c :: rest) offset front tokens ∧
        Refuses c rest d.cause ∧ d.position = .ofNat file (offset + Text.byteSize front) := by
  constructor
  · intro h
    induction offset, text using ofText_induction with
    | empty offset =>
      rw [ofText] at h
      cases h
    | @unrecognised offset c rest hnext =>
      rw [ofText, hnext] at h
      cases h
      exact ⟨[], c, rest, [], rfl, .stay offset, ⟨rfl, next?_eq_none_iff.1 hnext⟩, rfl⟩
    | @badEscape offset c rest tail sequence hnext =>
      rw [ofText, hnext] at h
      cases h
      exact ⟨[], c, rest, [], rfl, .stay offset, next?_eq_badEscape_iff.1 ⟨tail, hnext⟩, rfl⟩
    | @gap offset c tail behind hstands ih =>
      rw [ofText_of_gap hstands.next?] at h
      obtain ⟨front, c', rest', tokens, rfl, hrun, hrefuses, hposition⟩ := ih h
      refine ⟨c :: (tail ++ front), c', rest', tokens, ?_, .gap hstands.next? hrun, hrefuses, ?_⟩
      · rw [List.cons_append, List.append_assoc]
      · rw [hposition, ← List.cons_append, Text.byteSize_append, Nat.add_assoc]
    | @token offset c tail behind kind value hstands ih =>
      rw [ofText_of_token hstands.next?] at h
      cases hlater : ofText file (offset + Text.byteSize (c :: tail)) behind with
      | ok tokens =>
        rw [hlater] at h
        cases h
      | error d' =>
        rw [hlater] at h
        cases h
        obtain ⟨front, c', rest', tokens, rfl, hrun, hrefuses, hposition⟩ := ih hlater
        refine ⟨c :: (tail ++ front), c', rest', _, ?_, .token hstands.next? hrun, hrefuses, ?_⟩
        · rw [List.cons_append, List.append_assoc]
        · rw [hposition, ← List.cons_append, Text.byteSize_append, Nat.add_assoc]
  · rintro ⟨front, c, rest, tokens, rfl, hrun, hrefuses, hposition⟩
    rw [hrun.ofText_eq, ofText_of_refuses hrefuses, ← hposition]
    rfl

/-- A source fails at one of its characters, behind a part that can be read alone, and there
either no lexeme starts or a literal holds a bad escape.  Wherever a run over the source gets
to such a place, it fails. -/
theorem fails_ofSource_exactly (file source : String) (d : Diagnostic)
    (hsize : Text.byteSize source.toList < 2 ^ 32) :
    (ofSource file source = .error d →
      d.position.file = file ∧ d.position.offset.toNat < Text.byteSize source.toList ∧
      ∃ (front : List Char) (c : Char) (rest : List Char) (tokens : List Token),
        source.toList = front ++ c :: rest ∧ Text.byteSize front = d.position.offset.toNat ∧
        ofSource file (String.ofList front) =
          .ok (tokens ++ [endMark file (Text.byteSize front)]) ∧
        Run file (c :: rest) 0 front tokens ∧
        Xor (d.cause = .unrecognisedToken (String.singleton c) ∧ Unrecognised c rest)
          (∃ sequence, d.cause = .invalidEscape sequence ∧ c = '"' ∧ HasBadEscape rest sequence)) ∧
    ∀ (front : List Char) (c : Char) (rest : List Char) (tokens : List Token),
      source.toList = front ++ c :: rest → Run file (c :: rest) 0 front tokens →
      d.position = .ofNat file (Text.byteSize front) →
      (d.cause = .unrecognisedToken (String.singleton c) ∧ Unrecognised c rest ∨
        ∃ sequence, d.cause = .invalidEscape sequence ∧ c = '"' ∧ HasBadEscape rest sequence) →
      ofSource file source = .error d := by
  constructor
  · intro h
    obtain ⟨front, c, rest, tokens, hsource, hrun, hrefuses, hposition⟩ := ofText_eq_error_iff.1 h
    rw [Nat.zero_add] at hposition
    have hwhole : Text.byteSize source.toList =
        Text.byteSize front + (c.utf8Size + Text.byteSize rest) := by
      rw [hsource, Text.byteSize_append, Text.byteSize_cons]
    have hpositive := c.utf8Size_pos
    have hoffset : d.position.offset.toNat = Text.byteSize front := by
      rw [hposition]
      exact Position.toNat_ofNat file (by omega) hsize
    refine ⟨by rw [hposition]; rfl, by omega, front, c, rest, tokens, hsource, hoffset.symm, ?_,
      hrun, ?_⟩
    · rw [ofSource, String.toList_ofList, hrun.ofText_front, Nat.zero_add]
    · obtain ⟨cause, position⟩ := d
      cases cause with
      | unrecognisedToken token =>
        obtain ⟨rfl, hnone⟩ := hrefuses
        refine .inl ⟨⟨rfl, hnone⟩, ?_⟩
        rintro ⟨_, hcause, _⟩
        cases hcause
      | invalidEscape sequence =>
        refine .inr ⟨⟨sequence, rfl, hrefuses⟩, ?_⟩
        rintro ⟨hcause, _⟩
        cases hcause
      | _ => exact hrefuses.elim
  · intro front c rest tokens hsource hrun hposition hstop
    refine ofText_eq_error_iff.2 ⟨front, c, rest, tokens, hsource, hrun, ?_, ?_⟩
    · rcases hstop with ⟨hcause, hnone⟩ | ⟨sequence, hcause, hbad⟩ <;> rw [hcause]
      · exact ⟨rfl, hnone⟩
      · exact hbad
    · rw [hposition, Nat.zero_add]

/-- Behind a character of two bytes an escape takes one digit and finds no other.  The failure
stands at the quote before it.  A run gets over a name and a blank to a letter that starts no
word, and the source fails there. -/
theorem fails_ofSource_exactly_escape :
    (ofSource "" "x\"é\\x4g\"" = .error ⟨.invalidEscape "\\x4", .ofNat "" 1⟩ ∧
      ∃ (front rest : List Char) (tokens : List Token),
        "x\"é\\x4g\"".toList = front ++ '"' :: rest ∧ Text.byteSize front = 1 ∧
        ofSource "" (String.ofList front) = .ok (tokens ++ [endMark "" 1]) ∧
        Run "" ('"' :: rest) 0 front tokens ∧ HasBadEscape rest "\\x4") ∧
    Run "" ['é'] 0 ['a', ' '] [⟨.identifier, "a", .ofSize "" 0 1⟩] ∧ Unrecognised 'é' [] ∧
      ofSource "" "a é" = .error ⟨.unrecognisedToken "é", .ofNat "" 2⟩ := by
  constructor
  · have hread : ofSource "" "x\"é\\x4g\"" =
        .error ⟨.invalidEscape "\\x4", .ofNat "" 1⟩ := by cbv
    obtain ⟨_, _, front, c, rest, tokens, hsource, hfront, hok, hrun, hcause⟩ :=
      (fails_ofSource_exactly "" "x\"é\\x4g\"" _ (by decide)).1 hread
    have hplace : Text.byteSize front = 1 := hfront
    rw [hplace] at hok
    obtain ⟨⟨hcause, _⟩, _⟩ | ⟨⟨sequence, hcause, rfl, hbad⟩, _⟩ := hcause
    · cases hcause
    · cases hcause
      exact ⟨hread, front, rest, tokens, hsource, hplace, hok, hrun, hbad⟩
  · have hname : next? 'a' ([] ++ ([' '] ++ ['é'])) = some ⟨[], .token .identifier "a"⟩ := by cbv
    have hblank : next? ' ' ([] ++ ([] ++ ['é'])) = some ⟨[], .gap⟩ := by cbv
    have hrun : Run "" ['é'] 0 ['a', ' '] [⟨.identifier, "a", .ofSize "" 0 1⟩] :=
      .token hname (.gap hblank (.stay 2))
    have hletter : Unrecognised 'é' [] :=
      ⟨by decide, by decide, by decide, by decide, fun h => absurd h (by decide)⟩
    exact ⟨hrun, hletter, (fails_ofSource_exactly "" "a é" _ (by decide)).2 _ _ _ _ rfl hrun rfl
      (.inl ⟨rfl, hletter⟩)⟩

end Token

end Scriptlet
