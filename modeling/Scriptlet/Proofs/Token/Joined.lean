import Mathlib
import Scriptlet.Proofs.Token.Boundary

/-!
# Two sources joined by a newline

A newline ends every lexeme but a gap.  So a source is read before a newline as it is read
alone (`Token.ofText_append_newline`), and behind the newline another source is read as it
is read alone, but for the places of its tokens (`Token.keepsPace_ofText`).

`Token.ofSource_append_newline` puts the two together.
-/

namespace Scriptlet

/-! ## A distance between places -/

/-- A place stands some bytes behind another one of the same source. -/
structure Position.Behind (distance : Nat) (p p' : Position) : Prop where
  /-- The sources are the same. -/
  file : p'.file = p.file
  /-- The offsets differ by the distance. -/
  offset : p'.offset.toNat = p.offset.toNat + distance

/-- A token says the same as another one and stands some bytes behind it. -/
structure Token.Behind (distance : Nat) (t t' : Token) : Prop where
  /-- They say the same. -/
  terminal : t'.terminal = t.terminal
  /-- One starts behind the start of the other. -/
  start : t.span.start.Behind distance t'.span.start
  /-- It ends behind the end of the other. -/
  stop : t.span.stop.Behind distance t'.span.stop

/-- A failure has the same cause as another one and stands some bytes behind it. -/
structure Diagnostic.Behind (distance : Nat) (d d' : Diagnostic) : Prop where
  /-- The causes are the same. -/
  cause : d'.cause = d.cause
  /-- The places differ by the distance. -/
  position : d.position.Behind distance d'.position

variable {file : String} {offset distance : Nat}

theorem Position.behind_ofNat (file : String) (h : offset + distance < 2 ^ 32) :
    (Position.ofNat file offset).Behind distance (.ofNat file (offset + distance)) := by
  refine ⟨rfl, ?_⟩
  rw [toNat_ofNat file (Nat.le_refl _) h, toNat_ofNat file (Nat.le_add_right _ _) h]

namespace Token

open Lexeme

theorem behind_ofSize {kind : Kind} {value : String} {size : Nat}
    (h : offset + size + distance < 2 ^ 32) :
    Behind distance ⟨kind, value, .ofSize file offset size⟩
      ⟨kind, value, .ofSize file (offset + distance) size⟩ := by
  refine ⟨rfl, Position.behind_ofNat file (by omega), ?_⟩
  have hstop := Position.behind_ofNat file h
  rw [Nat.add_right_comm] at hstop
  exact hstop

/-! ## The same text at two places -/

/-- A reading gives the same tokens or the same failure as another one, some bytes behind. -/
def KeepsPace (distance : Nat) :
    Except Diagnostic (List Token) → Except Diagnostic (List Token) → Prop
  | .ok tokens, .ok tokens' => List.Forall₂ (Behind distance) tokens tokens'
  | .error d, .error d' => d.Behind distance d'
  | _, _ => False

namespace KeepsPace

variable {read read' : Except Diagnostic (List Token)}

theorem exists_tokens {tokens : List Token} (h : KeepsPace distance (.ok tokens) read') :
    ∃ tokens', read' = .ok tokens' ∧ List.Forall₂ (Behind distance) tokens tokens' := by
  cases read' with
  | error d' => exact h.elim
  | ok tokens' => exact ⟨tokens', rfl, h⟩

theorem exists_diagnostic {d : Diagnostic} (h : KeepsPace distance (.error d) read') :
    ∃ d', read' = .error d' ∧ d.Behind distance d' := by
  cases read' with
  | error d' => exact ⟨d', rfl, h⟩
  | ok tokens' => exact h.elim

theorem cons {t t' : Token} (ht : t.Behind distance t') (h : KeepsPace distance read read') :
    KeepsPace distance (read.map (t :: ·)) (read'.map (t' :: ·)) := by
  cases read with
  | error d =>
    obtain ⟨d', rfl, hd⟩ := h.exists_diagnostic
    exact hd
  | ok tokens =>
    obtain ⟨tokens', rfl, htokens⟩ := h.exists_tokens
    exact List.Forall₂.cons ht htokens

end KeepsPace

/-- A text is read in the same way wherever it starts. -/
theorem keepsPace_ofText {text : List Char}
    (h : offset + Text.byteSize text + distance < 2 ^ 32) :
    KeepsPace distance (ofText file offset text) (ofText file (offset + distance) text) := by
  induction offset, text using ofText_induction with
  | empty offset =>
    rw [ofText, ofText]
    exact List.Forall₂.cons (behind_ofSize h) .nil
  | unrecognised hnext | badEscape hnext =>
    rw [ofText, ofText, hnext]
    exact ⟨rfl, Position.behind_ofNat file (by omega)⟩
  | gap hstands ih =>
    rw [← List.cons_append, Text.byteSize_append, ← Nat.add_assoc] at h
    rw [ofText_of_gap hstands.next?, ofText_of_gap hstands.next?, Nat.add_right_comm]
    exact ih h
  | @token offset c tail behind kind value hstands ih =>
    rw [← List.cons_append, Text.byteSize_append, ← Nat.add_assoc] at h
    have hsize : offset + Text.byteSize (c :: tail) + distance < 2 ^ 32 := by omega
    rw [ofText_of_token hstands.next?, ofText_of_token hstands.next?, Nat.add_right_comm]
    exact .cons (behind_ofSize hsize) (ih h)

/-! ## Before a newline -/

/-- The bytes up to behind a newline are those of a lexeme and those from there on. -/
theorem size_cons_append (c : Char) (tail behind : List Char) :
    offset + Text.byteSize (c :: tail) + (Text.byteSize behind + 1) =
      offset + (Text.byteSize (c :: (tail ++ behind)) + 1) := by
  rw [← List.cons_append, Text.byteSize_append]
  omega

/-- A text that is read alone is read before a newline, and then what follows the newline. -/
theorem ofText_append_newline {text : List Char} {front : List Token} {last : Token}
    (h : ofText file offset text = .ok (front ++ [last])) (further : List Char) :
    ofText file offset (text ++ '\n' :: further) =
      (ofText file (offset + (Text.byteSize text + 1)) further).map (front ++ ·) := by
  induction offset, text using ofText_induction generalizing front with
  | empty offset =>
    rw [ofText] at h
    cases front with
    | nil =>
      rw [List.nil_append, ofText_of_isBlank Text.isBlank_newline, Text.byteSize_nil, Nat.zero_add]
      have hsize : '\n'.utf8Size = 1 := by decide
      rw [hsize]
      cases ofText file (offset + 1) further <;> rfl
    | cons t front => simp at h
  | unrecognised hnext | badEscape hnext =>
    rw [ofText, hnext] at h
    cases h
  | @gap offset c tail behind hstands ih =>
    rw [ofText_of_gap hstands.next?] at h
    have hread := ih h
    rw [← size_cons_append, ← hread, List.cons_append, List.append_assoc]
    rcases hstands.newline further with hstands | ⟨_, hblank⟩
    · exact ofText_of_gap hstands.next?
    · exact ofText_of_blanks hblank
  | @token offset c tail behind kind value hstands ih =>
    rw [ofText_of_token hstands.next?] at h
    cases hlater : ofText file (offset + Text.byteSize (c :: tail)) behind with
    | error d =>
      rw [hlater] at h
      cases h
    | ok later =>
      obtain ⟨front', _, rfl, _⟩ := lexical_of_ofText hlater
      rw [hlater] at h
      obtain ⟨rfl, hlast⟩ := List.append_inj' (Except.ok.inj h : _ :: front' ++ [_] = _) rfl
      cases hlast
      have hread := ih hlater
      obtain hstands | ⟨hgap, _⟩ := hstands.newline further
      · rw [List.cons_append, List.append_assoc, ofText_of_token hstands.next?, hread,
          size_cons_append]
        cases ofText file (offset + (Text.byteSize (c :: (tail ++ behind)) + 1)) further <;> rfl
      · cases hgap

/-- A source that is read alone is read before a newline as well, and another source behind the
newline is read as it is read alone, with its tokens or its failure moved behind the first
source and the newline. -/
theorem ofSource_append_newline {source : String} {front : List Token} {last : Token}
    (h : ofSource file source = .ok (front ++ [last])) (source' : String)
    (hsize : Text.byteSize source.toList + Text.byteSize source'.toList < 2 ^ 32 - 1) :
    (∀ tokens, ofSource file source' = .ok tokens → ∃ tokens',
      ofSource file (source ++ "\n" ++ source') = .ok (front ++ tokens') ∧
        List.Forall₂ (Behind (Text.byteSize source.toList + 1)) tokens tokens') ∧
    ∀ d, ofSource file source' = .error d → ∃ d',
      ofSource file (source ++ "\n" ++ source') = .error d' ∧
        d.Behind (Text.byteSize source.toList + 1) d' := by
  have hjoined : ofSource file (source ++ "\n" ++ source') =
      (ofText file (Text.byteSize source.toList + 1) source'.toList).map (front ++ ·) := by
    have htext : (source ++ "\n" ++ source').toList = source.toList ++ '\n' :: source'.toList := by
      simp
    rw [ofSource, htext, ofText_append_newline h, Nat.zero_add]
  have hpace : KeepsPace (Text.byteSize source.toList + 1) (ofSource file source')
      (ofText file (Text.byteSize source.toList + 1) source'.toList) := by
    have hmoved : KeepsPace (Text.byteSize source.toList + 1) (ofText file 0 source'.toList)
        (ofText file (0 + (Text.byteSize source.toList + 1)) source'.toList) :=
      keepsPace_ofText (by omega)
    rw [Nat.zero_add] at hmoved
    exact hmoved
  rw [hjoined]
  constructor
  · intro tokens htokens
    rw [htokens] at hpace
    obtain ⟨tokens', hread, hbehind⟩ := hpace.exists_tokens
    exact ⟨tokens', by rw [hread]; rfl, hbehind⟩
  · intro d hd
    rw [hd] at hpace
    obtain ⟨d', hread, hbehind⟩ := hpace.exists_diagnostic
    exact ⟨d', by rw [hread]; rfl, hbehind⟩

/-- A comment that ends in a character of two bytes ends before the newline, and behind it a
name is read and a literal without an end is not. -/
theorem ofSource_append_newline_comment :
    ∃ (front : List Token) (last : Token) (tokens tokens' : List Token) (d d' : Diagnostic),
      ofSource "" "1. // é" = .ok (front ++ [last]) ∧ Text.byteSize "1. // é".toList + 1 = 9 ∧
      ofSource "" "x" = .ok tokens ∧
      ofSource "" ("1. // é" ++ "\n" ++ "x") = .ok (front ++ tokens') ∧
      List.Forall₂ (Behind (Text.byteSize "1. // é".toList + 1)) tokens tokens' ∧
      ofSource "" "\"x" = .error d ∧ ofSource "" ("1. // é" ++ "\n" ++ "\"x") = .error d' ∧
      d.Behind (Text.byteSize "1. // é".toList + 1) d' := by
  have hfirst : ofSource "" "1. // é" =
      .ok ([⟨.number, "1", .ofSize "" 0 1⟩, ⟨.dot, ".", .ofSize "" 1 1⟩] ++ [endMark "" 8]) := by
    cbv
  have hname : ofSource "" "x" = .ok [⟨.identifier, "x", .ofSize "" 0 1⟩, endMark "" 1] := by cbv
  have hquote : ofSource "" "\"x" = .error ⟨.unrecognisedToken "\"", .ofNat "" 0⟩ := by cbv
  obtain ⟨tokens', htokens', hbehind⟩ :=
    (ofSource_append_newline hfirst "x" (by decide)).1 _ hname
  obtain ⟨d', hd', hbehind'⟩ :=
    (ofSource_append_newline hfirst "\"x" (by decide)).2 _ hquote
  exact ⟨_, _, _, tokens', _, d', hfirst, by decide, hname, htokens', hbehind, hquote, hd',
    hbehind'⟩

end Token

end Scriptlet
