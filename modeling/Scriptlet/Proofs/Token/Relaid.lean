import Mathlib
import Scriptlet.Proofs.Token.Boundary

/-!
# Sources that differ in their layout

Between the tokens of a source there may be blanks and comments or nothing, and a string may be
written with this escape or that.  `Token.Relaid` says of two texts that nothing else is
different.  It holds of two sources just when they have the same tokens, but for the places where
these stand (`Token.relaid_iff`).

Not every change of blanks is one of the layout.  A text may be without a blank only where the
token before it does not go on with what comes next.
-/

namespace Scriptlet.Token

open Lexeme

/-- Two texts differ at most in the blanks and comments between their tokens and in the way their
strings are written. -/
inductive Relaid : List Char → List Char → Prop where
  /-- Nothing is left of both. -/
  | nil : Relaid [] []
  /-- Blanks or a comment in the first text. -/
  | gap {c : Char} {tail behind text' : List Char}
      (hgap : StandsBefore behind c ⟨tail, .gap⟩) (h : Relaid behind text') :
      Relaid (c :: (tail ++ behind)) text'
  /-- Blanks or a comment in the second text. -/
  | gap' {c : Char} {tail text behind' : List Char}
      (hgap : StandsBefore behind' c ⟨tail, .gap⟩) (h : Relaid text behind') :
      Relaid text (c :: (tail ++ behind'))
  /-- The same characters, which are a token in both. -/
  | token {c : Char} {tail behind behind' : List Char} {kind : Kind} {value : String}
      (htoken : StandsBefore behind c ⟨tail, .token kind value⟩)
      (htoken' : StandsBefore behind' c ⟨tail, .token kind value⟩) (h : Relaid behind behind') :
      Relaid (c :: (tail ++ behind)) (c :: (tail ++ behind'))
  /-- Two literals of the same string. -/
  | string {inside inside' value behind behind' : List Char} (hinside : Inside inside)
      (hinside' : Inside inside') (hvalue : Escape.unescape inside = .ok value)
      (hvalue' : Escape.unescape inside' = .ok value) (h : Relaid behind behind') :
      Relaid ('"' :: (inside ++ '"' :: behind)) ('"' :: (inside' ++ '"' :: behind'))

variable {file file' : String} {offset offset' : Nat}

/-- A literal is read as the string that it denotes. -/
theorem ofText_of_literal {inside value behind : List Char} (hinside : Inside inside)
    (hvalue : Escape.unescape inside = .ok value) :
    ofText file offset ('"' :: (inside ++ '"' :: behind)) =
      (ofText file (offset + Text.byteSize ('"' :: (inside ++ ['"']))) behind).map
        (⟨.string, String.ofList value,
          .ofSize file offset (Text.byteSize ('"' :: (inside ++ ['"'])))⟩ :: ·) := by
  have hcontent : stringContent (inside ++ ['"']) = .token .string (String.ofList value) := by
    rw [stringContent, List.dropLast_concat, hvalue]
  have hstands :
      StandsBefore behind '"' ⟨inside ++ ['"'], .token .string (String.ofList value)⟩ := by
    rw [← hcontent]
    exact .literal hinside
  have hsplit : inside ++ '"' :: behind = (inside ++ ['"']) ++ behind := by
    rw [List.append_assoc, List.singleton_append]
  rw [hsplit, ofText_of_token hstands.next?]

/-- Texts that differ in their layout have tokens that differ in their places. -/
theorem Relaid.exists_tokens {text text' : List Char} (h : Relaid text text')
    (file file' : String) (offset offset' : Nat) :
    ∃ tokens tokens' : List Token, ofText file offset text = .ok tokens ∧
      ofText file' offset' text' = .ok tokens' ∧
      tokens'.map terminal = tokens.map terminal := by
  induction h generalizing offset offset' with
  | nil =>
    refine ⟨[endMark file offset], [endMark file' offset'], ?_, ?_, rfl⟩
    · rw [ofText]
    · rw [ofText]
  | gap hgap _ ih =>
    rw [ofText_of_gap hgap.next?]
    exact ih _ _
  | gap' hgap _ ih =>
    rw [ofText_of_gap hgap.next?]
    exact ih _ _
  | token htoken htoken' _ ih =>
    obtain ⟨tokens, tokens', htokens, htokens', hsame⟩ := ih _ _
    refine ⟨_, _, by rw [ofText_of_token htoken.next?, htokens]; rfl,
      by rw [ofText_of_token htoken'.next?, htokens']; rfl, ?_⟩
    rw [List.map_cons, List.map_cons, hsame]
    rfl
  | string hinside hinside' hvalue hvalue' _ ih =>
    obtain ⟨tokens, tokens', htokens, htokens', hsame⟩ := ih _ _
    refine ⟨_, _, by rw [ofText_of_literal hinside hvalue, htokens]; rfl,
      by rw [ofText_of_literal hinside' hvalue', htokens']; rfl, ?_⟩
    rw [List.map_cons, List.map_cons, hsame]
    rfl

/-! ## Texts with the same tokens -/

/-- Behind a token that was read other tokens were read. -/
theorem exists_others {c : Char} {tail behind : List Char} {kind : Kind} {value : String}
    {tokens : List Token} (hstands : StandsBefore behind c ⟨tail, .token kind value⟩)
    (h : ofText file offset (c :: (tail ++ behind)) = .ok tokens) :
    ∃ others, ofText file (offset + Text.byteSize (c :: tail)) behind = .ok others ∧
      others ≠ [] ∧ tokens.map terminal = ⟨kind, value⟩ :: others.map terminal := by
  rw [ofText_of_token hstands.next?] at h
  cases hothers : ofText file (offset + Text.byteSize (c :: tail)) behind with
  | error d =>
    rw [hothers] at h
    cases h
  | ok others =>
    obtain ⟨front, size, rfl, _⟩ := lexical_of_ofText hothers
    rw [hothers] at h
    cases h
    exact ⟨_, rfl, by simp, rfl⟩

/-- The same token at the front of two texts is written alike, or it is a string. -/
theorem Relaid.cons {c c' : Char} {tail tail' behind behind' : List Char} {kind : Kind}
    {value : String} (hstands : StandsBefore behind c ⟨tail, .token kind value⟩)
    (hstands' : StandsBefore behind' c' ⟨tail', .token kind value⟩) (h : Relaid behind behind') :
    Relaid (c :: (tail ++ behind)) (c' :: (tail' ++ behind')) := by
  obtain ⟨_, _, hdenotes, _⟩ := denotes_of_next? hstands.next?
  obtain ⟨_, _, hdenotes', _⟩ := denotes_of_next? hstands'.next?
  by_cases hstring : kind = .string
  · obtain ⟨inside, hslice, hinside, hvalue⟩ := hdenotes.literal hstring
    obtain ⟨inside', hslice', hinside', hvalue'⟩ := hdenotes'.literal hstring
    obtain ⟨rfl, rfl⟩ := List.cons.inj hslice
    obtain ⟨rfl, rfl⟩ := List.cons.inj hslice'
    simp only [List.append_assoc, List.singleton_append]
    exact .string hinside hinside' hvalue hvalue' h
  · have hslice := (hdenotes.verbatim hstring).symm.trans (hdenotes'.verbatim hstring)
    obtain ⟨rfl, rfl⟩ := List.cons.inj hslice
    exact .token hstands hstands' h

/-- Texts with the same tokens, but for their places, differ in their layout. -/
theorem relaid_of_same {text text' : List Char} {tokens tokens' : List Token}
    (h : ofText file offset text = .ok tokens) (h' : ofText file' offset' text' = .ok tokens')
    (hsame : tokens'.map terminal = tokens.map terminal) : Relaid text text' := by
  induction offset, text using ofText_induction generalizing tokens tokens' text' offset' with
  | unrecognised hnext | badEscape hnext =>
    rw [ofText, hnext] at h
    cases h
  | gap hstands ih =>
    rw [ofText_of_gap hstands.next?] at h
    exact .gap hstands (ih h h' hsame)
  | empty offset =>
    rw [ofText] at h
    cases h
    induction offset', text' using ofText_induction generalizing tokens' with
    | empty => exact .nil
    | unrecognised hnext | badEscape hnext =>
      rw [ofText, hnext] at h'
      cases h'
    | gap hstands' ih' =>
      rw [ofText_of_gap hstands'.next?] at h'
      exact .gap' hstands' (ih' h' hsame)
    | token hstands' _ =>
      obtain ⟨others, _, hne, htokens'⟩ := exists_others hstands' h'
      rw [htokens'] at hsame
      exact absurd (List.map_eq_nil_iff.1 (List.cons.inj hsame).2) hne
  | token hstands ih =>
    obtain ⟨others, hothers, hne, htokens⟩ := exists_others hstands h
    rw [htokens] at hsame
    induction offset', text' using ofText_induction generalizing tokens' with
    | empty =>
      rw [ofText] at h'
      cases h'
      exact absurd (List.map_eq_nil_iff.1 (List.cons.inj hsame).2.symm) hne
    | unrecognised hnext | badEscape hnext =>
      rw [ofText, hnext] at h'
      cases h'
    | gap hstands' ih' =>
      rw [ofText_of_gap hstands'.next?] at h'
      exact .gap' hstands' (ih' h' hsame)
    | token hstands' _ =>
      obtain ⟨others', hothers', _, htokens'⟩ := exists_others hstands' h'
      rw [htokens'] at hsame
      obtain ⟨hfirst, hothersSame⟩ := List.cons.inj hsame
      obtain ⟨rfl, rfl⟩ := Terminal.mk.inj hfirst
      exact .cons hstands hstands' (ih hothers hothers' hothersSame)

/-- Two sources differ at most in their layout just when both have tokens and these say the
same. -/
theorem relaid_iff (file file' : String) {source source' : String} :
    Relaid source.toList source'.toList ↔ ∃ tokens tokens' : List Token,
      ofSource file source = .ok tokens ∧ ofSource file' source' = .ok tokens' ∧
        tokens'.map terminal = tokens.map terminal := by
  constructor
  · intro hrelaid
    exact hrelaid.exists_tokens file file' 0 0
  · rintro ⟨tokens, tokens', htokens, htokens', hsame⟩
    exact relaid_of_same htokens htokens' hsame

end Scriptlet.Token
