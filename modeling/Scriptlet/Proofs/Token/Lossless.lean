import Mathlib
import Scriptlet.Proofs.Token.Spelling

/-!
# Nothing of a source is lost

The tokens of a source stand in it one behind the other, each where its span says, and
nothing but gaps is between them (`Token.accountsFor_ofSource`).  A token says what the
characters of its span say (`Token.Denotes`), and it does not end where it could go on
(`Token.Ends`).

A source is read one lexeme at a time.  What is left of it and the offset of that change
together, so `Token.Covers` speaks of both.  The spans are put in place at the end, with
the whole source in view.
-/

namespace Scriptlet

open Token (Kind)

/-! ## Gaps and literals -/

namespace Lexeme

/-- Some characters are blanks and comments, with others behind them. -/
inductive IsGap : List Char → List Char → Prop where
  /-- Nothing. -/
  | nil (after : List Char) : IsGap [] after
  /-- A blank and more of a gap. -/
  | blank {c : Char} {gap after : List Char} (hblank : Text.isBlank c) (hgap : IsGap gap after) :
      IsGap (c :: gap) after
  /-- A comment, which ends before a newline or with the source, and more of a gap. -/
  | comment {body gap after : List Char} (hbody : ∀ c ∈ body, c ≠ '\n')
      (hends : ∀ c ∈ (gap ++ after).head?, c = '\n') (hgap : IsGap gap after) :
      IsGap ('/' :: '/' :: (body ++ gap)) after

/-- Some characters may stand between the quotes of a literal. -/
inductive Inside : List Char → Prop where
  /-- Nothing. -/
  | nil : Inside []
  /-- A character that is neither a quote nor a backslash. -/
  | plain {c : Char} {text : List Char} (hquote : c ≠ '"') (hslash : c ≠ '\\')
      (h : Inside text) : Inside (c :: text)
  /-- A backslash before anything but a newline. -/
  | escaped {c : Char} {text : List Char} (hnewline : c ≠ '\n') (h : Inside text) :
      Inside ('\\' :: c :: text)

theorem IsGap.blanks {text gap after : List Char} (htext : ∀ c ∈ text, Text.isBlank c)
    (hgap : IsGap gap after) : IsGap (text ++ gap) after := by
  induction text with
  | nil => exact hgap
  | cons c text ih =>
    obtain ⟨hblank, hothers⟩ := List.forall_mem_cons.1 htext
    exact .blank hblank (ih hothers)

end Lexeme

namespace Token

open Lexeme

/-! ## What a token says and where it ends -/

/-- A token says what some characters say. -/
structure Denotes (kind : Kind) (value : String) (slice : List Char) : Prop where
  /-- There is no end mark in a source. -/
  kind_ne : kind ≠ .endOfInput
  /-- No token is empty. -/
  slice_ne : slice ≠ []
  /-- All but a string says what is written. -/
  verbatim : kind ≠ .string → value.toList = slice
  /-- What is always written alike is written so. -/
  lexeme : ∀ text ∈ kind.lexeme?, value = text
  /-- A name is no reserved word. -/
  name : kind = .identifier → value ≠ "let" ∧ value ≠ "const"
  /-- A string stands between quotes, with its escapes. -/
  literal : kind = .string → ∃ inside, slice = '"' :: (inside ++ ['"']) ∧ Inside inside ∧
    Escape.unescape inside = .ok value.toList

/-- A token of some characters does not go on with those behind them. -/
structure Ends (kind : Kind) (slice after : List Char) : Prop where
  /-- No word goes on. -/
  word : kind ∈ [.identifier, .letWord, .constWord] → ∀ c ∈ after.head?, ¬ isWordChar c
  /-- No number goes on with a digit. -/
  number : kind = .number → ∀ c ∈ after.head?, ¬ c.isDigit
  /-- A number without a point does not go on with one and a digit. -/
  whole : kind = .number → '.' ∉ slice → ∀ c others, after = '.' :: c :: others → ¬ c.isDigit
  /-- No slash starts a comment. -/
  slash : kind = .slash → ∀ c ∈ after.head?, c ≠ '/'

end Token

namespace Lexeme

open Token (Denotes Ends)

/-! ## One lexeme -/

/-- A literal ends with the first quote that is not part of an escape. -/
theorem exists_inside {rest tail : List Char} (h : stringTail? rest = some tail) :
    ∃ inside others, tail = inside ++ ['"'] ∧ rest = tail ++ others ∧ Inside inside := by
  fun_induction stringTail? rest generalizing tail with
  | case1 => cases h
  | case2 others =>
    cases h
    exact ⟨[], others, rfl, rfl, .nil⟩
  | case3 => cases h
  | case4 => cases h
  | case5 c rest hnewline ih =>
    obtain ⟨tail, htail, rfl⟩ := Option.map_eq_some_iff.1 h
    obtain ⟨inside, others, rfl, rfl, hinside⟩ := ih htail
    exact ⟨'\\' :: c :: inside, others, rfl, rfl, .escaped hnewline hinside⟩
  | case6 c rest hquote hend hescape ih =>
    obtain ⟨tail, htail, rfl⟩ := Option.map_eq_some_iff.1 h
    obtain ⟨inside, others, rfl, rfl, hinside⟩ := ih htail
    refine ⟨c :: inside, others, rfl, rfl, .plain hquote ?_ hinside⟩
    intro hslash
    cases inside with
    | nil => exact hescape _ _ hslash rfl
    | cons d inside => exact hescape _ _ hslash rfl

/-- A gap at the front of a text goes on with the gap behind it. -/
theorem isGap_of_next? {c : Char} {rest tail : List Char}
    (h : next? c rest = some ⟨tail, .gap⟩) : ∃ others, rest = tail ++ others ∧
      ∀ gap after, others = gap ++ after → IsGap gap after → IsGap (c :: tail ++ gap) after := by
  generalize hlexeme : (⟨tail, .gap⟩ : Lexeme) = lexeme at h
  cases atFront_of_next? h with
  | blanks hblank =>
    cases hlexeme
    refine ⟨rest.dropWhile Text.isBlank, List.takeWhile_append_dropWhile.symm, ?_⟩
    intro gap after _ hgap
    refine hgap.blanks (List.forall_mem_cons.2 ⟨hblank, ?_⟩)
    exact fun d hd => List.mem_takeWhile_imp hd
  | comment behind =>
    cases hlexeme
    refine ⟨behind.dropWhile (· ≠ '\n'), ?_, ?_⟩
    · rw [List.takeWhile_cons_of_pos (by decide), List.cons_append,
        List.takeWhile_append_dropWhile]
    · intro gap after hsplit hgap
      rw [List.takeWhile_cons_of_pos (by decide), List.cons_append, List.cons_append]
      refine .comment ?_ ?_ hgap
      · intro d hd
        have hbody := List.mem_takeWhile_imp hd
        simpa using hbody
      · rw [← hsplit]
        intro d hd
        have hstop := not_of_mem_head?_dropWhile d hd
        simpa using hstop
  | literal =>
    exact absurd (congrArg Lexeme.content hlexeme).symm (stringContent_ne_gap _)
  | word | number | mark => cases hlexeme

/-- No mark is a word, a number or a string, and a slash is written as one. -/
theorem kind_of_punctuation? {c : Char} {kind : Kind} (h : punctuation? c = some kind) :
    kind ∉ [Kind.identifier, .letWord, .constWord, .number, .string] ∧
      (kind = .slash → c = '/') := by
  unfold punctuation? at h
  split at h <;> first | (cases h; decide) | cases h

/-- A token at the front of a text says what its characters say, and it does not go on
with those behind it. -/
theorem denotes_of_next? {c : Char} {rest tail : List Char} {kind : Kind} {value : String}
    (h : next? c rest = some ⟨tail, .token kind value⟩) : ∃ others, rest = tail ++ others ∧
      Denotes kind value (c :: tail) ∧ Ends kind (c :: tail) others := by
  have hlexical := lexical_of_next? h
  have hdenotes (hverbatim : kind ≠ .string → value.toList = c :: tail)
      (hliteral : kind = .string → ∃ inside, c :: tail = '"' :: (inside ++ ['"']) ∧
        Inside inside ∧ Escape.unescape inside = .ok value.toList) :
      Denotes kind value (c :: tail) :=
    ⟨hlexical.kind_ne, List.cons_ne_nil c tail, hverbatim, hlexical.value,
      fun hname => (hlexical.name hname).ne_reserved, hliteral⟩
  generalize hlexeme : (⟨tail, .token kind value⟩ : Lexeme) = lexeme at h
  cases atFront_of_next? h with
  | word =>
    cases hlexeme
    refine ⟨rest.dropWhile isWordChar, List.takeWhile_append_dropWhile.symm, ?_⟩
    have hkind := wordKind_mem (c :: rest.takeWhile isWordChar)
    generalize wordKind (c :: rest.takeWhile isWordChar) = kind at hkind hdenotes
    simp only [List.mem_cons, List.not_mem_nil, or_false] at hkind
    refine ⟨hdenotes (fun _ => String.toList_ofList) ?_, ?_⟩
    · rcases hkind with rfl | rfl | rfl <;> simp
    · rcases hkind with rfl | rfl | rfl <;>
        exact ⟨fun _ => not_of_mem_head?_dropWhile, by simp, by simp, by simp⟩
  | number =>
    cases hlexeme
    obtain ⟨others, hsplit, _, hdigit, hwhole⟩ := exists_numberTail rest
    refine ⟨others, hsplit, hdenotes (fun _ => String.toList_ofList) (by simp), by simp,
      fun _ => hdigit, ?_, by simp⟩
    exact fun _ hpoint => hwhole fun hmem => hpoint (.tail c hmem)
  | literal htail =>
    cases congrArg Lexeme.tail hlexeme
    obtain ⟨rfl, hcontent⟩ := stringContent_eq_token (congrArg Lexeme.content hlexeme).symm
    obtain ⟨inside, others, rfl, hsplit, hinside⟩ := exists_inside htail
    rw [List.dropLast_concat] at hcontent
    exact ⟨others, hsplit, hdenotes (by simp) fun _ => ⟨inside, rfl, hinside, hcontent⟩, by simp,
      by simp, by simp, by simp⟩
  | mark hmark hcomment =>
    cases hlexeme
    obtain ⟨hkind, hslash⟩ := kind_of_punctuation? hmark
    simp only [List.mem_cons, List.not_mem_nil, or_false, not_or] at hkind
    obtain ⟨hname, hlet, hconst, hnumber, hstring⟩ := hkind
    refine ⟨rest, rfl, hdenotes (by simp) fun h => absurd h hstring, by simp [hname, hlet, hconst],
      fun h => absurd h hnumber, fun h => absurd h hnumber, ?_⟩
    rintro hkind _ hhead rfl
    exact hcomment (hslash hkind) hhead
  | blanks | comment => cases hlexeme

end Lexeme

/-! ## The tokens of a text -/

namespace Token

open Lexeme

/-- Tokens stand one behind the other in a text that starts at some offset, with gaps
between them, and an end mark stands behind the last gap. -/
inductive Covers (file : String) : Nat → List Char → List Token → Prop where
  /-- The end mark behind the last gap. -/
  | endMark {offset : Nat} {gap : List Char} (hgap : IsGap gap []) :
      Covers file offset gap [endMark file (offset + Text.byteSize gap)]
  /-- A token behind a gap. -/
  | token {offset : Nat} {gap slice after : List Char} {kind : Kind} {value : String}
      {tokens : List Token} (hgap : IsGap gap (slice ++ after))
      (hdenotes : Denotes kind value slice) (hends : Ends kind slice after)
      (hothers : Covers file (offset + Text.byteSize (gap ++ slice)) after tokens) :
      Covers file offset (gap ++ (slice ++ after))
        (⟨kind, value, .ofSize file (offset + Text.byteSize gap) (Text.byteSize slice)⟩ :: tokens)

/-- The gap before the first token can be longer. -/
theorem Covers.gap {file : String} {offset : Nat} {front others : List Char} {tokens : List Token}
    (h : Covers file (offset + Text.byteSize front) others tokens)
    (hfront : ∀ gap after, others = gap ++ after → IsGap gap after → IsGap (front ++ gap) after) :
    Covers file offset (front ++ others) tokens := by
  cases h with
  | endMark hgap =>
    rw [Nat.add_assoc, ← Text.byteSize_append]
    exact .endMark (hfront _ _ (List.append_nil others).symm hgap)
  | @token _ gap slice after _ _ _ hgap hdenotes hends hothers =>
    rw [Nat.add_assoc, ← Text.byteSize_append] at hothers ⊢
    rw [← List.append_assoc] at hothers ⊢
    exact .token (hfront _ _ rfl hgap) hdenotes hends hothers

/-- The tokens of a text stand in it. -/
theorem covers_of_ofText {file : String} {offset : Nat} {text : List Char} {tokens : List Token}
    (h : ofText file offset text = .ok tokens) : Covers file offset text tokens := by
  fun_induction ofText file offset text generalizing tokens with
  | case1 =>
    cases h
    exact .endMark (.nil [])
  | case2 => cases h
  | case3 offset c rest tail size others hnext =>
    rename_i ih
    obtain ⟨behind, rfl, hgap⟩ := isGap_of_next? hnext
    have hothers : others = behind := List.drop_left
    rw [← List.cons_append, ← hothers]
    rw [← hothers] at hgap
    exact (ih h).gap hgap
  | case4 => cases h
  | case5 offset c rest tail size others kind value hnext =>
    rename_i ih
    obtain ⟨behind, rfl, hdenotes, hends⟩ := denotes_of_next? hnext
    have hothers : others = behind := List.drop_left
    cases hlater : ofText file (offset + size) others with
    | error d =>
      rw [hlater] at h
      cases h
    | ok later =>
      rw [hlater] at h
      cases h
      have hcovers := ih hlater
      rw [hothers] at hcovers
      exact .token (.nil _) hdenotes hends hcovers

end Token

/-! ## The places of the tokens -/

/-- An offset that fits is not cut off. -/
theorem Position.toNat_ofNat (file : String) {offset size : Nat} (hoffset : offset ≤ size)
    (hsize : size < 2 ^ 32) : (Position.ofNat file offset).offset.toNat = offset :=
  UInt32.toNat_ofNat_of_lt' (Nat.lt_of_le_of_lt hoffset hsize)

/-- Some characters stand between two byte offsets of a text, with others behind them. -/
def Text.Stretch (text : List Char) (start stop : Nat) (slice after : List Char) : Prop :=
  ∃ before, text = before ++ (slice ++ after) ∧ byteSize before = start ∧
    byteSize (before ++ slice) = stop

theorem Text.Stretch.stop_eq {text slice after : List Char} {start stop : Nat}
    (h : Stretch text start stop slice after) : stop = start + byteSize slice := by
  obtain ⟨before, _, rfl, rfl⟩ := h
  exact byteSize_append before slice

theorem Text.byteSize_pos {text : List Char} (h : text ≠ []) : 0 < byteSize text := by
  obtain ⟨c, text, rfl⟩ := List.exists_cons_of_ne_nil h
  exact Nat.add_pos_left c.utf8Size_pos _

namespace Token

open Lexeme

/-- The offset of the first byte of a token. -/
def start (t : Token) : Nat := t.span.start.offset.toNat

/-- The offset just after the last byte of a token. -/
def stop (t : Token) : Nat := t.span.stop.offset.toNat

/-- Some tokens and an end mark account for a text from an offset on. -/
structure AccountsFor (text : List Char) (offset : Nat) (front : List Token) (last : Token) :
    Prop where
  /-- The last token is the end mark. -/
  kind : last.kind = .endOfInput
  /-- Its value says so. -/
  value : last.value = "EOF"
  /-- It starts at the end of the text. -/
  start : last.start = Text.byteSize text
  /-- It takes up no space. -/
  stop : last.stop = Text.byteSize text
  /-- Each token says what stands at its place, and does not end too early. -/
  tokens : ∀ t ∈ front, t.start < t.stop ∧ ∃ slice after,
    Text.Stretch text t.start t.stop slice after ∧ Denotes t.kind t.value slice ∧
      Ends t.kind slice after
  /-- Only gaps are before the tokens, between them and before the end mark. -/
  gaps : List.Forall₂ (fun stop start => stop ≤ start ∧ ∃ gap after,
      Text.Stretch text stop start gap after ∧ IsGap gap after)
    (offset :: front.map Token.stop) ((front ++ [last]).map Token.start)

/-- One more token in front accounts for the text from the gap before it on. -/
theorem AccountsFor.cons {text gap slice after : List Char} {offset : Nat} {t last : Token}
    {front : List Token} (h : AccountsFor text t.stop front last)
    (hgap : IsGap gap (slice ++ after))
    (hbefore : Text.Stretch text offset t.start gap (slice ++ after))
    (hslice : Text.Stretch text t.start t.stop slice after)
    (hdenotes : Denotes t.kind t.value slice) (hends : Ends t.kind slice after) :
    AccountsFor text offset (t :: front) last := by
  have hstart := hbefore.stop_eq
  have hstop := hslice.stop_eq
  have hpositive := Text.byteSize_pos hdenotes.slice_ne
  refine ⟨h.kind, h.value, h.start, h.stop, List.forall_mem_cons.2 ⟨?_, h.tokens⟩, .cons ?_ h.gaps⟩
  · exact ⟨by omega, slice, after, hslice, hdenotes, hends⟩
  · exact ⟨by omega, gap, slice ++ after, hbefore, hgap⟩

/-- What covers the rest of a text accounts for it in the whole text. -/
theorem Covers.accountsFor {file : String} {offset : Nat} {text : List Char} {tokens : List Token}
    (h : Covers file offset text tokens) (before : List Char)
    (hoffset : Text.byteSize before = offset) (hsize : Text.byteSize (before ++ text) < 2 ^ 32) :
    ∃ front last, tokens = front ++ [last] ∧ AccountsFor (before ++ text) offset front last := by
  induction h generalizing before with
  | @endMark offset gap hgap =>
    have hend : offset + Text.byteSize gap = Text.byteSize (before ++ gap) := by
      rw [Text.byteSize_append, hoffset]
    rw [hend]
    have hplace : (Token.endMark file (Text.byteSize (before ++ gap))).start =
        Text.byteSize (before ++ gap) := Position.toNat_ofNat file (Nat.le_refl _) hsize
    refine ⟨[], _, rfl, rfl, rfl, hplace, hplace, List.forall_mem_nil _, .cons ?_ .nil⟩
    rw [hplace]
    refine ⟨by omega, gap, [], ⟨before, ?_, hoffset, rfl⟩, hgap⟩
    rw [List.append_nil]
  | @token offset gap slice after kind value tokens hgap hdenotes hends _ ih =>
    have hsplit : before ++ (gap ++ slice) ++ after = before ++ (gap ++ (slice ++ after)) := by
      simp only [List.append_assoc]
    have hfirst : Text.byteSize (before ++ gap) = offset + Text.byteSize gap := by
      rw [Text.byteSize_append, hoffset]
    have hlast : Text.byteSize (before ++ (gap ++ slice)) =
        offset + Text.byteSize gap + Text.byteSize slice := by
      rw [← List.append_assoc, Text.byteSize_append, hfirst]
    rw [← hsplit] at hsize ⊢
    rw [Text.byteSize_append gap, ← Nat.add_assoc] at ih
    obtain ⟨front, last, rfl, haccounts⟩ := ih _ hlast hsize
    rw [Text.byteSize_append, hlast] at hsize
    have hstart : (Position.ofNat file (offset + Text.byteSize gap)).offset.toNat =
        offset + Text.byteSize gap := Position.toNat_ofNat file (by omega) hsize
    have hstop := Position.toNat_ofNat file (Nat.le_add_right _ _) hsize
    rw [← hstop] at haccounts
    refine ⟨_ :: front, last, rfl, haccounts.cons hgap ?_ ?_ hdenotes hends⟩
    · exact ⟨before, hsplit, hoffset, hfirst.trans hstart.symm⟩
    · refine ⟨before ++ gap, ?_, hfirst.trans hstart.symm, ?_⟩
      · simp only [List.append_assoc]
      · rw [List.append_assoc]
        exact hlast.trans hstop.symm

/-- The tokens of a source account for all of it. -/
theorem accountsFor_ofSource {file source : String} {tokens : List Token}
    (h : ofSource file source = .ok tokens) (hsize : Text.byteSize source.toList < 2 ^ 32) :
    ∃ front last, tokens = front ++ [last] ∧ AccountsFor source.toList 0 front last :=
  (covers_of_ofText h).accountsFor [] rfl hsize

/-- A literal with an escape stands before a comment, both with a character of two bytes,
and two numbers share three parts. -/
theorem accountsFor_ofSource_bytes : ∃ tokens,
    ofSource "" "let s=\"\\x41é\"// ü\n1.5.2 /x" = .ok tokens ∧
      tokens.map (fun t => (t.kind, t.value, t.start, t.stop)) =
        [(.letWord, "let", 0, 3), (.identifier, "s", 4, 5), (.assignment, "=", 5, 6),
          (.string, "Aé", 6, 14), (.number, "1.5", 20, 23), (.dot, ".", 23, 24),
          (.number, "2", 24, 25), (.slash, "/", 26, 27), (.identifier, "x", 27, 28),
          (.endOfInput, "EOF", 28, 28)] ∧
      ∃ front last, tokens = front ++ [last] ∧
        AccountsFor "let s=\"\\x41é\"// ü\n1.5.2 /x".toList 0 front last := by
  have hsource : ∃ tokens, ofSource "" "let s=\"\\x41é\"// ü\n1.5.2 /x" = .ok tokens ∧
      tokens.map (fun t => (t.kind, t.value, t.start, t.stop)) =
        [(.letWord, "let", 0, 3), (.identifier, "s", 4, 5), (.assignment, "=", 5, 6),
          (.string, "Aé", 6, 14), (.number, "1.5", 20, 23), (.dot, ".", 23, 24),
          (.number, "2", 24, 25), (.slash, "/", 26, 27), (.identifier, "x", 27, 28),
          (.endOfInput, "EOF", 28, 28)] := by
    refine ⟨_, by cbv, by cbv⟩
  obtain ⟨tokens, htokens, hplaces⟩ := hsource
  exact ⟨tokens, htokens, hplaces, accountsFor_ofSource htokens (by cbv)⟩

end Token

end Scriptlet
