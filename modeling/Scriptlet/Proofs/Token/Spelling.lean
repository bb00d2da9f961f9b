import Mathlib.Data.List.TakeWhile
import Scriptlet.Expr.Written
import Scriptlet.Proofs.Number.ReadBack
import Scriptlet.Token.Lexeme

/-!
# Spellings of terminals

`Spells text ts rest` says that a text with `rest` behind it is split into the
terminals `ts` and then whatever `rest` is split into.  What follows matters,
since words, numbers and gaps run as far as they can.  Spellings are put
together from left to right (`Spells.append`), and for each kind of lexeme there
is one theorem that says what may follow it.
-/

namespace Scriptlet

open Token (Kind)

/-- The terminal of a kind whose tokens are all written alike. -/
def Terminal.mark (kind : Kind) : Terminal := ⟨kind, kind.lexeme?.getD ""⟩

@[simp] theorem Terminal.mark_kind (kind : Kind) : (mark kind).kind = kind := rfl

namespace Token

/-- With `rest` behind it a text is split into some terminals. -/
def Spells (text : List Char) (ts : List Terminal) (rest : List Char) : Prop :=
  ∀ file offset, ∃ tokens, tokens.map terminal = ts ∧
    ofText file offset (text ++ rest) =
      (ofText file (offset + Text.byteSize text) rest).map (tokens ++ ·)

namespace Spells

variable {left right text rest : List Char} {ts us : List Terminal}

theorem nil (rest : List Char) : Spells [] [] rest := by
  intro file offset
  refine ⟨[], rfl, ?_⟩
  rw [Text.byteSize_nil, Nat.add_zero, List.nil_append]
  cases ofText file offset rest <;> rfl

theorem append (hleft : Spells left ts (right ++ rest)) (hright : Spells right us rest) :
    Spells (left ++ right) (ts ++ us) rest := by
  intro file offset
  obtain ⟨tokens, rfl, hfirst⟩ := hleft file offset
  obtain ⟨tokens', rfl, hsecond⟩ := hright file (offset + Text.byteSize left)
  refine ⟨tokens ++ tokens', List.map_append, ?_⟩
  rw [List.append_assoc, hfirst, hsecond, Text.byteSize_append, ← Nat.add_assoc]
  cases ofText file (offset + Text.byteSize left + Text.byteSize right) rest with
  | error d => rfl
  | ok others => simp only [Except.map, List.append_assoc]

/-- A text that spells something up to its end has just these terminals. -/
theorem ofText_eq (h : Spells text ts []) (file : String) (offset : Nat) :
    ∃ tokens, tokens.map terminal = ts ∧
      ofText file offset text =
        .ok (tokens ++ [endMark file (offset + Text.byteSize text)]) := by
  obtain ⟨tokens, htokens, htext⟩ := h file offset
  refine ⟨tokens, htokens, ?_⟩
  rw [List.append_nil] at htext
  rw [htext, ofText]
  rfl

/-- An empty text spells nothing. -/
theorem eq_nil (h : Spells [] ts []) : ts = [] := by
  obtain ⟨tokens, rfl, htext⟩ := h.ofText_eq "" 0
  rw [ofText, Except.ok.injEq] at htext
  cases tokens with
  | nil => rfl
  | cons t tokens => simp at htext

end Spells

/-! ## One lexeme -/

/-- A lexeme that is a token gives one terminal. -/
theorem spells_of_next? {c : Char} {tail rest : List Char} {kind : Kind} {value : String}
    (h : Lexeme.next? c (tail ++ rest) = some ⟨tail, .token kind value⟩) :
    Spells (c :: tail) [⟨kind, value⟩] rest := by
  intro file offset
  refine ⟨[⟨kind, value, .ofSize file offset (Text.byteSize (c :: tail))⟩], rfl, ?_⟩
  rw [List.cons_append, ofText, h]
  simp only [List.drop_left]
  rfl

end Token

namespace Lexeme

/-! ### What starts which lexeme -/

/-- The codes of the characters that start a word. -/
theorem isWordStart_iff {c : Char} : isWordStart c ↔
    (65 ≤ c.toNat ∧ c.toNat ≤ 90) ∨ (97 ≤ c.toNat ∧ c.toNat ≤ 122) ∨ c.toNat = 95 := by
  have hunder : c = '_' ↔ c.toNat = 95 := Char.toNat_inj.symm
  have hword : isWordStart c = (decide (65 ≤ c.val ∧ c.val ≤ 90) ||
      (decide (97 ≤ c.val) && decide (c.val ≤ 122)) || c == '_') := rfl
  simp only [hword, Bool.or_eq_true, Bool.and_eq_true, decide_eq_true_eq, beq_iff_eq,
    UInt32.le_iff_toNat_le, hunder, or_assoc]
  exact Iff.rfl

theorem isDigit_iff {c : Char} : c.isDigit ↔ 48 ≤ c.toNat ∧ c.toNat ≤ 57 := Char.isDigit_iff_toNat

theorem not_isWordStart_of_isDigit {c : Char} (h : c.isDigit) : isWordStart c = false := by
  rw [Bool.eq_false_iff]
  intro hword
  rw [isDigit_iff] at h
  rw [isWordStart_iff] at hword
  omega

/-- A word may go on with a digit. -/
theorem isWordChar_of_isDigit {c : Char} (h : c.isDigit) : isWordChar c := by
  simp [isWordChar, Char.isAlphanum, h]

/-- A word may go on with what it may start with. -/
theorem isWordChar_iff {c : Char} : isWordChar c ↔ isWordStart c ∨ c.isDigit := by
  simp only [isWordChar, isWordStart, Char.isAlphanum, Bool.or_eq_true]
  exact or_right_comm

theorem not_isWordStart_of_isBlank {c : Char} (h : Text.isBlank c) :
    isWordStart c = false ∧ c.isDigit = false := by
  simp only [Text.isBlank, Text.inRanges, Text.blankRanges, List.any_cons, List.any_nil,
    Bool.or_eq_true, Bool.and_eq_true, decide_eq_true_eq, Bool.or_false] at h
  rw [Bool.eq_false_iff, Bool.eq_false_iff, Ne, Ne, isWordStart_iff, isDigit_iff]
  omega

theorem next?_of_isBlank {c : Char} (h : Text.isBlank c) (rest : List Char) :
    next? c rest = some ⟨rest.takeWhile Text.isBlank, .gap⟩ := by
  obtain ⟨hword, hdigit⟩ := not_isWordStart_of_isBlank h
  simp only [next?, hword, hdigit, h, if_true, Bool.false_eq_true, if_false]

theorem not_isWordStart_of_punctuation? {c : Char} {kind : Kind} (h : punctuation? c = some kind) :
    isWordStart c = false ∧ c.isDigit = false ∧ Text.isBlank c = false ∧ c ≠ '"' := by
  unfold punctuation? at h
  split at h <;> first | decide | cases h

/-- A mark is a lexeme by itself, but two slashes start a comment. -/
theorem next?_of_punctuation? {c : Char} {kind : Kind} {rest : List Char}
    (h : punctuation? c = some kind) (hcomment : c = '/' → rest.head? ≠ some '/') :
    next? c rest = some ⟨[], .token kind (String.singleton c)⟩ := by
  obtain ⟨hword, hdigit, hblank, hquote⟩ := not_isWordStart_of_punctuation? h
  have hmark : ¬ (c = '/' ∧ rest.head? = some '/') := fun hc => hcomment hc.1 hc.2
  simp only [next?, hword, hdigit, hblank, hquote, hmark, h, Bool.false_eq_true, if_false,
    Option.map_some]

theorem next?_quote (rest : List Char) :
    next? '"' rest = (stringTail? rest).map fun tail => ⟨tail, stringContent tail⟩ := by
  rw [next?, if_neg, if_neg, if_neg, if_pos rfl] <;> decide

/-- What stands at the front of a text, by its first characters. -/
inductive AtFront : Char → List Char → Lexeme → Prop where
  /-- A word. -/
  | word {c : Char} {rest : List Char} (hword : isWordStart c) :
      AtFront c rest ⟨rest.takeWhile isWordChar,
        .token (wordKind (c :: rest.takeWhile isWordChar))
          (String.ofList (c :: rest.takeWhile isWordChar))⟩
  /-- A number. -/
  | number {c : Char} {rest : List Char} (hdigit : c.isDigit) :
      AtFront c rest ⟨numberTail rest, .token .number (String.ofList (c :: numberTail rest))⟩
  /-- Blanks. -/
  | blanks {c : Char} {rest : List Char} (hblank : Text.isBlank c) :
      AtFront c rest ⟨rest.takeWhile Text.isBlank, .gap⟩
  /-- A string literal. -/
  | literal {rest tail : List Char} (htail : stringTail? rest = some tail) :
      AtFront '"' rest ⟨tail, stringContent tail⟩
  /-- A comment. -/
  | comment (rest : List Char) :
      AtFront '/' ('/' :: rest) ⟨('/' :: rest).takeWhile (· ≠ '\n'), .gap⟩
  /-- A punctuation mark, but no slash that starts a comment. -/
  | mark {c : Char} {rest : List Char} {kind : Kind} (hmark : punctuation? c = some kind)
      (hcomment : c = '/' → rest.head? ≠ some '/') :
      AtFront c rest ⟨[], .token kind (String.singleton c)⟩

theorem atFront_of_next? {c : Char} {rest : List Char} {lexeme : Lexeme}
    (h : next? c rest = some lexeme) : AtFront c rest lexeme := by
  unfold next? at h
  split at h
  next hword =>
    cases h
    exact .word hword
  next =>
    split at h
    next hdigit =>
      cases h
      exact .number hdigit
    next =>
      split at h
      next hblank =>
        cases h
        exact .blanks hblank
      next =>
        split at h
        next hquote =>
          subst hquote
          obtain ⟨tail, htail, rfl⟩ := Option.map_eq_some_iff.1 h
          exact .literal htail
        next =>
          split at h
          next hcomment =>
            obtain ⟨rfl, hslash⟩ := hcomment
            obtain ⟨rest, rfl⟩ := List.head?_eq_some_iff.1 hslash
            cases h
            exact .comment rest
          next hcomment =>
            obtain ⟨kind, hkind, rfl⟩ := Option.map_eq_some_iff.1 h
            exact .mark hkind fun hslash hnext => hcomment ⟨hslash, hnext⟩

theorem stringContent_ne_gap (tail : List Char) : stringContent tail ≠ .gap := by
  unfold stringContent
  split <;> simp

/-- A literal says what its inside denotes. -/
theorem stringContent_eq_token {tail : List Char} {kind : Kind} {value : String}
    (h : stringContent tail = .token kind value) :
    kind = .string ∧ Escape.unescape tail.dropLast = .ok value.toList := by
  unfold stringContent at h
  split at h
  next plain hplain =>
    cases h
    exact ⟨rfl, by rw [hplain, String.toList_ofList]⟩
  next => cases h

/-- A lexeme that is a token is a word, a number, a string or a mark. -/
theorem next?_eq_token {c : Char} {rest tail : List Char} {kind : Kind} {value : String}
    (h : next? c rest = some ⟨tail, .token kind value⟩) :
    (isWordStart c ∧ tail = rest.takeWhile isWordChar ∧ kind = wordKind (c :: tail) ∧
        value = String.ofList (c :: tail)) ∨
      (c.isDigit ∧ tail = numberTail rest ∧ kind = .number ∧ value = String.ofList (c :: tail)) ∨
      kind = .string ∨ punctuation? c = some kind ∧ value = String.singleton c := by
  generalize hlexeme : (⟨tail, .token kind value⟩ : Lexeme) = lexeme at h
  cases atFront_of_next? h with
  | word hword =>
    cases hlexeme
    exact .inl ⟨hword, rfl, rfl, rfl⟩
  | number hdigit =>
    cases hlexeme
    exact .inr (.inl ⟨hdigit, rfl, rfl, rfl⟩)
  | literal =>
    have hcontent := congrArg Lexeme.content hlexeme
    exact .inr (.inr (.inl (stringContent_eq_token hcontent.symm).1))
  | mark hmark =>
    cases hlexeme
    exact .inr (.inr (.inr ⟨hmark, rfl⟩))
  | blanks | comment => cases hlexeme

/-! ### Names -/

/-- A text is one lexeme, and that of a name. -/
def IsName (name : String) : Prop :=
  ∃ c tail, name.toList = c :: tail ∧ next? c tail = some ⟨tail, .token .identifier name⟩

theorem punctuation?_ne_identifier (c : Char) : punctuation? c ≠ some .identifier := by
  intro h
  have hlexeme := lexeme?_of_punctuation? h
  cases hlexeme

/-- A name consists of characters of words and is not reserved. -/
theorem isName_iff {name : String} : IsName name ↔ ∃ c tail, name.toList = c :: tail ∧
    isWordStart c ∧ (∀ d ∈ tail, isWordChar d) ∧ wordKind (c :: tail) = .identifier := by
  constructor
  · rintro ⟨c, tail, hname, hnext⟩
    rcases next?_eq_token hnext with ⟨hword, htail, hkind, _⟩ | ⟨_, _, hkind, _⟩ | hkind | ⟨hmark, _⟩
    · exact ⟨c, tail, hname, hword, List.takeWhile_eq_self_iff.1 htail.symm, hkind.symm⟩
    · cases hkind
    · cases hkind
    · exact absurd hmark (punctuation?_ne_identifier c)
  · rintro ⟨c, tail, hname, hword, htail, hkind⟩
    refine ⟨c, tail, hname, ?_⟩
    have hvalue : String.ofList (c :: tail) = name := by rw [← hname, String.ofList_toList]
    simp only [next?, hword, if_true, List.takeWhile_eq_self_iff.2 htail, hkind, hvalue]

/-- A text is a name or a reserved word. -/
def IsWord (word : String) : Prop :=
  ∃ c tail, word.toList = c :: tail ∧ isWordStart c ∧ ∀ d ∈ tail, isWordChar d

/-- A word consists of characters of words. -/
theorem IsWord.isWordChar {word : String} (h : IsWord word) : ∀ c ∈ word.toList, isWordChar c := by
  obtain ⟨c, tail, hword, hstart, htail⟩ := h
  rw [hword]
  exact List.forall_mem_cons.2 ⟨isWordChar_iff.2 (.inl hstart), htail⟩

theorem IsName.isWord {name : String} (h : IsName name) : IsWord name := by
  obtain ⟨c, tail, hname, hstart, htail, _⟩ := isName_iff.1 h
  exact ⟨c, tail, hname, hstart, htail⟩

/-- A name is no reserved word. -/
theorem IsName.ne_reserved {name : String} (h : IsName name) : name ≠ "let" ∧ name ≠ "const" := by
  obtain ⟨c, tail, hname, _, _, hkind⟩ := isName_iff.1 h
  rw [← hname, wordKind] at hkind
  constructor
  · rintro rfl
    cases hkind
  · rintro rfl
    cases hkind

end Lexeme

/-- The terminal of a word. -/
def Terminal.word (word : String) : Terminal := ⟨Lexeme.wordKind word.toList, word⟩

theorem Lexeme.IsName.word_eq {name : String} (h : IsName name) :
    Terminal.word name = ⟨.identifier, name⟩ := by
  obtain ⟨c, tail, hname, _, _, hkind⟩ := isName_iff.1 h
  rw [Terminal.word, hname, hkind]

namespace Token

open Lexeme

/-! ### Spellings of the lexemes -/

/-- A blank leaves nothing behind, also when more blanks follow. -/
theorem ofText_of_isBlank {c : Char} (h : Text.isBlank c) (file : String) (offset : Nat)
    (rest : List Char) :
    ofText file offset (c :: rest) = ofText file (offset + c.utf8Size) rest := by
  rw [ofText, next?_of_isBlank h]
  simp only [Text.byteSize_cons]
  cases rest with
  | nil => rfl
  | cons d rest =>
    rw [List.takeWhile_cons]
    split
    next hd =>
      rw [ofText, next?_of_isBlank hd]
      simp only [Text.byteSize_cons, List.length_cons, List.drop_succ_cons, Nat.add_assoc]
    next => rfl

theorem spells_blank {c : Char} (h : Text.isBlank c) (rest : List Char) : Spells [c] [] rest := by
  intro file offset
  refine ⟨[], rfl, ?_⟩
  rw [List.singleton_append, ofText_of_isBlank h, Text.byteSize_cons, Text.byteSize_nil, Nat.add_zero]
  cases ofText file (offset + c.utf8Size) rest <;> rfl

/-- A mark may be followed by anything, but two slashes start a comment. -/
theorem spells_mark_of_head {c : Char} {kind : Kind} {rest : List Char}
    (h : punctuation? c = some kind) (hslash : c = '/' → rest.head? ≠ some '/') :
    Spells [c] [.mark kind] rest := by
  have hvalue : kind.lexeme?.getD "" = String.singleton c := by
    rw [lexeme?_of_punctuation? h, Option.getD_some]
  rw [Terminal.mark, hvalue]
  exact spells_of_next? (next?_of_punctuation? h hslash)

theorem spells_mark {c : Char} {kind : Kind} {rest : List Char} (h : punctuation? c = some kind)
    (hslash : (c == '/') = false) : Spells [c] [.mark kind] rest :=
  spells_mark_of_head h fun hc => absurd hc (beq_eq_false_iff_ne.1 hslash)

/-- What may follow a word or a number.  A point may follow a number when no
digit follows the point. -/
structure Separate (rest : List Char) : Prop where
  /-- No character of a word follows. -/
  head : ∀ c ∈ rest.head?, ¬ isWordChar c
  /-- No point and digit follow. -/
  point : fractionPart rest = []

theorem fractionPart_of_ne {c : Char} {rest : List Char} (h : c ≠ '.') :
    Lexeme.fractionPart (c :: rest) = [] := by
  unfold Lexeme.fractionPart
  split
  next d others heq =>
    cases heq
    exact absurd rfl h
  next => rfl

theorem separate_nil : Separate [] := ⟨by simp, rfl⟩

/-- A word may end before what is neither part of a word nor a point. -/
theorem separate_cons {c : Char} {rest : List Char} (h : (Lexeme.isWordChar c || c == '.') = false) :
    Separate (c :: rest) := by
  obtain ⟨hword, hpoint⟩ := Bool.or_eq_false_iff.1 h
  exact ⟨by simp [hword], fractionPart_of_ne (beq_eq_false_iff_ne.1 hpoint)⟩

theorem spells_word {c : Char} {tail rest : List Char} (hword : isWordStart c)
    (htail : ∀ d ∈ tail, isWordChar d) (hrest : Separate rest) :
    Spells (c :: tail) [⟨wordKind (c :: tail), String.ofList (c :: tail)⟩] rest := by
  apply spells_of_next?
  simp only [next?, hword, if_true, (takeWhile_append_of_head htail hrest.head).1]

theorem spells_of_isWord {word : String} {rest : List Char} (h : IsWord word)
    (hrest : Separate rest) : Spells word.toList [.word word] rest := by
  obtain ⟨c, tail, hword, hstart, htail⟩ := h
  have hspells := spells_word hstart htail hrest
  rw [← hword, String.ofList_toList] at hspells
  exact hspells

theorem spells_name {name : String} {rest : List Char} (h : IsName name) (hrest : Separate rest) :
    Spells name.toList [⟨.identifier, name⟩] rest := by
  rw [← h.word_eq]
  exact spells_of_isWord h.isWord hrest

end Token

namespace Lexeme

/-- A number ends where no digit goes on it and, if it has no point, no point and digit. -/
theorem numberTail_append_of_plain {c : Char} {tail rest : List Char}
    (h : Numeral.Plain (c :: tail)) (hdigit : ∀ d ∈ rest.head?, ¬ d.isDigit)
    (hwhole : '.' ∉ tail → ∀ d others, rest = '.' :: d :: others → ¬ d.isDigit) :
    numberTail (tail ++ rest) = tail := by
  generalize hnumber : c :: tail = number at h
  cases h with
  | whole _ hdigits =>
    subst hnumber
    have htail : ∀ d ∈ tail, d.isDigit := fun d hd => hdigits d (.tail c hd)
    have hpoint : '.' ∉ tail := fun hmem => absurd (htail '.' hmem) (by decide)
    obtain ⟨htake, hdrop⟩ := takeWhile_append_of_head htail hdigit
    have hnone : fractionPart rest = [] := by
      fun_cases fractionPart rest with
      | case1 d others hd => exact absurd hd (hwhole hpoint d others rfl)
      | case2 => rfl
      | case3 => rfl
    rw [numberTail, htake, hdrop, hnone, List.append_nil]
  | @pointed left right hleft hright hdigits =>
    obtain ⟨d, left, rfl⟩ := List.exists_cons_of_ne_nil hleft
    obtain ⟨e, right, rfl⟩ := List.exists_cons_of_ne_nil hright
    rw [List.cons_append, List.cons.injEq] at hnumber
    obtain ⟨rfl, rfl⟩ := hnumber
    have he : e.isDigit := hdigits e (List.mem_append_right _ (.head right))
    have hpoint : ∀ x ∈ ('.' :: e :: (right ++ rest)).head?, ¬ x.isDigit := by simp
    obtain ⟨htake, hdrop⟩ := takeWhile_append_of_head
      (fun x hx => hdigits x (.tail c (List.mem_append_left _ hx))) hpoint
    obtain ⟨htake', _⟩ := takeWhile_append_of_head
      (fun x hx => hdigits x (List.mem_append_right _ (.tail e hx))) hdigit
    rw [List.append_assoc, List.cons_append, List.cons_append, numberTail, htake, hdrop,
      fractionPart, if_pos he, htake']

end Lexeme

namespace Token

open Lexeme

theorem spells_number {text rest : List Char} (h : Numeral.Plain text) (hrest : Separate rest) :
    Spells text [⟨.number, String.ofList text⟩] rest := by
  have hdigit : ∀ c ∈ rest.head?, ¬ c.isDigit := by
    intro c hc hdigit
    exact hrest.head c hc (isWordChar_of_isDigit hdigit)
  have hwhole : ∀ d others, rest = '.' :: d :: others → ¬ d.isDigit := by
    rintro d others rfl hd
    have hpoint := hrest.point
    rw [fractionPart, if_pos hd] at hpoint
    cases hpoint
  obtain ⟨c, hc, hstart⟩ := h.head_isDigit
  obtain ⟨tail, rfl⟩ := List.head?_eq_some_iff.1 hc
  apply spells_of_next?
  rw [next?, if_neg (by rw [not_isWordStart_of_isDigit hstart]; decide), if_pos hstart]
  simp only [numberTail_append_of_plain h hdigit fun _ => hwhole]

/-- A string literal ends at its own quote. -/
theorem stringTail?_escape (value rest : List Char) :
    stringTail? (Escape.escape value ++ '"' :: rest) = some (Escape.escape value ++ ['"']) := by
  induction value with
  | nil => rfl
  | cons c value ih =>
    rw [Escape.escape] at ih
    rw [Escape.escape, List.flatMap_cons, List.append_assoc, List.append_assoc]
    generalize List.flatMap Escape.escapeChar value ++ '"' :: rest = others at ih
    unfold Escape.escapeChar
    split
    case h_7 hquote hslash _ _ _ _ =>
      rw [List.singleton_append, List.singleton_append, stringTail?, ih]
      · rfl
      · exact hquote
      · exact fun h _ => absurd h hslash
      · exact fun _ _ h _ => absurd h hslash
    all_goals
      rw [List.cons_append, List.singleton_append, stringTail?, ih]
      rfl

theorem toList_literal (value : String) :
    (literal value).toList = '"' :: (Escape.escape value.toList ++ ['"']) := by
  simp [literal]

/-- A literal that was written for a text denotes that text. -/
theorem next?_literal (value : String) (rest : List Char) :
    next? '"' (Escape.escape value.toList ++ ['"'] ++ rest) =
      some ⟨Escape.escape value.toList ++ ['"'], .token .string value⟩ := by
  have hcontent : stringContent (Escape.escape value.toList ++ ['"']) = .token .string value := by
    rw [stringContent, List.dropLast_concat, Escape.unescape_escape]
    simp only [String.ofList_toList]
  rw [next?_quote, List.append_assoc, List.singleton_append, stringTail?_escape, Option.map_some,
    hcontent]

theorem spells_literal (value : String) (rest : List Char) :
    Spells (literal value).toList [⟨.string, value⟩] rest := by
  rw [toList_literal]
  exact spells_of_next? (next?_literal value rest)

end Token

/-! ## The terminals of a source -/

/-- What a terminal that was split off a source is like. -/
structure Terminal.Lexical (t : Terminal) : Prop where
  /-- It is no end mark. -/
  kind_ne : t.kind ≠ .endOfInput
  /-- A name is one. -/
  name : t.kind = .identifier → Lexeme.IsName t.value
  /-- A number has a plain text. -/
  number : t.kind = .number → Numeral.Plain t.value.toList
  /-- What is always written alike says so. -/
  value : ∀ text ∈ t.kind.lexeme?, t.value = text

theorem Terminal.Lexical.eq_mark {t : Terminal} {kind : Kind} (h : t.Lexical)
    (hkind : t.kind = kind) (hlexeme : kind.lexeme?.isSome) : t = .mark kind := by
  subst hkind
  obtain ⟨text, htext⟩ := Option.isSome_iff_exists.1 hlexeme
  rw [Terminal.mark, htext, Option.getD_some, ← h.value text htext]

namespace Lexeme

theorem plain_numberTail {c : Char} (hc : c.isDigit) (rest : List Char) :
    Numeral.Plain (c :: numberTail rest) := by
  have hdigits : ∀ d ∈ c :: rest.takeWhile Char.isDigit, d.isDigit := by
    intro d hd
    rcases List.mem_cons.1 hd with rfl | hd
    · exact hc
    · exact List.mem_takeWhile_imp hd
  rw [numberTail]
  generalize rest.dropWhile Char.isDigit = others
  unfold fractionPart
  split
  next d others =>
    split
    next hd =>
      rw [← List.cons_append]
      refine .pointed (List.cons_ne_nil _ _) (List.cons_ne_nil _ _) ?_
      intro x hx
      rcases List.mem_append.1 hx with hx | hx
      · exact hdigits x hx
      · rcases List.mem_cons.1 hx with rfl | hx
        · exact hd
        · exact List.mem_takeWhile_imp hx
    next =>
      rw [List.append_nil]
      exact .whole (List.cons_ne_nil _ _) hdigits
  next =>
    rw [List.append_nil]
    exact .whole (List.cons_ne_nil _ _) hdigits

/-- A number consists of digits and a point.  It ends where neither a digit goes on it
nor, if it has no point, a point and a digit. -/
theorem exists_numberTail (text : List Char) : ∃ others, text = numberTail text ++ others ∧
    (∀ c ∈ numberTail text, c.isDigit ∨ c = '.') ∧ (∀ c ∈ others.head?, ¬ c.isDigit) ∧
    ('.' ∉ numberTail text → ∀ c behind, others = '.' :: c :: behind → ¬ c.isDigit) := by
  have hdigits : ∀ c ∈ text.takeWhile Char.isDigit, c.isDigit ∨ c = '.' :=
    fun c hc => .inl (List.mem_takeWhile_imp hc)
  have hstop : ∀ c ∈ (text.dropWhile Char.isDigit).head?, ¬ c.isDigit := not_of_mem_head?_dropWhile
  have hsplit : text.takeWhile Char.isDigit ++ text.dropWhile Char.isDigit = text :=
    List.takeWhile_append_dropWhile
  rw [numberTail]
  generalize text.dropWhile Char.isDigit = others at hstop hsplit
  fun_cases fractionPart others
  case case1 d others hdigit =>
    refine ⟨others.dropWhile Char.isDigit, ?_, ?_, not_of_mem_head?_dropWhile, by simp⟩
    · rw [List.append_assoc, List.cons_append, List.cons_append, List.takeWhile_append_dropWhile,
        hsplit]
    · refine List.forall_mem_append.2 ⟨hdigits, List.forall_mem_cons.2 ⟨.inr rfl, ?_⟩⟩
      exact List.forall_mem_cons.2 ⟨.inl hdigit, fun c hc => .inl (List.mem_takeWhile_imp hc)⟩
  case case2 d others hdigit =>
    rw [List.append_nil]
    refine ⟨'.' :: d :: others, hsplit.symm, hdigits, hstop, ?_⟩
    rintro _ _ _ ⟨⟩
    exact hdigit
  case case3 hother =>
    rw [List.append_nil]
    refine ⟨others, hsplit.symm, hdigits, hstop, ?_⟩
    intro _ c behind hsame
    exact absurd hsame (hother c behind)

theorem wordKind_mem (word : List Char) :
    wordKind word ∈ [Kind.identifier, .letWord, .constWord] := by
  unfold wordKind
  split
  next => decide
  next => split <;> decide

theorem wordKind_ne (word : List Char) : wordKind word ≠ .endOfInput ∧ wordKind word ≠ .number := by
  have hkind := wordKind_mem word
  constructor <;> intro h <;> simp [h] at hkind

/-- A reserved word is the text of its kind. -/
theorem lexeme?_wordKind {word : List Char} {text : String}
    (h : (wordKind word).lexeme? = some text) : String.ofList word = text := by
  unfold wordKind at h
  split at h
  next hlet =>
    rw [hlet]
    exact Option.some.inj h
  next =>
    split at h
    next hconst =>
      rw [hconst]
      exact Option.some.inj h
    next => cases h

theorem lexical_of_next? {c : Char} {rest tail : List Char} {kind : Kind} {value : String}
    (h : next? c rest = some ⟨tail, .token kind value⟩) :
    Terminal.Lexical ⟨kind, value⟩ := by
  rcases next?_eq_token h with
    ⟨hword, htail, rfl, rfl⟩ | ⟨hdigit, htail, rfl, rfl⟩ | rfl | ⟨hmark, rfl⟩
  · obtain ⟨hend, hnumber⟩ := wordKind_ne (c :: tail)
    refine ⟨hend, fun hname => ?_, fun hkind => absurd hkind hnumber, fun _ => lexeme?_wordKind⟩
    refine isName_iff.2 ⟨c, tail, String.toList_ofList, hword, ?_, hname⟩
    intro d hd
    rw [htail] at hd
    exact List.mem_takeWhile_imp hd
  · refine ⟨by simp, by simp, fun _ => ?_, by simp [Kind.lexeme?]⟩
    rw [String.toList_ofList, htail]
    exact plain_numberTail hdigit rest
  · exact ⟨by simp, by simp, by simp, by simp [Kind.lexeme?]⟩
  · have hlexeme := lexeme?_of_punctuation? hmark
    have hvalue : ∀ text ∈ kind.lexeme?, String.singleton c = text := fun _ htext =>
      Option.some.inj (hlexeme.symm.trans htext)
    cases kind with
    | endOfInput | number | identifier => cases hlexeme
    | _ => exact ⟨by simp, by simp, by simp, hvalue⟩

end Lexeme

namespace Token

/-- The tokens of a text are lexical, and an end mark stands behind the last one. -/
theorem lexical_of_ofText {file : String} {offset : Nat} {text : List Char} {tokens : List Token}
    (h : ofText file offset text = .ok tokens) :
    ∃ front size, tokens = front ++ [endMark file size] ∧ ∀ t ∈ front, t.terminal.Lexical := by
  fun_induction ofText file offset text generalizing tokens with
  | case1 =>
    cases h
    exact ⟨[], _, rfl, by simp⟩
  | case2 => cases h
  | case3 =>
    rename_i ih
    exact ih h
  | case4 => cases h
  | case5 offset c rest tail size others kind value hnext =>
    rename_i ih
    cases hlater : ofText file (offset + size) others with
    | error d =>
      rw [hlater] at h
      cases h
    | ok later =>
      rw [hlater] at h
      cases h
      obtain ⟨front, last, rfl, hfront⟩ := ih hlater
      refine ⟨_ :: front, last, rfl, ?_⟩
      intro t ht
      rcases List.mem_cons.1 ht with rfl | ht
      · exact Lexeme.lexical_of_next? hnext
      · exact hfront t ht

theorem terminal_of_ofText {file : String} {offset : Nat} {text : List Char} {front : List Token}
    {last : Token} (h : ofText file offset text = .ok (front ++ [last])) :
    last.terminal = ⟨.endOfInput, endValue⟩ := by
  obtain ⟨front', size, hsame, _⟩ := lexical_of_ofText h
  cases (List.append_inj' hsame rfl).2
  rfl

end Token

end Scriptlet
