import Mathlib
import Scriptlet.Proofs.Token.Failure
import Scriptlet.Proofs.Token.Relaid

/-!
# Texts that keep to lines

Blanks may run over the end of a line, and so may string literals.  A text keeps to lines when it
is split into tokens and no literal of it holds a newline (`Token.KeepsToLines`).  Then no token
runs over the end of a line, and the text can be taken lexeme by lexeme (`Token.Unbroken`, which
says the same by `unbroken_iff`).

So a line of such a text is split by itself as it is in the text (`Unbroken.exists_split`), and
two such texts can stand on either side of a newline (`Unbroken.append_newline`).  Blanks before a
text and a carriage return behind it are never part of a token.
-/

namespace Scriptlet

namespace Lexeme.StandsBefore

open Token (Kind)

variable {c : Char} {tail behind : List Char} {kind : Kind} {value : String}

/-- A gap is blanks or a comment. -/
theorem gap_cases (h : StandsBefore behind c ⟨tail, .gap⟩) :
    ((∀ d ∈ c :: tail, Text.isBlank d) ∧ ∀ d ∈ behind.head?, ¬ Text.isBlank d) ∨
      ∃ body, c :: tail = '/' :: '/' :: body ∧ (∀ d ∈ body, d ≠ '\n') ∧
        ∀ d ∈ behind.head?, d = '\n' := by
  generalize hlexeme : (⟨tail, .gap⟩ : Lexeme) = lexeme at h
  cases h with
  | blanks hblank hstop =>
    cases hlexeme
    exact .inl ⟨hblank, hstop⟩
  | comment hbody hstop =>
    cases hlexeme
    exact .inr ⟨_, rfl, hbody, hstop⟩
  | literal => exact absurd (congrArg Lexeme.content hlexeme).symm (stringContent_ne_gap _)
  | word | number | mark => cases hlexeme

/-- No blank is part of a token other than a string. -/
theorem not_isBlank (h : StandsBefore behind c ⟨tail, .token kind value⟩) (hkind : kind ≠ .string) :
    ∀ d ∈ c :: tail, ¬ Text.isBlank d := by
  have hchar {d : Char} (hd : isWordChar d ∨ d = '.') : ¬ Text.isBlank d := by
    intro hblank
    obtain ⟨hstart, hdigit⟩ := not_isWordStart_of_isBlank hblank
    rcases hd with hd | rfl
    · rcases isWordChar_iff.1 hd with hd | hd
      · rw [hstart] at hd
        cases hd
      · rw [hdigit] at hd
        cases hd
    · exact absurd hblank (by decide)
  generalize hlexeme : (⟨tail, .token kind value⟩ : Lexeme) = lexeme at h
  cases h with
  | word hword htail =>
    cases hlexeme
    exact List.forall_mem_cons.2 ⟨hchar (.inl (isWordChar_iff.2 (.inl hword))),
      fun d hd => hchar (.inl (htail d hd))⟩
  | number hplain =>
    cases hlexeme
    exact fun d hd => hchar ((hplain.isDigit_or_point d hd).imp_left isWordChar_of_isDigit)
  | literal =>
    exact absurd (stringContent_eq_token (congrArg Lexeme.content hlexeme).symm).1 hkind
  | mark hmark =>
    cases hlexeme
    rw [List.forall_mem_singleton, (not_isWordStart_of_punctuation? hmark).2.2.1]
    exact Bool.false_ne_true
  | blanks | comment => cases hlexeme

/-- A string stands between quotes. -/
theorem exists_inside (h : StandsBefore behind c ⟨tail, .token .string value⟩) :
    ∃ inside, c :: tail = '"' :: (inside ++ ['"']) ∧ Inside inside := by
  obtain ⟨_, _, hdenotes, _⟩ := denotes_of_next? h.next?
  obtain ⟨inside, hslice, hinside, _⟩ := hdenotes.literal rfl
  exact ⟨inside, hslice, hinside⟩

/-- A token starts with no blank. -/
theorem head_not_isBlank (h : StandsBefore behind c ⟨tail, .token kind value⟩) :
    ¬ Text.isBlank c := by
  by_cases hkind : kind = .string
  · subst hkind
    obtain ⟨inside, hslice, _⟩ := h.exists_inside
    cases hslice
    decide
  · exact h.not_isBlank hkind c (.head tail)

/-- A token does not end in a carriage return. -/
theorem ne_concat_return (h : StandsBefore behind c ⟨tail, .token kind value⟩) (line : List Char) :
    c :: tail ≠ line ++ ['\r'] := by
  intro hreturn
  by_cases hkind : kind = .string
  · subst hkind
    obtain ⟨inside, hslice, _⟩ := h.exists_inside
    rw [hreturn, ← List.cons_append] at hslice
    exact absurd (List.append_inj' hslice rfl).2 (by decide)
  · exact h.not_isBlank hkind '\r' (by simp [hreturn]) (by decide)

/-- What stands at the front of a text is one lexeme, and what is left of the text is known. -/
theorem unique {behind' : List Char} {lexeme lexeme' : Lexeme} (h : StandsBefore behind c lexeme)
    (h' : StandsBefore behind' c lexeme')
    (hsame : lexeme.tail ++ behind = lexeme'.tail ++ behind') :
    lexeme = lexeme' ∧ behind = behind' := by
  have hnext := h.next?
  rw [hsame, h'.next?] at hnext
  cases hnext
  exact ⟨rfl, List.append_cancel_left hsame⟩

end Lexeme.StandsBefore

namespace Token

open Lexeme

/-! ## Literals -/

/-- No literal of a text that starts at some offset holds a newline: where a run over the text
gets to a literal, the literal is on one line. -/
def LiteralsInLine (file : String) (offset : Nat) (text : List Char) : Prop :=
  ∀ (front inside behind : List Char) (tokens : List Token),
    text = front ++ '"' :: (inside ++ '"' :: behind) →
    Run file ('"' :: (inside ++ '"' :: behind)) offset front tokens →
    Inside inside → '\n' ∉ inside

/-- A text is split into tokens, and none of its literals holds a newline. -/
structure KeepsToLines (file text : String) : Prop where
  /-- It is split. -/
  tokens : ∃ tokens, ofSource file text = .ok tokens
  /-- Its literals are on one line each. -/
  literals : LiteralsInLine file 0 text.toList

/-- A text is split into some terminals, and none of its tokens runs over the end of a line. -/
inductive Unbroken : List Char → List Terminal → Prop where
  /-- Nothing is left. -/
  | nil : Unbroken [] []
  /-- Blanks or a comment. -/
  | gap {c : Char} {tail behind : List Char} {ts : List Terminal}
      (hgap : StandsBefore behind c ⟨tail, .gap⟩) (h : Unbroken behind ts) :
      Unbroken (c :: (tail ++ behind)) ts
  /-- A token. -/
  | token {c : Char} {tail behind : List Char} {kind : Kind} {value : String} {ts : List Terminal}
      (htoken : StandsBefore behind c ⟨tail, .token kind value⟩) (hline : '\n' ∉ c :: tail)
      (h : Unbroken behind ts) : Unbroken (c :: (tail ++ behind)) (⟨kind, value⟩ :: ts)

variable {file : String} {offset : Nat}

/-! ## The reader of tokens -/

theorem LiteralsInLine.of_notMem {text : List Char} (h : '\n' ∉ text) :
    LiteralsInLine file offset text := by
  rintro front inside behind _ rfl _ _ hmem
  exact h (by simp [hmem])

theorem LiteralsInLine.of_gap {c : Char} {tail behind : List Char}
    (h : LiteralsInLine file offset (c :: (tail ++ behind)))
    (hgap : StandsBefore behind c ⟨tail, .gap⟩) :
    LiteralsInLine file (offset + Text.byteSize (c :: tail)) behind := by
  rintro front inside after tokens rfl hrun
  have hnext := hgap.next?
  exact h (c :: (tail ++ front)) inside after tokens (by simp) (.gap hnext hrun)

theorem LiteralsInLine.of_token {c : Char} {tail behind : List Char} {kind : Kind} {value : String}
    (h : LiteralsInLine file offset (c :: (tail ++ behind)))
    (htoken : StandsBefore behind c ⟨tail, .token kind value⟩) :
    LiteralsInLine file (offset + Text.byteSize (c :: tail)) behind := by
  rintro front inside after tokens rfl hrun
  have hnext := htoken.next?
  exact h (c :: (tail ++ front)) inside after _ (by simp) (.token hnext hrun)

/-- The first token of a text keeps to a line if the literals do. -/
theorem LiteralsInLine.newline_notMem {c : Char} {tail behind : List Char} {kind : Kind}
    {value : String} (h : LiteralsInLine file offset (c :: (tail ++ behind)))
    (htoken : StandsBefore behind c ⟨tail, .token kind value⟩) : '\n' ∉ c :: tail := by
  by_cases hkind : kind = .string
  · subst hkind
    obtain ⟨inside, hslice, hinside⟩ := htoken.exists_inside
    have htext : c :: (tail ++ behind) = [] ++ '"' :: (inside ++ '"' :: behind) := by
      rw [← List.cons_append, hslice]
      simp
    have hnewline := h [] inside behind [] htext (.stay offset) hinside
    rw [hslice]
    simpa using hnewline
  · exact fun hmem => htoken.not_isBlank hkind _ hmem Text.isBlank_newline

/-- A text that is split and whose literals are on one line each is unbroken. -/
theorem unbroken_of_ofText {text : List Char} {tokens : List Token}
    (h : ofText file offset text = .ok tokens) (hliterals : LiteralsInLine file offset text) :
    ∃ ts, Unbroken text ts := by
  induction offset, text using ofText_induction generalizing tokens with
  | empty => exact ⟨[], .nil⟩
  | unrecognised hnext | badEscape hnext =>
    rw [ofText, hnext] at h
    cases h
  | gap hgap ih =>
    rw [ofText_of_gap hgap.next?] at h
    obtain ⟨ts, hts⟩ := ih h (hliterals.of_gap hgap)
    exact ⟨ts, .gap hgap hts⟩
  | token htoken ih =>
    obtain ⟨others, hothers, _⟩ := exists_others htoken h
    obtain ⟨ts, hts⟩ := ih hothers (hliterals.of_token htoken)
    exact ⟨_, .token htoken (hliterals.newline_notMem htoken) hts⟩

/-- A run over a text starts at its first lexeme, or it gets over this lexeme first. -/
theorem Run.behind_lexeme {c : Char} {behind front rest : List Char} {lexeme : Lexeme}
    {tokens : List Token} (h : Run file rest offset front tokens)
    (hstands : StandsBefore behind c lexeme)
    (htext : c :: (lexeme.tail ++ behind) = front ++ rest) :
    front = [] ∨ ∃ front' offset' tokens', behind = front' ++ rest ∧
      Run file rest offset' front' tokens' := by
  cases h with
  | stay => exact .inl rfl
  | gap hnext hrun | token hnext hrun =>
    obtain ⟨rfl, hsame⟩ := List.cons.inj htext
    obtain ⟨behind', hbehind', hstands'⟩ := standsBefore_of_next? hnext
    obtain rfl := List.append_cancel_left hbehind'
    have hbehind := (hstands.unique hstands' (hsame.trans (List.append_assoc ..))).2
    exact .inr ⟨_, _, _, hbehind, hrun⟩

namespace Unbroken

variable {text text' : List Char} {ts us : List Terminal}

/-- An unbroken text is split into its terminals. -/
theorem ofText_eq (h : Unbroken text ts) (file : String) (offset : Nat) :
    ∃ tokens, tokens.map terminal = ts ∧
      ofText file offset text = .ok (tokens ++ [endMark file (offset + Text.byteSize text)]) := by
  induction h generalizing offset with
  | nil =>
    refine ⟨[], rfl, ?_⟩
    rw [ofText]
    rfl
  | @gap c tail behind ts hgap _ ih =>
    obtain ⟨tokens, htokens, htext⟩ := ih (offset + Text.byteSize (c :: tail))
    refine ⟨tokens, htokens, ?_⟩
    rw [ofText_of_gap hgap.next?, htext, ← List.cons_append, Text.byteSize_append, Nat.add_assoc]
  | @token c tail behind kind value ts htoken _ _ ih =>
    obtain ⟨tokens, rfl, htext⟩ := ih (offset + Text.byteSize (c :: tail))
    refine ⟨⟨kind, value, .ofSize file offset (Text.byteSize (c :: tail))⟩ :: tokens, rfl, ?_⟩
    rw [ofText_of_token htoken.next?, htext, ← List.cons_append, Text.byteSize_append,
      Nat.add_assoc]
    rfl

/-- The literals of an unbroken text are on one line each. -/
theorem literalsInLine (h : Unbroken text ts) (file : String) (offset : Nat) :
    LiteralsInLine file offset text := by
  intro front inside after tokens htext hrun hinside
  have hliteral : StandsBefore after '"' ⟨inside ++ ['"'], stringContent (inside ++ ['"'])⟩ :=
    .literal hinside
  induction h generalizing front offset tokens with
  | nil => simp at htext
  | @gap c tail behind ts hgap _ ih =>
    obtain rfl | ⟨front', offset', tokens', rfl, hrun'⟩ := hrun.behind_lexeme hgap htext
    · obtain ⟨rfl, hsame⟩ := List.cons.inj htext
      have hlexeme := (hgap.unique hliteral (by simpa using hsame)).1
      exact absurd (congrArg Lexeme.content hlexeme).symm (stringContent_ne_gap _)
    · exact ih offset' front' tokens' rfl hrun'
  | @token c tail behind kind value ts htoken hline _ ih =>
    obtain rfl | ⟨front', offset', tokens', rfl, hrun'⟩ := hrun.behind_lexeme htoken htext
    · obtain ⟨rfl, hsame⟩ := List.cons.inj htext
      have hlexeme := (htoken.unique hliteral (by simpa using hsame)).1
      have htail : tail = inside ++ ['"'] := congrArg Lexeme.tail hlexeme
      exact fun hmem => hline (by simp [htail, hmem])
    · exact ih offset' front' tokens' rfl hrun'

/-! ## Newlines and blanks -/

/-- Another blank may stand before a text. -/
theorem cons_blank {c : Char} (hc : Text.isBlank c) (h : Unbroken text ts) :
    Unbroken (c :: text) ts := by
  by_cases hstop : ∀ d ∈ text.head?, ¬ Text.isBlank d
  · have hgap : StandsBefore text c ⟨[], .gap⟩ := .blanks (List.forall_mem_singleton.2 hc) hstop
    exact .gap hgap h
  · -- The blank goes on with the blanks at the front of the text.
    cases h with
    | nil => simp at hstop
    | @gap d tail behind _ hgap h =>
      have hd : Text.isBlank d := by simpa using hstop
      obtain ⟨hblank, hend⟩ | ⟨body, hcomment, _⟩ := hgap.gap_cases
      · have hlonger : StandsBefore behind c ⟨d :: tail, .gap⟩ :=
          .blanks (List.forall_mem_cons.2 ⟨hc, hblank⟩) hend
        exact .gap hlonger h
      · cases hcomment
        exact absurd hd (by decide)
    | token htoken => exact absurd (by simpa using hstop) htoken.head_not_isBlank

theorem append_blanks {blanks : List Char} (hblanks : ∀ d ∈ blanks, Text.isBlank d)
    (h : Unbroken text ts) : Unbroken (blanks ++ text) ts := by
  induction blanks with
  | nil => exact h
  | cons d blanks ih =>
    obtain ⟨hd, hothers⟩ := List.forall_mem_cons.1 hblanks
    exact (ih hothers).cons_blank hd

theorem of_blanks {blanks : List Char} (hblanks : ∀ d ∈ blanks, Text.isBlank d) :
    Unbroken blanks [] := by
  have hall : Unbroken (blanks ++ []) [] := nil.append_blanks hblanks
  rwa [List.append_nil] at hall

/-- Two texts stand on either side of a newline. -/
theorem append_newline (h : Unbroken text ts) (h' : Unbroken text' us) :
    Unbroken (text ++ '\n' :: text') (ts ++ us) := by
  induction h with
  | nil => exact h'.cons_blank Text.isBlank_newline
  | @gap c tail behind ts hgap _ ih =>
    rw [List.cons_append, List.append_assoc]
    obtain hgap | ⟨_, hblanks⟩ := hgap.newline text'
    · exact .gap hgap ih
    · exact ih.append_blanks hblanks
  | token htoken hline _ ih =>
    rw [List.cons_append, List.append_assoc]
    obtain htoken | ⟨hgap, _⟩ := htoken.newline text'
    · exact .token htoken hline ih
    · cases hgap

/-! ## Parts of a text -/

/-- A character that stands in a text of two parts stands in the second or in the first. -/
theorem append_cons_eq_append {d : Char} {line rest front behind : List Char}
    (h : line ++ d :: rest = front ++ behind) :
    (∃ line', line = front ++ line' ∧ behind = line' ++ d :: rest) ∨
      ∃ more, front = line ++ d :: more ∧ rest = more ++ behind := by
  obtain ⟨more, rfl, hmore⟩ | ⟨line', rfl, hbehind⟩ := List.append_eq_append_iff.1 h
  · cases more with
    | nil => exact .inl ⟨[], by simp, hmore.symm⟩
    | cons e more =>
      obtain ⟨rfl, rfl⟩ := List.cons.inj hmore
      exact .inr ⟨more, rfl, rfl⟩
  · exact .inl ⟨line', rfl, hbehind⟩

/-- A line of a text is split as it is in the text, and so is what follows the line. -/
theorem exists_split {line : List Char} (h : Unbroken (line ++ '\n' :: text) ts)
    (hline : '\n' ∉ line) : ∃ us vs, ts = us ++ vs ∧ Unbroken line us ∧ Unbroken text vs := by
  generalize hall : line ++ '\n' :: text = all at h
  induction h generalizing line with
  | nil => simp at hall
  | @gap c tail behind ts hgap h ih =>
    rw [← List.cons_append] at hall
    obtain ⟨line', rfl, rfl⟩ | ⟨more, hmore, rfl⟩ := append_cons_eq_append hall
    · obtain ⟨us, vs, rfl, hfirst, hsecond⟩ := ih (fun hmem => hline (by simp [hmem])) rfl
      exact ⟨us, vs, rfl, .gap hgap.cut hfirst, hsecond⟩
    · -- A gap that runs over the newline consists of blanks.
      obtain ⟨hblank, _⟩ | ⟨body, hcomment, hbody, _⟩ := hgap.gap_cases
      · rw [hmore] at hblank
        obtain ⟨hbefore, hafter⟩ := List.forall_mem_append.1 hblank
        exact ⟨[], ts, rfl, of_blanks hbefore, h.append_blanks (List.forall_mem_cons.1 hafter).2⟩
      · have hmem : '\n' ∈ '/' :: '/' :: body := by simp [← hcomment, hmore]
        simp only [List.mem_cons, Char.reduceEq, false_or] at hmem
        exact absurd rfl (hbody _ hmem)
  | token htoken hnewline h ih =>
    rw [← List.cons_append] at hall
    obtain ⟨line', rfl, rfl⟩ | ⟨more, hmore, _⟩ := append_cons_eq_append hall
    · obtain ⟨us, vs, rfl, hfirst, hsecond⟩ := ih (fun hmem => hline (by simp [hmem])) rfl
      exact ⟨_ :: us, vs, rfl, .token htoken.cut hnewline hfirst, hsecond⟩
    · exact absurd (by simp [hmore]) hnewline

/-- A carriage return at the end of a text is part of a gap. -/
theorem of_concat_return {line : List Char} (h : Unbroken (line ++ ['\r']) ts) :
    Unbroken line ts := by
  generalize hall : line ++ ['\r'] = all at h
  induction h generalizing line with
  | nil => simp at hall
  | @gap c tail behind ts hgap h ih =>
    rw [← List.cons_append] at hall
    obtain ⟨line', rfl, rfl⟩ | ⟨more, hmore, hnil⟩ := append_cons_eq_append hall
    · exact .gap hgap.cut (ih rfl)
    · obtain ⟨rfl, rfl⟩ := List.append_eq_nil_iff.1 hnil.symm
      cases h
      obtain ⟨hblank, _⟩ | ⟨body, hcomment, hbody, _⟩ := hgap.gap_cases
      · rw [hmore] at hblank
        exact of_blanks (List.forall_mem_append.1 hblank).1
      · -- The two slashes of a comment are still there without its last character.
        rw [hmore] at hcomment
        rcases line with _ | ⟨_, _ | ⟨_, line⟩⟩
        · cases hcomment
        · cases hcomment
        · simp only [List.cons_append, List.cons.injEq] at hcomment
          obtain ⟨rfl, rfl, rfl⟩ := hcomment
          have hshorter : StandsBefore [] '/' ⟨'/' :: line, .gap⟩ :=
            .comment (List.forall_mem_append.1 hbody).1 (by simp)
          have hall := Unbroken.gap hshorter .nil
          rwa [List.append_nil] at hall
  | @token c tail behind kind value ts htoken hnewline h ih =>
    rw [← List.cons_append] at hall
    obtain ⟨line', rfl, rfl⟩ | ⟨more, hmore, hnil⟩ := append_cons_eq_append hall
    · exact .token htoken.cut hnewline (ih rfl)
    · obtain ⟨rfl, rfl⟩ := List.append_eq_nil_iff.1 hnil.symm
      exact absurd hmore (htoken.ne_concat_return line)

end Unbroken

/-- A text without a newline is unbroken. -/
theorem unbroken_of_spells {text : List Char} {ts : List Terminal} (h : Spells text ts [])
    (hline : '\n' ∉ text) : Unbroken text ts := by
  obtain ⟨tokens, rfl, htext⟩ := h.ofText_eq "" 0
  obtain ⟨us, hus⟩ := unbroken_of_ofText htext (.of_notMem hline)
  obtain ⟨tokens', rfl, htext'⟩ := hus.ofText_eq "" 0
  rw [htext, Except.ok.injEq] at htext'
  rwa [List.append_cancel_right htext']

/-- A text keeps to lines just when it is split into some terminals, none of which runs over the
end of a line. -/
theorem unbroken_iff {text : String} :
    (∃ ts, Unbroken text.toList ts) ↔ KeepsToLines file text := by
  constructor
  · rintro ⟨ts, h⟩
    obtain ⟨tokens, _, htext⟩ := h.ofText_eq file 0
    exact ⟨⟨_, htext⟩, h.literalsInLine file 0⟩
  · rintro ⟨⟨tokens, htokens⟩, hliterals⟩
    exact unbroken_of_ofText htokens hliterals

end Token

end Scriptlet
