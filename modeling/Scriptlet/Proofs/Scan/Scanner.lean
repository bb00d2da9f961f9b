import Mathlib
import Scriptlet.Proofs.Scan.Table
import Scriptlet.Proofs.Text.Lines
import Scriptlet.Source.Reader

/-!
# Scanning by byte offsets

A scanner keeps the whole source and a byte offset into it.  In each round it looks for the first
row of the table of lexemes whose pattern is found behind the offset.  The row looks for its
pattern once more, takes over what it finds and moves the offset by the size of that, but for a
mark, whose size is that of its own text.

Nothing says beforehand that a source can be cut at the offset, that a literal is long enough to
lose its quotes, or that the offset moves at all.  A round that would cut a source elsewhere has no
outcome, and neither has a scan that goes on for longer than its clock says.

`Scanner.Goes` lists what a round may do, and `Scanner.scan_advances` says that it never does
anything else, wherever a scan comes to.  So each scan ends, within as many rounds as the source
has bytes, and with the tokens of the source.
-/

namespace Scriptlet

open Token (Kind)

namespace Text

/-- What stands in a text before an offset, if the text can be cut there. -/
def takeBytes? (count : Nat) (text : List Char) : Option (List Char) :=
  (dropBytes? count text).map fun rest => text.take (text.length - rest.length)

/-- What stands in a text from one offset to another, if the text can be cut at both. -/
def slice? (start stop : Nat) (text : List Char) : Option (List Char) :=
  if start ≤ stop then (takeBytes? stop text).bind (dropBytes? start) else none

/-- Between its quotes a literal can be cut out. -/
theorem slice?_literal (inside : List Char) :
    slice? 1 (byteSize ('"' :: (inside ++ ['"'])) - 1) ('"' :: (inside ++ ['"'])) =
      some inside := by
  have hsize : byteSize ('"' :: (inside ++ ['"'])) - 1 = byteSize ('"' :: inside) := by
    have hquote : '"'.utf8Size = 1 := rfl
    simp only [byteSize_cons, byteSize_append, byteSize_nil, hquote, Nat.add_zero,
      ← Nat.add_assoc, Nat.add_sub_cancel]
  have hfront := dropBytes?_byteSize ('"' :: inside) ['"']
  have hinside := dropBytes?_byteSize ['"'] inside
  rw [List.cons_append] at hfront
  have hpositive : 1 ≤ byteSize ('"' :: inside) := Nat.le_add_right 1 _
  have htake : ('"' :: (inside ++ ['"'])).take
      (('"' :: (inside ++ ['"'])).length - ['"'].length) = '"' :: inside := by simp
  rw [slice?, hsize, if_pos hpositive, takeBytes?, hfront, Option.map_some, Option.bind_some, htake]
  exact hinside

end Text

/-- How far a source has been scanned, and the tokens that were found. -/
structure Scanner where
  /-- The byte offset. -/
  offset : Nat
  /-- The tokens before it. -/
  tokens : List Token

namespace Scanner

open Pattern (Row Action rowAt?)

/-! ## Rounds -/

section

variable (file source : String) (s : Scanner)

/-- The text behind the offset, if the source can be cut there. -/
def remainder? : Option (List Char) := Text.dropBytes? s.offset source.toList

/-- The scanner some bytes further on. -/
def advance (size : Nat) : Scanner := { s with offset := s.offset + size }

/-- The scanner behind a token of some bytes. -/
def push (kind : Kind) (value : String) (size : Nat) : Scanner :=
  advance { s with tokens := s.tokens ++ [⟨kind, value, .ofSize file s.offset size⟩] } size

/-- What a row does.  There is no outcome if the source is cut where it cannot be. -/
def act (pattern : Pattern) : Action → Option (Except Diagnostic Scanner)
  | .word => do
      let raw := pattern.found (← s.remainder? source)
      return .ok (s.push file (Lexeme.wordKind raw) (String.ofList raw) (Text.byteSize raw))
  | .number => do
      let raw := pattern.found (← s.remainder? source)
      return .ok (s.push file .number (String.ofList raw) (Text.byteSize raw))
  | .skip => do
      let raw := pattern.found (← s.remainder? source)
      return .ok (s.advance (Text.byteSize raw))
  | .literal => do
      let raw := pattern.found (← s.remainder? source)
      let inside ← Text.slice? 1 (Text.byteSize raw - 1) raw
      match Escape.unescape inside with
      | .ok value => return .ok (s.push file .string (String.ofList value) (Text.byteSize raw))
      | .error sequence =>
          return .error ⟨.invalidEscape (String.ofList sequence), .ofNat file s.offset⟩
  | .mark kind text => return .ok (s.push file kind text text.utf8ByteSize)

/-- One round of a scan. -/
def round : Option (Except Diagnostic Scanner) := do
  let text ← s.remainder? source
  match rowAt? text with
  | some row => s.act file source row.pattern row.action
  | none =>
      let token := text.head?.map String.singleton
      return .error ⟨.unrecognisedToken (token.getD ""), .ofNat file s.offset⟩

end

/-- What a scan ends with, unless a round has no outcome or the clock runs out. -/
def run (file source : String) : Nat → Scanner → Option (Except Diagnostic (List Token))
  | 0, _ => none
  | clock + 1, s =>
      if source.utf8ByteSize ≤ s.offset then
        some (.ok (s.tokens ++ [Token.endMark file s.offset]))
      else match s.round file source with
        | some (.ok next) => run file source clock next
        | some (.error d) => some (.error d)
        | none => none

/-- A scan of a source comes by a scanner at the start of a round. -/
inductive Comes (file source : String) : Scanner → Prop where
  /-- At the start of the source. -/
  | start : Comes file source ⟨0, []⟩
  /-- By a round that is made because the source is not over. -/
  | round {s next : Scanner} (h : Comes file source s) (hleft : s.offset < source.utf8ByteSize)
      (hround : s.round file source = some (.ok next)) : Comes file source next

/-! ## Places -/

/-- A scanner stands between two characters of a source, or at one of its ends. -/
structure StandsAt (source : String) (s : Scanner) (rest : List Char) : Prop where
  /-- The offset is the size of what comes before. -/
  place : ∃ front, source.toList = front ++ rest ∧ Text.byteSize front = s.offset
  /-- What is left can be looked at. -/
  remainder : s.remainder? source = some rest
  /-- Any reader of the source at this offset sees it, too. -/
  reader : ∀ r : Reader, r.source = source → r.offset.toNat = s.offset → r.remainder? = some rest

namespace StandsAt

variable {source : String} {s : Scanner}

/-- Behind a leading part of a source a scanner stands between two characters. -/
theorem of_place {front rest : List Char} (h : source.toList = front ++ rest)
    (hoffset : s.offset = Text.byteSize front) : s.StandsAt source rest := by
  have hremainder : s.remainder? source = some rest := by
    rw [remainder?, h, hoffset, Text.dropBytes?_byteSize]
  refine ⟨⟨front, h, hoffset.symm⟩, hremainder, ?_⟩
  rintro r rfl hr
  rw [Reader.remainder?, hr]
  exact hremainder

theorem start (source : String) : (⟨0, []⟩ : Scanner).StandsAt source source.toList :=
  of_place (List.nil_append _).symm rfl

theorem offset_add_byteSize {rest : List Char} (h : s.StandsAt source rest) :
    s.offset + Text.byteSize rest = source.utf8ByteSize := by
  obtain ⟨front, hsource, hoffset⟩ := h.place
  rw [← Text.byteSize_toList, hsource, Text.byteSize_append, hoffset]

theorem ne_nil {rest : List Char} (h : s.StandsAt source rest)
    (hleft : s.offset < source.utf8ByteSize) : rest ≠ [] := by
  rintro rfl
  rw [← h.offset_add_byteSize, Text.byteSize_nil] at hleft
  exact Nat.lt_irrefl _ hleft

theorem offset_lt {rest : List Char} (h : s.StandsAt source rest) (hne : rest ≠ []) :
    s.offset < source.utf8ByteSize := by
  rw [← h.offset_add_byteSize]
  exact Nat.lt_add_of_pos_right (Text.byteSize_pos hne)

/-- Behind what is taken over a scanner stands between two characters again. -/
theorem behind {raw rest : List Char} {next : Scanner} (h : s.StandsAt source (raw ++ rest))
    (hoffset : next.offset = s.offset + Text.byteSize raw) : next.StandsAt source rest := by
  obtain ⟨front, hsource, hfront⟩ := h.place
  have hsplit : source.toList = (front ++ raw) ++ rest := by rw [hsource, List.append_assoc]
  refine of_place hsplit ?_
  rw [hoffset, Text.byteSize_append, hfront]

end StandsAt

/-! ## What a round does -/

section

variable {file source : String} {s : Scanner}

/-- A lexeme moves the scanner behind it, or is reported. -/
def outcome (file : String) (s : Scanner) (raw : List Char) :
    Lexeme.Content → Except Diagnostic Scanner
  | .gap => .ok (s.advance (Text.byteSize raw))
  | .token kind value => .ok (s.push file kind value (Text.byteSize raw))
  | .badEscape sequence => .error ⟨.invalidEscape sequence, .ofNat file s.offset⟩

/-- A row does with its characters what the lexeme says. -/
theorem act_of_takes {row : Row} {text raw behind : List Char}
    (h : s.remainder? source = some text) (htakes : row.Takes text raw behind) :
    s.act file source row.pattern row.action =
      some (s.outcome file raw (row.action.content raw)) := by
  obtain ⟨pattern, action⟩ := row
  have hfound : pattern.found text = raw := htakes.found
  have hsuits := htakes.suits
  cases action with
  | word | number | skip =>
    rw [act, h]
    simp only [Option.bind_eq_bind, Option.bind_some, hfound]
    rfl
  | literal =>
    obtain ⟨inside, rfl⟩ := hsuits
    rw [act, h]
    simp only [Option.bind_eq_bind, Option.bind_some, hfound, Text.slice?_literal,
      Action.content, List.tail_cons, Lexeme.stringContent, List.dropLast_concat]
    cases Escape.unescape inside <;> rfl
  | mark kind text =>
    have htext : text.toList = raw := hsuits
    rw [act, ← Text.byteSize_toList, htext]
    rfl

/-- What a round does where some text is left. -/
inductive Goes (file source : String) (s : Scanner) : List Char → Prop where
  /-- No row is found, and the one character that is there is reported. -/
  | refuses {c : Char} {others : List Char} (hrow : rowAt? (c :: others) = none)
      (hround : s.round file source =
        some (.error ⟨.unrecognisedToken (String.singleton c), .ofNat file s.offset⟩)) :
      Goes file source s (c :: others)
  /-- A row is found, and an escape among its characters is reported. -/
  | fails {row : Row} {text raw behind : List Char} {sequence : String}
      (hrow : rowAt? text = some row) (htakes : row.Takes text raw behind)
      (hround : s.round file source =
        some (.error ⟨.invalidEscape sequence, .ofNat file s.offset⟩)) :
      Goes file source s text
  /-- A row is found, and the scanner stands behind its characters, further on than before. -/
  | moves {row : Row} {text raw behind : List Char} {next : Scanner}
      (hrow : rowAt? text = some row) (htakes : row.Takes text raw behind)
      (hround : s.round file source = some (.ok next))
      (hoffset : next.offset = s.offset + Text.byteSize raw) (hless : s.offset < next.offset)
      (hstands : next.StandsAt source behind) : Goes file source s text

theorem round_of_lexeme (file : String) {c : Char} {rest : List Char} {lexeme : Lexeme}
    (h : s.remainder? source = some (c :: rest)) (hnext : Lexeme.next? c rest = some lexeme) :
    s.round file source = some (s.outcome file (c :: lexeme.tail) lexeme.content) := by
  obtain ⟨row, behind, hrow, htakes, hcontent⟩ := Pattern.exists_takes hnext
  rw [round, h, ← hcontent, ← act_of_takes h htakes]
  simp only [Option.bind_eq_bind, Option.bind_some, hrow]

theorem round_of_none (file : String) {c : Char} {rest : List Char}
    (h : s.remainder? source = some (c :: rest))
    (hnext : Lexeme.next? c rest = none) :
    s.round file source =
      some (.error ⟨.unrecognisedToken (String.singleton c), .ofNat file s.offset⟩) := by
  rw [round, h]
  simp only [Option.bind_eq_bind, Option.bind_some, Pattern.rowAt?_eq_none hnext]
  rfl

/-- While a character is left, a round does one of the three. -/
theorem StandsAt.goes (file : String) {rest : List Char} (h : s.StandsAt source rest)
    (hleft : s.offset < source.utf8ByteSize) : s.Goes file source rest := by
  obtain ⟨c, rest, rfl⟩ := List.exists_cons_of_ne_nil (h.ne_nil hleft)
  cases hnext : Lexeme.next? c rest with
  | none => exact .refuses (Pattern.rowAt?_eq_none hnext) (round_of_none file h.remainder hnext)
  | some lexeme =>
    have hround := round_of_lexeme file h.remainder hnext
    obtain ⟨row, behind, hrow, htakes, _⟩ := Pattern.exists_takes hnext
    have hmoves {next : Scanner} (hround : s.round file source = some (.ok next))
        (hoffset : next.offset = s.offset + Text.byteSize (c :: lexeme.tail)) :
        s.Goes file source (c :: rest) := by
      have hless : s.offset < next.offset := by
        rw [hoffset]
        exact Nat.lt_add_of_pos_right (Text.byteSize_pos (List.cons_ne_nil _ _))
      rw [htakes.split] at h
      exact .moves hrow htakes hround hoffset hless (h.behind hoffset)
    cases hcontent : lexeme.content with
    | gap =>
      rw [hcontent] at hround
      exact hmoves hround rfl
    | token =>
      rw [hcontent] at hround
      exact hmoves hround rfl
    | badEscape =>
      rw [hcontent] at hround
      exact .fails hrow htakes hround

/-! ## What a scan does -/

theorem run_of_ok {next : Scanner} (hleft : s.offset < source.utf8ByteSize)
    (hround : s.round file source = some (.ok next)) (clock : Nat) :
    run file source (clock + 1) s = run file source clock next := by
  rw [run, if_neg (Nat.not_le_of_lt hleft), hround]

theorem run_of_error {d : Diagnostic} (hleft : s.offset < source.utf8ByteSize)
    (hround : s.round file source = some (.error d)) (clock : Nat) :
    run file source (clock + 1) s = some (.error d) := by
  rw [run, if_neg (Nat.not_le_of_lt hleft), hround]

/-- A lexeme takes up at least one byte. -/
theorem exists_clock {c : Char} {tail behind : List Char} {clock : Nat}
    (h : Text.byteSize (c :: (tail ++ behind)) ≤ clock) :
    ∃ fewer, clock = fewer + 1 ∧ Text.byteSize behind ≤ fewer := by
  have hpositive := Text.byteSize_pos (List.cons_ne_nil c tail)
  rw [← List.cons_append, Text.byteSize_append] at h
  exact ⟨clock - 1, by omega, by omega⟩

/-- With enough rounds left a scan ends with the tokens of what is left, behind those it has. -/
theorem run_of_standsAt {rest : List Char} {clock : Nat} (h : s.StandsAt source rest)
    (hclock : Text.byteSize rest ≤ clock) :
    run file source (clock + 1) s =
      some ((Token.ofText file s.offset rest).map (s.tokens ++ ·)) := by
  -- A lexeme costs one round, and the text gets shorter by a byte at least.
  generalize hoffset : s.offset = offset
  induction offset, rest using Token.ofText_induction generalizing s clock with
  | empty offset =>
    have hend := h.offset_add_byteSize
    rw [Text.byteSize_nil, Nat.add_zero] at hend
    rw [run, if_pos (Nat.le_of_eq hend.symm), Token.ofText, hoffset]
    rfl
  | @unrecognised offset c rest hnext =>
    have hround := round_of_none file h.remainder hnext
    rw [run_of_error (h.offset_lt (List.cons_ne_nil _ _)) hround, Token.ofText, hnext, hoffset]
    rfl
  | @badEscape offset c rest tail sequence hnext =>
    have hround := round_of_lexeme file h.remainder hnext
    rw [run_of_error (h.offset_lt (List.cons_ne_nil _ _)) hround, Token.ofText, hnext, hoffset]
    rfl
  | @gap offset c tail behind hstands ih =>
    have hround := round_of_lexeme file h.remainder hstands.next?
    have hwhole : s.StandsAt source ((c :: tail) ++ behind) := h
    rw [run_of_ok (h.offset_lt (List.cons_ne_nil _ _)) hround,
      Token.ofText_of_gap hstands.next?]
    obtain ⟨fewer, rfl, hfewer⟩ := exists_clock hclock
    exact ih (hwhole.behind rfl) hfewer (congrArg (· + _) hoffset)
  | @token offset c tail behind kind value hstands ih =>
    have hround := round_of_lexeme file h.remainder hstands.next?
    have hwhole : s.StandsAt source ((c :: tail) ++ behind) := h
    rw [run_of_ok (h.offset_lt (List.cons_ne_nil _ _)) hround,
      Token.ofText_of_token hstands.next?]
    obtain ⟨fewer, rfl, hfewer⟩ := exists_clock hclock
    rw [ih (hwhole.behind rfl) hfewer (congrArg (· + _) hoffset)]
    cases Token.ofText file (offset + Text.byteSize (c :: tail)) behind with
    | ok tokens =>
      subst hoffset
      exact congrArg (fun all => some (Except.ok all)) (List.append_assoc ..)
    | error d => rfl

/-- Wherever a scan comes to, it stands between two characters. -/
theorem Comes.exists_standsAt (h : Comes file source s) : ∃ rest, s.StandsAt source rest := by
  induction h with
  | start => exact ⟨_, .start source⟩
  | @round s next _ hleft hround ih =>
    obtain ⟨rest, hstands⟩ := ih
    cases hstands.goes file hleft with
    | refuses _ herror | fails _ _ herror => cases herror.symm.trans hround
    | @moves row text raw behind next' _ _ hok _ _ hbehind =>
      cases hok.symm.trans hround
      exact ⟨behind, hbehind⟩

end

/-- Wherever a scan comes to, it stands between two characters of the source or at one of its
ends, and can look at what is left.  While anything is left, a round reports something or moves
the scanner behind what its row has found.  So the scan ends, after at most as many rounds as the
source has bytes, and with the tokens of the source.  If it ends at a character that starts no
lexeme, this character alone is reported. -/
theorem scan_advances (file source : String) :
    (∀ s, Comes file source s → ∃ rest, s.StandsAt source rest ∧
      (s.offset < source.utf8ByteSize → s.Goes file source rest)) ∧
    (∀ clock, source.utf8ByteSize < clock →
      run file source clock ⟨0, []⟩ = some (Token.ofSource file source)) ∧
    ∀ d token, Token.ofSource file source = .error d → d.cause = .unrecognisedToken token →
      ∃ c, token = String.singleton c := by
  refine ⟨fun s hcomes => ?_, fun clock hclock => ?_, fun d token hfails hcause => ?_⟩
  · obtain ⟨rest, hstands⟩ := hcomes.exists_standsAt
    exact ⟨rest, hstands, hstands.goes file⟩
  · obtain ⟨rounds, rfl⟩ := Nat.exists_eq_add_of_lt hclock
    rw [run_of_standsAt (.start source) (by rw [Text.byteSize_toList]; exact Nat.le_add_right ..),
      Token.ofSource]
    cases Token.ofText file 0 source.toList <;> rfl
  · obtain ⟨front, c, rest, tokens, _, _, hrefuses, _⟩ := Token.ofText_eq_error_iff.1 hfails
    rw [hcause] at hrefuses
    exact ⟨c, hrefuses.1⟩

/-- A scan comes past a literal and two blanks, six bytes in five characters, to a letter of two
bytes that starts no word. -/
theorem scan_advances_wide : ∃ s, Comes "" "\"é\"  ü" s ∧ s.offset = 6 ∧
    s.StandsAt "\"é\"  ü" ['ü'] ∧ s.Goes "" "\"é\"  ü" ['ü'] ∧
    run "" "\"é\"  ü" 9 ⟨0, []⟩ = some (.error ⟨.unrecognisedToken "ü", .ofNat "" 6⟩) ∧
    ∃ c, "ü" = String.singleton c := by
  have hfails : Token.ofSource "" "\"é\"  ü" =
      .error ⟨.unrecognisedToken "ü", .ofNat "" 6⟩ := by cbv
  obtain ⟨hplaces, hruns, hone⟩ := scan_advances "" "\"é\"  ü"
  have hliteral : Comes "" "\"é\"  ü" ⟨4, [⟨.string, "é", .ofSize "" 0 4⟩]⟩ :=
    .round .start (by decide) (by cbv)
  have hblanks : Comes "" "\"é\"  ü" ⟨6, [⟨.string, "é", .ofSize "" 0 4⟩]⟩ :=
    hliteral.round (by decide) (by cbv)
  obtain ⟨rest, hstands, hgoes⟩ := hplaces _ hblanks
  have hrest : rest = ['ü'] := Option.some.inj (hstands.remainder.symm.trans (by cbv))
  subst hrest
  refine ⟨_, hblanks, rfl, hstands, hgoes (by decide), ?_, hone _ _ hfails rfl⟩
  rw [hruns 9 (by decide), hfails]

end Scanner

end Scriptlet
