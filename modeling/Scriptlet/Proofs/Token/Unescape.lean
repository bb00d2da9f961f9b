import Mathlib
import Scriptlet.Proofs.Token.Failure

/-!
# The one way to read a literal

The inside of a literal falls into pieces in one way only (`Escape.Splits.unique`), since a number
takes as many digits as it can.  So the pieces say all there is to say about it
(`Escape.unescape_exactly`): it denotes what they denote, one behind the other, or the first one
that lacks a digit is at fault.

Reading also knows what to do with a backslash that nothing follows.  `unescapeOr` leaves open
what comes out there, and between the quotes of a literal this makes no difference
(`Escape.unescapeOr_eq`): the backslash would have hidden the quote at the end.
-/

namespace Scriptlet

namespace Escape

/-! ## The pieces are unique -/

/-- A number that stops for want of a digit takes no fewer digits than any other. -/
theorem length_le_of_greedy {digits rest others further : List Char}
    (h : digits ++ rest = others ++ further) (hothers : ∀ d ∈ others, d ∈ hexDigits)
    (hcount : others.length ≤ 2)
    (hgreedy : digits.length < 2 → ∀ d ∈ rest.head?, d ∉ hexDigits) :
    others.length ≤ digits.length := by
  rcases List.append_eq_append_iff.1 h with ⟨more, rfl, rfl⟩ | ⟨more, rfl, _⟩
  · cases more with
    | nil => simp
    | cons d more =>
      simp only [List.length_append, List.length_cons] at hcount
      have hd : d ∈ hexDigits := hothers d (by simp)
      exact absurd hd (hgreedy (by omega) d rfl)
  · simp

/-- The inside of a literal falls into pieces in one way. -/
theorem Splits.unique {text : List Char} {pieces others : List Piece} (h : Splits text pieces)
    (hothers : Splits text others) : others = pieces := by
  induction h generalizing others with
  | nil =>
    cases hothers
    rfl
  | @plain c rest pieces hslash _ ih =>
    cases hothers with
    | plain _ hrest => rw [ih hrest]
    | letter | number | kept => exact absurd rfl hslash
  | @letter c value rest pieces hletter _ ih =>
    cases hothers with
    | plain hslash => exact absurd rfl hslash
    | letter hletter' hrest =>
      have hvalue := (letter?_eq_some_iff.2 hletter).symm.trans (letter?_eq_some_iff.2 hletter')
      rw [ih hrest, Option.some.inj hvalue]
    | number => exact absurd rfl (ne_x_of_mem_letters hletter)
    | kept _ hnone => exact absurd hletter (hnone value)
  | @number digits rest pieces hdigits hcount hgreedy _ ih =>
    generalize htext : digits ++ rest = text at hothers
    cases hothers with
    | plain hslash => exact absurd rfl hslash
    | letter hletter => exact absurd rfl (ne_x_of_mem_letters hletter)
    | number hdigits' hcount' hgreedy' hrest =>
      have hlength := Nat.le_antisymm
        (length_le_of_greedy htext.symm hdigits hcount hgreedy')
        (length_le_of_greedy htext hdigits' hcount' hgreedy)
      obtain ⟨rfl, rfl⟩ := List.append_inj htext hlength
      rw [ih hrest]
    | kept hx => exact absurd rfl hx
  | @kept c rest pieces hx hletter _ ih =>
    cases hothers with
    | plain hslash => exact absurd rfl hslash
    | letter hletter' => exact absurd hletter' (hletter _)
    | number => exact absurd rfl hx
    | kept _ _ hrest => rw [ih hrest]

/-! ## A backslash that nothing follows -/

/-- What the inside of a literal denotes if this comes out where a backslash is the last of its
characters. -/
def unescapeOr (lone : Except (List Char) (List Char)) :
    List Char → Except (List Char) (List Char)
  | [] => .ok []
  | ['\\'] => lone
  | '\\' :: 'x' :: high :: low :: rest =>
      if isHexDigit high && isHexDigit low then
        (unescapeOr lone rest).map (Char.ofNat (16 * hexValue high + hexValue low) :: ·)
      else .error (deficient [high, low])
  | '\\' :: 'x' :: rest => .error (deficient rest)
  | '\\' :: c :: rest =>
      match letter? c with
      | some plain => (unescapeOr lone rest).map (plain :: ·)
      | none => (unescapeOr lone rest).map ('\\' :: c :: ·)
  | c :: rest => (unescapeOr lone rest).map (c :: ·)

/-- Such a backslash stands for itself, and between the quotes of a literal there is none. -/
theorem unescapeOr_eq {lone : Except (List Char) (List Char)} {text : List Char}
    (h : lone = .ok ['\\'] ∨ Lexeme.Inside text) : unescapeOr lone text = unescape text := by
  have hescaped {c : Char} {rest : List Char}
      (h : lone = .ok ['\\'] ∨ Lexeme.Inside ('\\' :: c :: rest)) :
      lone = .ok ['\\'] ∨ Lexeme.Inside rest := by
    refine h.imp_right fun hinside => ?_
    cases hinside with
    | plain _ hslash => exact absurd rfl hslash
    | escaped _ hrest => exact hrest
  fun_induction unescape text with
  | case1 => rfl
  | case2 high low rest hdigits ih =>
    have hall : ∀ d ∈ [high, low], d ∈ hexDigits := by simpa [isHexDigit_iff] using hdigits
    rw [unescapeOr, if_pos hdigits, ih ((hescaped h).imp_right (inside_of_digits hall))]
  | case3 high low rest hdigits => rw [unescapeOr, if_neg hdigits]
  | case4 rest hshort => rw [unescapeOr]; exact hshort
  | case5 c rest hshort hx plain hletter ih =>
    rw [unescapeOr, hletter, ih (hescaped h)]
    · exact hshort
    · exact hx
  | case6 c rest hshort hx hletter ih =>
    rw [unescapeOr, hletter, ih (hescaped h)]
    · exact hshort
    · exact hx
  | case7 c rest _ _ hslash ih =>
    by_cases hc : c = '\\'
    · subst hc
      obtain rfl : rest = [] := by
        cases rest with
        | nil => rfl
        | cons d rest => exact (hslash d rest rfl rfl).elim
      rcases h with rfl | hinside
      · rfl
      · cases hinside with
        | plain _ hslash => exact absurd rfl hslash
    · have hrest : lone = .ok ['\\'] ∨ Lexeme.Inside rest := by
        refine h.imp_right fun hinside => ?_
        cases hinside with
        | plain _ _ hrest => exact hrest
        | escaped => exact absurd rfl hc
      rw [unescapeOr, ih hrest]
      all_goals simp_all

/-! ## The reading of a literal -/

theorem Splits.number_length_le {text digits : List Char} {pieces : List Piece}
    (h : Splits text pieces) (hmem : Piece.number digits ∈ pieces) : digits.length ≤ 2 := by
  induction h with
  | nil => cases hmem
  | plain _ _ ih | letter _ _ ih | kept _ _ _ ih => exact ih (by simpa using hmem)
  | number _ hcount _ _ ih =>
    rcases List.mem_cons.1 hmem with hpiece | hmem
    · cases hpiece
      exact hcount
    · exact ih hmem

/-- None of some pieces lacks a digit just when each of their numbers has two. -/
theorem Splits.complete_iff {text : List Char} {pieces front : List Piece} (h : Splits text pieces)
    (hfront : ∀ piece ∈ front, piece ∈ pieces) :
    (∀ piece ∈ front, piece.isDeficient = false) ↔
      ∀ digits, .number digits ∈ front → digits.length = 2 := by
  constructor
  · intro hall digits hmem
    have hless := of_decide_eq_false (hall _ hmem)
    have hle := h.number_length_le (hfront _ hmem)
    omega
  · intro hall piece hmem
    cases piece with
    | number digits =>
      have hcount := hall digits hmem
      exact decide_eq_false (by omega)
    | plain | letter | kept => rfl

theorem unescape_eq_ok_iff {text value : List Char} {pieces : List Piece} (h : Splits text pieces) :
    unescape text = .ok value ↔
      (∀ piece ∈ pieces, piece.isDeficient = false) ∧ value = pieces.flatMap Piece.value := by
  rw [unescape_of_splits h]
  cases hfind : pieces.find? Piece.isDeficient with
  | none =>
    have hall : ∀ piece ∈ pieces, piece.isDeficient = false := by
      simpa using List.find?_eq_none.1 hfind
    exact ⟨fun hok => ⟨hall, (Except.ok.inj hok).symm⟩, fun hok => by rw [hok.2]⟩
  | some piece =>
    refine ⟨fun hok => absurd hok (by simp), fun hok => ?_⟩
    have hdeficient := List.find?_some hfind
    rw [hok.1 piece (List.mem_of_find?_eq_some hfind)] at hdeficient
    cases hdeficient

theorem unescape_eq_error_iff {text sequence : List Char} {pieces : List Piece}
    (h : Splits text pieces) :
    unescape text = .error sequence ↔ ∃ front piece back, pieces = front ++ piece :: back ∧
      piece.isDeficient ∧ (∀ other ∈ front, other.isDeficient = false) ∧
      sequence = piece.text := by
  have hfirst : unescape text = .error sequence ↔
      ∃ piece, pieces.find? Piece.isDeficient = some piece ∧ sequence = piece.text := by
    rw [unescape_of_splits h]
    cases pieces.find? Piece.isDeficient <;> simp [eq_comm]
  rw [hfirst]
  constructor
  · rintro ⟨piece, hfind, hsequence⟩
    obtain ⟨hdeficient, front, back, hpieces, hfront⟩ := List.find?_eq_some_iff_append.1 hfind
    exact ⟨front, piece, back, hpieces, hdeficient, by simpa using hfront, hsequence⟩
  · rintro ⟨front, piece, back, hpieces, hdeficient, hfront, hsequence⟩
    have hothers : ∀ other ∈ front, !other.isDeficient := by simpa using hfront
    exact ⟨piece, List.find?_eq_some_iff_append.2 ⟨hdeficient, front, back, hpieces, hothers⟩,
      hsequence⟩

/-- Between its quotes a literal falls into pieces in one way.  It denotes what they denote one
behind the other, if each of its numbers has two digits.  If not, the first number that lacks a
digit is at fault, and a text with this literal in front fails for it.  In neither case does it
matter what a backslash at the end would stand for. -/
theorem unescape_exactly {text body : List Char}
    (h : Lexeme.stringTail? text = some (body ++ ['"'])) :
    ∃ pieces, Splits body pieces ∧ (∀ others, Splits body others → others = pieces) ∧
      pieces.flatMap Piece.text = body ∧
      (∀ value, unescape body = .ok value ↔
        (∀ digits, .number digits ∈ pieces → digits.length = 2) ∧
          value = pieces.flatMap Piece.value) ∧
      (∀ sequence, unescape body = .error sequence ↔
        ∃ (front back : List Piece) (digits : List Char),
          pieces = front ++ .number digits :: back ∧ digits.length < 2 ∧
            (∀ others, .number others ∈ front → others.length = 2) ∧
            sequence = '\\' :: 'x' :: digits) ∧
      (∀ sequence file offset, unescape body = .error sequence →
        Token.ofText file offset ('"' :: text) =
          .error ⟨.invalidEscape (String.ofList sequence), .ofNat file offset⟩) ∧
      ∀ lone, unescapeOr lone body = unescape body := by
  obtain ⟨inside, behind, htail, htext, hinside⟩ := Lexeme.exists_inside h
  obtain rfl := List.append_cancel_right htail
  obtain ⟨pieces, hsplits⟩ := exists_splits hinside
  refine ⟨pieces, hsplits, fun _ hothers => hsplits.unique hothers, hsplits.flatMap_text,
    fun value => ?_, fun sequence => ?_, fun sequence file offset hbad => ?_,
    fun _ => unescapeOr_eq (.inr hinside)⟩
  · rw [unescape_eq_ok_iff hsplits, hsplits.complete_iff fun _ => id]
  · rw [unescape_eq_error_iff hsplits]
    constructor
    · rintro ⟨front, piece, back, hpieces, hdeficient, hfront, hsequence⟩
      have hmem : ∀ other ∈ front, other ∈ pieces := fun other hother => by simp [hpieces, hother]
      rw [hsplits.complete_iff hmem] at hfront
      cases piece with
      | number digits =>
        exact ⟨front, back, digits, hpieces, of_decide_eq_true hdeficient, hfront, hsequence⟩
      | plain | letter | kept => cases hdeficient
    · rintro ⟨front, back, digits, hpieces, hless, hfront, hsequence⟩
      have hmem : ∀ other ∈ front, other ∈ pieces := fun other hother => by simp [hpieces, hother]
      rw [← hsplits.complete_iff hmem] at hfront
      exact ⟨front, .number digits, back, hpieces, decide_eq_true hless, hfront, hsequence⟩
  · have hnext : Lexeme.next? '"' text =
        some ⟨body ++ ['"'], .badEscape (String.ofList sequence)⟩ := by
      rw [Lexeme.next?_quote, h, Option.map_some, Lexeme.stringContent, List.dropLast_concat, hbad]
    rw [Token.ofText, hnext]

/-- An escaped backslash leaves the `x` behind it alone, and a number with two digits leaves the
letter behind it alone.  Behind these another number with two digits is read, and one that finds
one digit only is at fault. -/
theorem unescape_exactly_deficient : ∃ (front : List Char) (pieces : List Piece),
    front = ['\\', '\\', 'x', '\\', 'x', '4', '1', 'f', '\\', 'q'] ∧
      pieces = [.letter '\\' '\\', .plain 'x', .number ['4', '1'], .plain 'f', .kept 'q'] ∧
      Lexeme.stringTail? (front ++ ['\\', 'x', 'E', '9'] ++ ['"', ' ', 'z']) =
        some (front ++ ['\\', 'x', 'E', '9'] ++ ['"']) ∧
      Splits (front ++ ['\\', 'x', 'E', '9']) (pieces ++ [.number ['E', '9']]) ∧
      unescape (front ++ ['\\', 'x', 'E', '9']) = .ok ['\\', 'x', 'A', 'f', '\\', 'q', 'é'] ∧
      Lexeme.stringTail? (front ++ ['\\', 'x', '4', 'g'] ++ ['"', ' ', 'z']) =
        some (front ++ ['\\', 'x', '4', 'g'] ++ ['"']) ∧
      Splits (front ++ ['\\', 'x', '4', 'g']) (pieces ++ [.number ['4'], .plain 'g']) ∧
      unescape (front ++ ['\\', 'x', '4', 'g']) = .error ['\\', 'x', '4'] ∧
      Token.ofText "" 3 ('"' :: (front ++ ['\\', 'x', '4', 'g'] ++ ['"', ' ', 'z'])) =
        .error ⟨.invalidEscape "\\x4", .ofNat "" 3⟩ := by
  have htwo (high low : Char) {rest : List Char} {pieces : List Piece} (hhigh : high ∈ hexDigits)
      (hlow : low ∈ hexDigits) (h : Splits rest pieces) :
      Splits ('\\' :: 'x' :: high :: low :: rest) (.number [high, low] :: pieces) :=
    .number (List.forall_mem_cons.2 ⟨hhigh, List.forall_mem_singleton.2 hlow⟩) (Nat.le_refl 2)
      (fun hless => absurd hless (Nat.lt_irrefl 2)) h
  have hlast : Splits ['\\', 'x', '4', 'g'] [.number ['4'], .plain 'g'] := by
    have hstop : ∀ d ∈ ['g'].head?, d ∉ hexDigits := by simp; decide
    exact .number (List.forall_mem_singleton.2 (by decide)) (by decide) (fun _ => hstop)
      (.plain (by decide) .nil)
  obtain ⟨front, hname⟩ : ∃ front : List Char,
    front = ['\\', '\\', 'x', '\\', 'x', '4', '1', 'f', '\\', 'q'] := ⟨_, rfl⟩
  have hfront {rest : List Char} {pieces : List Piece} (h : Splits rest pieces) :
      Splits (front ++ rest)
        ([.letter '\\' '\\', .plain 'x', .number ['4', '1'], .plain 'f', .kept 'q'] ++ pieces) := by
    rw [hname]
    exact .letter (by decide) (.plain (by decide) (htwo '4' '1' (by decide) (by decide)
      (.plain (by decide) (.kept (by decide) (letter?_eq_none_iff.1 rfl) h))))
  have hcomplete := hfront (htwo 'E' '9' (by decide) (by decide) .nil)
  have hlacking := hfront hlast
  have htail : Lexeme.stringTail? (front ++ ['\\', 'x', 'E', '9'] ++ ['"', ' ', 'z']) =
      some (front ++ ['\\', 'x', 'E', '9'] ++ ['"']) := by rw [hname]; decide
  have htail' : Lexeme.stringTail? (front ++ ['\\', 'x', '4', 'g'] ++ ['"', ' ', 'z']) =
      some (front ++ ['\\', 'x', '4', 'g'] ++ ['"']) := by rw [hname]; decide
  refine ⟨front, _, hname, rfl, htail, hcomplete, ?_, htail', hlacking, ?_⟩
  · obtain ⟨pieces, _, hunique, _, hok, _⟩ := unescape_exactly htail
    obtain rfl := hunique _ hcomplete
    exact (hok _).2 ⟨by simp, by decide⟩
  · obtain ⟨pieces, _, hunique, _, _, herror, hfails, _⟩ := unescape_exactly htail'
    obtain rfl := hunique _ hlacking
    have hbad := (herror ['\\', 'x', '4']).2 ⟨[.letter '\\' '\\', .plain 'x', .number ['4', '1'],
      .plain 'f', .kept 'q'], [.plain 'g'], ['4'], rfl, by decide, by simp, rfl⟩
    exact ⟨hbad, hfails _ "" 3 hbad⟩

end Escape

end Scriptlet
