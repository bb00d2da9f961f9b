import Scriptlet.Number.Decimal

/-!
# Written numbers

Of the decimals whose nearest double is a given one, the *shortest* has the
fewest digits, and of those it is the nearest.  The search tries one digit,
then two, and so on.  With a fixed count of digits only the two decimals around
the exact value can be nearest to it, `below` and the next one up.  If both
read back and are equally near, the upper one is taken.

Seventeen digits always suffice.  The exact decimal stands behind the search,
so that a decimal that reads back is found without knowing that.

A finite number is written with its shortest decimal, either positionally or
with a power of ten.  Where it is written decides which: in a program there are
only digits and a point, in an outline long rows of zeros give way to a power
of ten, and a whole number is marked by a zero after the point.
-/

namespace Scriptlet

/-! ## Shortest decimals -/

namespace Shortest

/-- The exponent of the leading digit of a magnitude.  The factor `10 ^ 324`
makes the smallest magnitude exceed one. -/
def leadingExponent (rank : Nat) : Int :=
  Decimal.digitCount (Double.units rank * Nat.pow 10 324 / Nat.pow 2 1074) - 325

/-- The exact value of a magnitude. -/
def exact (rank : Nat) : Decimal := ⟨Double.units rank * Nat.pow 5 1074, -1074⟩

/-- The shortest decimal on the grid of a given step that reads back, if one
does. -/
def onGrid? (rank : Nat) (exponent : Int) : Option Decimal :=
  let num := Double.units rank * Nat.pow 10 (-exponent).toNat
  let den := Nat.pow 2 1074 * Nat.pow 10 exponent.toNat
  let below : Decimal := ⟨num / den, exponent⟩
  let above : Decimal := ⟨num / den + 1, exponent⟩
  if below.rank = rank then
    if above.rank = rank ∧ den ≤ 2 * (num % den) then some above else some below
  else if above.rank = rank then some above
  else none

/-- The shortest decimal that reads back as a magnitude other than zero. -/
def decimal (rank : Nat) : Decimal :=
  let lead := leadingExponent rank
  let found := (List.range 17).findSome? fun (more : Nat) => onGrid? rank (lead - more)
  (found.getD (exact rank)).trimmed

end Shortest

/-! ## Numbers as text -/

/-- How a number is written. -/
structure NumberStyle where
  /-- Whether a whole number ends in `.0` when written positionally. -/
  marksWhole : Bool
  /-- The exponents of the leading digit, first and last, for which a number is
  written positionally.  Without bounds it always is. -/
  positional : Option (Int × Int)

namespace NumberStyle

/-- Numbers in a program. -/
def program : NumberStyle := ⟨false, none⟩

/-- Numbers in an outline. -/
def outline : NumberStyle := ⟨true, some (-4, 15)⟩

/-- Whether a number with a leading digit of some exponent is written
positionally. -/
def isPositional (style : NumberStyle) (lead : Int) : Bool :=
  match style.positional with
  | none => true
  | some (first, last) => first ≤ lead && lead ≤ last

end NumberStyle

namespace Decimal

/-- The exponent of the leading digit. -/
def leadingExponent (d : Decimal) : Int := d.exponent + digitCount d.coefficient - 1

/-- Digits with the point where it belongs, and zeros up to it. -/
def positional (style : NumberStyle) (d : Decimal) : List Char :=
  let digits := Nat.toDigits 10 d.coefficient
  if 0 ≤ d.exponent then
    digits ++ List.replicate d.exponent.toNat '0' ++ if style.marksWhole then ['.', '0'] else []
  else
    let places := (-d.exponent).toNat
    let padded := List.replicate (places + 1 - digits.length) '0' ++ digits
    padded.take (padded.length - places) ++ '.' :: padded.drop (padded.length - places)

/-- The leading digit, the other digits behind a point, and a power of ten. -/
def scientific (d : Decimal) : List Char :=
  let mantissa := match Nat.toDigits 10 d.coefficient with
    | [] => []
    | [lead] => [lead]
    | lead :: others => lead :: '.' :: others
  mantissa ++ 'e' :: (toString d.leadingExponent).toList

/-- A decimal as text. -/
def written (style : NumberStyle) (d : Decimal) : List Char :=
  if style.isPositional d.leadingExponent then d.positional style else d.scientific

end Decimal

namespace Double

/-- The text of a sign. -/
def signText (negative : Bool) : List Char := if negative then ['-'] else []

/-- A double as text. -/
def written (style : NumberStyle) : Double → List Char
  | .nan => ['N', 'a', 'N']
  | .infinite negative => signText negative ++ ['i', 'n', 'f']
  | .finite negative rank =>
      signText negative ++
        if rank.val = 0 then Decimal.positional style ⟨0, 0⟩
        else (Shortest.decimal rank.val).written style

end Double

end Scriptlet
