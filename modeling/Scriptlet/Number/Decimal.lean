import Scriptlet.Number.Double

/-!
# Decimals and numerals

A decimal is a natural number times a power of ten.  Its nearest double is
found in exact arithmetic: the decimal is a quotient of natural numbers once it
is counted in units of `2 ^ (-1074)`, the quotient is scaled until 53 bits are
left of it, and what remains is rounded to the nearest integer.  Of two equally
near integers the even one is taken.

A magnitude that rounds past the last finite one is infinite.

Numerals are the texts that denote a double: an optional sign, then either a
name of infinity or not-a-number in any letter case, or digits with at most one
point among them and an optional power of ten.  A point needs a digit on one
side only.  Nothing may stand around or between, no blank and no separator.
-/

namespace Scriptlet

/-- A natural number times a power of ten. -/
structure Decimal where
  /-- The natural number. -/
  coefficient : Nat
  /-- The exponent of ten. -/
  exponent : Int
  deriving DecidableEq, Repr

/-! ## Rounding quotients -/

/-- The natural number nearest to a quotient, the even one of two. -/
def roundQuotient (num den : Nat) : Nat :=
  let whole := num / den
  let twice := 2 * (num % den)
  if twice < den then whole
  else if den < twice then whole + 1
  else whole + whole % 2

/-- A rounded quotient is off by at most half. -/
theorem roundQuotient_near (num den : Nat) (h : 0 < den) :
    2 * num ≤ 2 * roundQuotient num den * den + den ∧
      2 * roundQuotient num den * den ≤ 2 * num + den := by
  have hdiv := Nat.div_add_mod num den
  have hmod := Nat.mod_lt num h
  have hcomm : den * (num / den) = num / den * den := Nat.mul_comm ..
  simp only [roundQuotient]
  split
  · constructor <;> grind
  · split
    · constructor <;> grind
    · have : num / den % 2 = 0 ∨ num / den % 2 = 1 := by omega
      rcases this with h2 | h2 <;> rw [h2] <;> constructor <;> grind

namespace Decimal

/-- The number of decimal digits of a natural number. -/
def digitCount (n : Nat) : Nat := (Nat.toDigits 10 n).length

/-- The rank nearest to a quotient of units.  It is `finiteCount` or more when
the quotient rounds to infinity. -/
def nearestRank (num den : Nat) : Nat :=
  let shift := Nat.log2 (num / den) - 52
  shift * Nat.pow 2 52 + roundQuotient num (den * Nat.pow 2 shift)

/-- The numerator of a decimal counted in units of `2 ^ (-1074)`. -/
def num (d : Decimal) : Nat := d.coefficient * Nat.pow 2 1074 * Nat.pow 10 d.exponent.toNat

/-- The denominator of a decimal counted in units of `2 ^ (-1074)`. -/
def den (d : Decimal) : Nat := Nat.pow 10 (-d.exponent).toNat

/-- The rank nearest to a decimal.  What is below `10 ^ (-324)` is nearest to
zero and what is at least `10 ^ 309` to infinity, so the powers of ten stay
small whatever the exponent. -/
def rank (d : Decimal) : Nat :=
  let size := digitCount d.coefficient + d.exponent
  if d.coefficient = 0 ∨ size ≤ -324 then 0
  else if 310 ≤ size then finiteCount
  else nearestRank d.num d.den

/-- The double nearest to a decimal, with a sign. -/
def toDouble (negative : Bool) (d : Decimal) : Double :=
  if h : d.rank < finiteCount then .finite negative ⟨d.rank, h⟩ else .infinite negative

/-- A decimal of the same value whose coefficient has no zero at its end. -/
def trimmed (d : Decimal) : Decimal :=
  if _h : d.coefficient ≠ 0 ∧ d.coefficient % 10 = 0 then
    trimmed ⟨d.coefficient / 10, d.exponent + 1⟩
  else d
termination_by d.coefficient
decreasing_by omega

end Decimal

/-! ## Numerals -/

namespace Numeral

/-- The value of a run of digits. -/
def digitsValue (digits : List Char) : Nat := Nat.ofDigitChars 10 digits 0

/-- A number without point, with an optional sign, as it stands in a power of
ten. -/
def power? : List Char → Option Int
  | '-' :: digits => (unsigned? digits).map (-·)
  | '+' :: digits => unsigned? digits
  | digits => unsigned? digits
where
  /-- One digit or more. -/
  unsigned? (digits : List Char) : Option Int :=
    if digits ≠ [] ∧ digits.all Char.isDigit then some (digitsValue digits) else none

/-- What may follow the digits: nothing, or a power of ten. -/
def exponent? : List Char → Option Int
  | [] => some 0
  | 'e' :: power => power? power
  | 'E' :: power => power? power
  | _ => none

/-- The digits after a point, if a point comes next, and what follows them. -/
def fraction : List Char → List Char × List Char
  | '.' :: rest => rest.span Char.isDigit
  | rest => ([], rest)

/-- The decimal a text without sign denotes. -/
def decimal? (text : List Char) : Option Decimal :=
  let (whole, rest) := text.span Char.isDigit
  let (parts, rest) := fraction rest
  if whole ++ parts = [] then none
  else (exponent? rest).map fun exponent =>
    ⟨digitsValue (whole ++ parts), exponent - parts.length⟩

/-- The double a text after its sign denotes. -/
def magnitude? (negative : Bool) (text : List Char) : Option Double :=
  match decimal? text with
  | some decimal => some (decimal.toDouble negative)
  | none =>
      let word := text.map Char.toLower
      if word = ['i', 'n', 'f'] ∨ word = ['i', 'n', 'f', 'i', 'n', 'i', 't', 'y'] then
        some (.infinite negative)
      else if word = ['n', 'a', 'n'] then some .nan
      else none

/-- The double a text denotes. -/
def read? : List Char → Option Double
  | '-' :: text => magnitude? true text
  | '+' :: text => magnitude? false text
  | text => magnitude? false text

end Numeral

end Scriptlet
