/-!
# Doubles

A number of the language is a double: not a number, an infinity, or one of
finitely many finite values.  The finite magnitudes are counted from zero
upwards, and the place of a magnitude in that count is its *rank*.  The rank is
also its bit pattern in the usual 64-bit form, so the rank of infinity would be
`finiteCount`.

Every finite magnitude is a multiple of the smallest one, `2 ^ (-1074)`.
`units` says which multiple, so all arithmetic on magnitudes is on natural
numbers.
-/

namespace Scriptlet

/-- How many finite magnitudes there are. -/
def finiteCount : Nat := 0x7ff0000000000000

/-- A 64-bit binary floating-point number, without the payload of a
not-a-number. -/
inductive Double where
  /-- Not a number. -/
  | nan
  /-- An infinity. -/
  | infinite (negative : Bool)
  /-- A finite number by its sign and the rank of its magnitude. -/
  | finite (negative : Bool) (rank : Fin finiteCount)
  deriving DecidableEq, Repr

namespace Double

/-- The zero of a sign. -/
def zero (negative : Bool) : Double := .finite negative ⟨0, by decide⟩

/-- The magnitude of a rank as a multiple of `2 ^ (-1074)`.  Ranks below
`2 ^ 52` count single units, and every further `2 ^ 52` ranks double the step. -/
def units (rank : Nat) : Nat :=
  let binade := Nat.pow 2 52
  if rank < binade then rank
  else (binade + rank % binade) * Nat.pow 2 (rank / binade - 1)

/-- Equality of values: zeros of both signs are equal, and not-a-number equals
nothing, not even itself. -/
def sameValue : Double → Double → Bool
  | .infinite a, .infinite b => a == b
  | .finite a r, .finite b s => r == s && (a == b || r.val == 0)
  | _, _ => false

/-! ## Bit patterns -/

/-- The double of a 64-bit pattern. -/
def ofBits (bits : UInt64) : Double :=
  let negative := Nat.pow 2 63 ≤ bits.toNat
  let rank := bits.toNat % Nat.pow 2 63
  if h : rank < finiteCount then .finite negative ⟨rank, h⟩
  else if rank = finiteCount then .infinite negative
  else .nan

/-- The pattern of a sign. -/
def signBit (negative : Bool) : Nat := if negative then Nat.pow 2 63 else 0

/-- The 64-bit pattern of a double. -/
def toBits : Double → UInt64
  | .nan => 0x7ff8000000000000
  | .infinite negative => UInt64.ofNat (signBit negative + finiteCount)
  | .finite negative rank => UInt64.ofNat (signBit negative + rank.val)

/-- A double is read back from its pattern. -/
theorem ofBits_toBits (d : Double) : ofBits d.toBits = d := by
  cases d with
  | nan => decide
  | infinite negative => cases negative <;> decide
  | finite negative rank =>
    have hrank : rank.val < 0x7ff0000000000000 := rank.isLt
    have hbits : (UInt64.ofNat (signBit negative + rank.val)).toNat =
        signBit negative + rank.val := by
      cases negative <;> simp [signBit] <;> omega
    have hmod : (signBit negative + rank.val) % Nat.pow 2 63 = rank.val := by
      cases negative <;> simp [signBit] <;> omega
    have hsign : decide (Nat.pow 2 63 ≤ signBit negative + rank.val) = negative := by
      cases negative with
      | false => simp [signBit]; omega
      | true => simp [signBit]
    simp only [toBits, ofBits, hbits, hmod, hsign, rank.isLt, dif_pos]

end Double

end Scriptlet
