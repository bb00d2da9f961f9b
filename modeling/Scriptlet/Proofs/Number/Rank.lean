import Mathlib.Algebra.Order.Ring.Nat
import Mathlib.Tactic.NormNum
import Mathlib.Tactic.Ring
import Scriptlet.Number.Written

/-!
# Ranks of decimals

The rank nearest to a decimal depends on its value only, so a zero can be moved
from the end of the coefficient into the exponent (`rank_mul_ten`).  Every
magnitude is the nearest one to its exact decimal (`rank_exact`), and so to the
shortest decimal that was found for it (`rank_decimal`).
-/

namespace Scriptlet

/-! ## Quotients of units -/

theorem roundQuotient_mul_right (num den : Nat) {k : Nat} (hk : 0 < k) :
    roundQuotient (num * k) (den * k) = roundQuotient num den := by
  have hmod : 2 * (num * k % (den * k)) = 2 * (num % den) * k := by
    rw [Nat.mul_mod_mul_right, Nat.mul_assoc]
  simp only [roundQuotient, Nat.mul_div_mul_right _ _ hk, hmod, Nat.mul_lt_mul_right hk]

theorem roundQuotient_mul_self (whole : Nat) {den : Nat} (hden : 0 < den) :
    roundQuotient (whole * den) den = whole := by
  simp only [roundQuotient, Nat.mul_div_cancel _ hden, Nat.mul_mod_left, Nat.mul_zero, hden,
    if_true]

/-! ## Powers

The definitions name the power function of the natural numbers.  The lemmas of the
library speak of `^`. -/

theorem natPow_eq (base exponent : Nat) : Nat.pow base exponent = base ^ exponent := rfl

theorem Double.units_eq (rank : Nat) : units rank =
    if rank < 2 ^ 52 then rank
    else (2 ^ 52 + rank % 2 ^ 52) * 2 ^ (rank / 2 ^ 52 - 1) := by
  simp only [units, natPow_eq]

theorem Shortest.exact_eq (rank : Nat) : exact rank = ⟨Double.units rank * 5 ^ 1074, -1074⟩ := by
  rw [exact, natPow_eq]

namespace Decimal

theorem nearestRank_eq (num den : Nat) : nearestRank num den =
    (Nat.log2 (num / den) - 52) * 2 ^ 52 +
      roundQuotient num (den * 2 ^ (Nat.log2 (num / den) - 52)) := by
  simp only [nearestRank, natPow_eq]

theorem num_eq (d : Decimal) : d.num = d.coefficient * 2 ^ 1074 * 10 ^ d.exponent.toNat := by
  rw [num, natPow_eq, natPow_eq]

theorem den_eq (d : Decimal) : d.den = 10 ^ (-d.exponent).toNat := by
  rw [den, natPow_eq]

/-! ## Ranks of quotients -/

theorem nearestRank_mul_right (num den : Nat) {k : Nat} (hk : 0 < k) :
    nearestRank (num * k) (den * k) = nearestRank num den := by
  have hscaled (s : Nat) : den * k * 2 ^ s = den * 2 ^ s * k := Nat.mul_right_comm den k (2 ^ s)
  simp only [nearestRank_eq, Nat.mul_div_mul_right _ _ hk, hscaled, roundQuotient_mul_right _ _ hk]

theorem nearestRank_places (units places : Nat) :
    nearestRank (units * 5 ^ places * 2 ^ places) (10 ^ places) = nearestRank units 1 := by
  have hten : 0 < (5 * 2) ^ places := Nat.pow_pos (by decide)
  have hscaled := nearestRank_mul_right units 1 hten
  rw [Nat.one_mul, Nat.mul_pow, ← Nat.mul_assoc, ← Nat.mul_pow] at hscaled
  exact hscaled

/-- The magnitude of a rank is nearest to itself. -/
theorem nearestRank_units (rank : Nat) : nearestRank (Double.units rank) 1 = rank := by
  rw [nearestRank_eq, Nat.div_one, Nat.one_mul, Double.units_eq]
  split
  next hsmall =>
    have hshift : Nat.log2 rank - 52 = 0 := by
      rcases Nat.eq_zero_or_pos rank with rfl | hpos
      · rfl
      · have hlog := (Nat.log2_lt (Nat.ne_of_gt hpos)).2 hsmall
        omega
    have hround := roundQuotient_mul_self rank Nat.one_pos
    rw [Nat.mul_one] at hround
    rw [hshift, Nat.zero_mul, Nat.zero_add, Nat.pow_zero, hround]
  next hlarge =>
    -- The first of the 53 bits that are kept stands at place `52 + step`.
    have hlead : rank % 2 ^ 52 < 2 ^ 52 := Nat.mod_lt _ (by decide)
    have hlog (step : Nat) : Nat.log2 ((2 ^ 52 + rank % 2 ^ 52) * 2 ^ step) = 52 + step := by
      rw [Nat.log2_eq_iff (Nat.mul_ne_zero (by omega) (Nat.ne_of_gt (Nat.two_pow_pos step)))]
      constructor
      · rw [Nat.pow_add]
        exact Nat.mul_le_mul_right _ (Nat.le_add_right _ _)
      · rw [Nat.add_right_comm, Nat.pow_add]
        exact Nat.mul_lt_mul_of_pos_right (by omega) (Nat.two_pow_pos step)
    rw [hlog, Nat.add_sub_cancel_left, roundQuotient_mul_self _ (Nat.two_pow_pos _)]
    omega

/-! ## Moving zeros into the exponent -/

theorem digitCount_le_iff {n count : Nat} (hcount : 0 < count) :
    digitCount n ≤ count ↔ n < 10 ^ count :=
  Nat.length_toDigits_le_iff (by decide) hcount

theorem digitCount_mul_ten {n : Nat} (hn : 0 < n) : digitCount (n * 10) = digitCount n + 1 := by
  have happend := Nat.toDigits_append_toDigits (b := 10) (n := n) (d := 0) (by decide) hn
    (by decide)
  rw [Nat.add_zero, Nat.mul_comm] at happend
  rw [digitCount, ← happend, List.length_append]
  rfl

theorem nearestRank_mul_ten (n unit : Nat) (exponent : Int) :
    nearestRank (n * 10 * unit * 10 ^ exponent.toNat) (10 ^ (-exponent).toNat) =
      nearestRank (n * unit * 10 ^ (exponent + 1).toNat) (10 ^ (-(exponent + 1)).toNat) := by
  rcases Int.lt_or_le exponent 0 with hneg | hpos
  · have hnum : n * 10 * unit * 10 ^ exponent.toNat =
        n * unit * 10 ^ (exponent + 1).toNat * 10 := by
      rw [Int.toNat_of_nonpos (by omega), Int.toNat_of_nonpos (by omega)]
      ring
    have hden : 10 ^ (-exponent).toNat = 10 ^ (-(exponent + 1)).toNat * 10 := by
      rw [← Nat.pow_succ]
      congr 1
      omega
    rw [hnum, hden, nearestRank_mul_right _ _ (by decide)]
  · have hnum : n * 10 * unit * 10 ^ exponent.toNat = n * unit * 10 ^ (exponent + 1).toNat := by
      rw [Int.toNat_add hpos (by decide), Nat.pow_add, Int.toNat_one, Nat.pow_one]
      ring
    have hden : (-exponent).toNat = (-(exponent + 1)).toNat := by omega
    rw [hnum, hden]

/-- A zero at the end of the coefficient counts as one in the exponent. -/
theorem rank_mul_ten {n : Nat} (hn : 0 < n) (exponent : Int) :
    rank ⟨n * 10, exponent⟩ = rank ⟨n, exponent + 1⟩ := by
  have hzero : n * 10 = 0 ↔ n = 0 := by omega
  have hsize : ((digitCount (n * 10) : Nat) : Int) + exponent = digitCount n + (exponent + 1) := by
    rw [digitCount_mul_ten hn]
    omega
  simp only [rank, num_eq, den_eq, hzero, hsize, nearestRank_mul_ten]

theorem rank_zero (exponent : Int) : rank ⟨0, exponent⟩ = 0 := by
  rw [rank, if_pos (.inl rfl)]

theorem rank_mul_pow_ten (n count : Nat) :
    rank ⟨n * 10 ^ count, 0⟩ = rank ⟨n, count⟩ := by
  rcases Nat.eq_zero_or_pos n with rfl | hn
  · rw [Nat.zero_mul, rank_zero, rank_zero]
  · induction count generalizing n with
    | zero => rw [Nat.pow_zero, Nat.mul_one, Int.natCast_zero]
    | succ count ih =>
      rw [Nat.pow_succ, Nat.mul_comm (10 ^ count), ← Nat.mul_assoc,
        ih (n * 10) (Nat.mul_pos hn (by decide)), rank_mul_ten hn, Int.natCast_succ]

theorem rank_trimmed (d : Decimal) : d.trimmed.rank = d.rank := by
  fun_induction trimmed d with
  | case1 d h ih =>
    have hcoefficient : d.coefficient = d.coefficient / 10 * 10 := by omega
    rw [ih, ← rank_mul_ten (by omega), ← hcoefficient]
  | case2 d h => rfl

end Decimal

namespace Shortest

open Decimal

/-! ## The exact decimal -/

theorem units_pos {rank : Nat} (hpos : 0 < rank) : 1 ≤ Double.units rank := by
  rw [Double.units_eq]
  split
  next => exact hpos
  next => exact Nat.mul_pos (by omega) (Nat.two_pow_pos _)

theorem units_lt (rank : Nat) : Double.units rank < 2 ^ (53 + (rank / 2 ^ 52 - 1)) := by
  rw [Double.units_eq, Nat.pow_add]
  split
  next hsmall => exact Nat.lt_of_lt_of_le (by omega) (Nat.le_mul_of_pos_right _ (Nat.two_pow_pos _))
  next => exact Nat.mul_lt_mul_of_pos_right (by omega) (Nat.two_pow_pos _)

theorem digitCount_mul_bounds {units most factor : Nat} (hlow : 1 ≤ units) (hhigh : units < most)
    (hleast : 10 ^ 750 ≤ factor) (hgreatest : most * factor < 10 ^ 1383) :
    750 < digitCount (units * factor) ∧ digitCount (units * factor) ≤ 1383 := by
  constructor
  · rw [← Nat.not_le, digitCount_le_iff (by decide), Nat.not_lt]
    exact Nat.le_trans hleast (Nat.le_mul_of_pos_left factor hlow)
  · rw [digitCount_le_iff (by decide)]
    exact Nat.lt_of_le_of_lt (Nat.mul_le_mul_right factor (Nat.le_of_lt hhigh)) hgreatest

/-- The size of an exact decimal is one that is worked out by rounding. -/
theorem digitCount_exact {rank : Nat} (hpos : 0 < rank) (hrank : rank < finiteCount) :
    750 < digitCount (exact rank).coefficient ∧ digitCount (exact rank).coefficient ≤ 1383 := by
  rw [finiteCount] at hrank
  have hsteps : 53 + (rank / 2 ^ 52 - 1) ≤ 2098 := by omega
  have hhigh := Nat.lt_of_lt_of_le (units_lt rank) (Nat.pow_le_pow_right Nat.two_pos hsteps)
  rw [exact_eq]
  exact digitCount_mul_bounds (units_pos hpos) hhigh (by decide +kernel) (by decide +kernel)

/-- A magnitude is nearest to its exact decimal. -/
theorem rank_exact {rank : Nat} (hpos : 0 < rank) (hrank : rank < finiteCount) :
    (exact rank).rank = rank := by
  obtain ⟨hlow, hhigh⟩ := digitCount_exact hpos hrank
  have hcoefficient : (exact rank).coefficient ≠ 0 := by
    intro hzero
    rw [hzero] at hlow
    exact absurd hlow (by decide)
  have hexponent : (exact rank).exponent = -1074 := rfl
  have hnone : ¬((exact rank).coefficient = 0 ∨
      ((digitCount (exact rank).coefficient : Nat) : Int) + (exact rank).exponent ≤ -324) := by
    rw [hexponent]
    omega
  have htoNat : Int.toNat (-1074) = 0 := rfl
  have htoNat' : Int.toNat (- -1074) = 1074 := rfl
  rw [Decimal.rank, if_neg hnone, if_neg (by rw [hexponent]; omega)]
  simp only [num_eq, den_eq, exact_eq, htoNat, htoNat', Nat.pow_zero, Nat.mul_one,
    nearestRank_places, nearestRank_units]

/-! ## The shortest decimal -/

/-- A decimal found on a grid reads back. -/
theorem rank_of_onGrid? {rank : Nat} {exponent : Int} {d : Decimal}
    (h : onGrid? rank exponent = some d) : d.rank = rank := by
  simp only [onGrid?] at h
  split at h
  next hbelow =>
    split at h
    next habove =>
      cases h
      exact habove.1
    next =>
      cases h
      exact hbelow
  next =>
    split at h
    next habove =>
      cases h
      exact habove
    next => cases h

/-- The shortest decimal of a magnitude reads back. -/
theorem rank_decimal {rank : Nat} (hpos : 0 < rank) (hrank : rank < finiteCount) :
    (decimal rank).rank = rank := by
  rw [decimal, rank_trimmed]
  generalize hfound : (List.range 17).findSome? (fun more : Nat =>
    onGrid? rank (leadingExponent rank - more)) = found
  cases found with
  | none => exact rank_exact hpos hrank
  | some d =>
    obtain ⟨more, _, hgrid⟩ := List.exists_of_findSome?_eq_some hfound
    exact rank_of_onGrid? hgrid

end Shortest

end Scriptlet
