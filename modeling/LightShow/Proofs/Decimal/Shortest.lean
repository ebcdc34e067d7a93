import LightShow.Decimal.Shortest
import LightShow.Proofs.Decimal.Rounding

namespace LightShow.Decimal

/-!
# The shortest decimal of a number reads back

* `toMagnitude_stripped` — moving zeros into the exponent does not change what a decimal reads as;
* `toMagnitude_shortest` — the decimal that is written for a finite number reads as that number.

Nothing is said here about how short the decimal is. Whatever the search over the grids finds has
been read back, and the exact decimal stands behind the search.
-/

/-- A number is divisible by the power of ten of the zeros at its end. -/
theorem ten_pow_zeros_dvd (n : Nat) :
    10 ^ ((reversedDigits n).takeWhile (· == 0)).length ∣ n := by
  fun_induction reversedDigits n with
  | case1 n hsmall =>
    by_cases hzero : n = 0
    · exact hzero ▸ Nat.dvd_zero _
    · have hdigit : (lastDigit n == 0) = false := by
        simp only [lastDigit, beq_eq_false_iff_ne, ne_eq, Fin.ext_iff, Fin.val_zero]
        omega
      rw [List.takeWhile_cons, hdigit]
      exact Nat.one_dvd n
  | case2 n hlarge ih =>
    -- a zero at the end is one factor of ten more
    by_cases hdigit : (lastDigit n == 0) = true
    · have hlow : n % 10 = 0 := by
        simpa only [lastDigit, beq_iff_eq, Fin.ext_iff, Fin.val_zero] using hdigit
      have hwhole : n = n / 10 * 10 := by omega
      rw [List.takeWhile_cons, if_pos hdigit, List.length_cons, Nat.pow_succ]
      conv => rhs; rw [hwhole]
      exact Nat.mul_dvd_mul_right ih 10
    · rw [List.takeWhile_cons, if_neg hdigit]
      exact Nat.one_dvd n

/-- A decimal without its trailing zeros reads as before. -/
theorem toMagnitude_stripped (d : Decimal) : d.stripped.toMagnitude = d.toMagnitude := by
  unfold stripped
  split
  · next hzero =>
    unfold toMagnitude
    rw [hzero, Double.nearestDecimal, if_pos rfl, Double.nearestDecimal, if_pos rfl]
  · -- the zeros that are cut off come back as a power of ten
    generalize hzeros : ((reversedDigits d.coefficient).takeWhile (· == 0)).length = zeros
    have hdvd : Nat.pow 10 zeros ∣ d.coefficient := hzeros ▸ ten_pow_zeros_dvd d.coefficient
    show Double.nearestDecimal (d.coefficient / Nat.pow 10 zeros) (d.exponent + zeros)
      = Double.nearestDecimal d.coefficient d.exponent
    rw [← Double.nearestDecimal_mul_pow, Nat.div_mul_cancel hdvd]

/-- The exact decimal reads back. -/
theorem toMagnitude_exact {m : Nat} (hm : m < Double.infinity) : (exact m).toMagnitude = m := by
  unfold toMagnitude exact
  dsimp only
  exact Double.nearestDecimal_units hm

/-- What is found on a grid reads back. -/
theorem toMagnitude_of_onGrid? {m : Nat} {place : Int} {d : Decimal}
    (h : onGrid? m place = some d) : d.toMagnitude = m := by
  unfold onGrid? at h
  have hread := List.find?_some h
  exact beq_iff_eq.mp hread

/-- **Read back.** The shortest decimal of a finite magnitude reads as that magnitude. -/
theorem toMagnitude_shortest {m : Nat} (hm : m < Double.infinity) :
    (shortest m).toMagnitude = m := by
  unfold shortest
  rw [toMagnitude_stripped]
  -- what the search finds has been read back; else the exact decimal is taken
  cases hfound : ((List.range 20).map fun i : Nat => topPlace m - i).findSome? (onGrid? m) with
  | none => exact toMagnitude_exact hm
  | some d =>
    obtain ⟨place, _, hplace⟩ := List.exists_of_findSome?_eq_some hfound
    exact toMagnitude_of_onGrid? hplace

end LightShow.Decimal
