import LightShow.Double.Rounding
import Mathlib.Tactic.Positivity
import Mathlib.Tactic.Ring

namespace LightShow

/-!
# Rounding quotients and decimals

* `nearest_eq_of_ratio` — what is rounded is the value of a quotient and not its two numbers;
* `nearest_units` — the value of a finite magnitude is rounded to that magnitude;
* `nearestDecimal_eq` — a decimal of any exponent is rounded as the quotient that it stands for,
  also where powers of ten are not computed;
* `nearestDecimal_mul_pow` — zeros at the end of the coefficient can be moved into the exponent.
-/

/-! ### Rounding to an integer -/

theorem roundHalfEven_mul_right (num den : Nat) {k : Nat} (hk : 0 < k) :
    roundHalfEven (num * k) (den * k) = roundHalfEven num den := by
  have htwice : 2 * (num % den * k) = 2 * (num % den) * k := by ring
  unfold roundHalfEven
  simp only [Nat.mul_div_mul_right _ _ hk, Nat.mul_mod_mul_right, htwice,
    Nat.mul_lt_mul_right hk, Nat.mul_left_inj (Nat.ne_of_gt hk)]

theorem roundHalfEven_mul_self (n : Nat) {den : Nat} (hden : 0 < den) :
    roundHalfEven (n * den) den = n := by
  unfold roundHalfEven
  simp [Nat.mul_div_cancel _ hden, hden]

theorem div_le_roundHalfEven (num den : Nat) : num / den ≤ roundHalfEven num den := by
  unfold roundHalfEven
  dsimp only
  split <;> omega

theorem roundHalfEven_le (num den : Nat) : roundHalfEven num den ≤ num / den + 1 := by
  unfold roundHalfEven
  dsimp only
  split <;> omega

/-- Less than half rounds to zero. -/
theorem roundHalfEven_eq_zero {num den : Nat} (h : 2 * num < den) : roundHalfEven num den = 0 := by
  have hquotient : num / den = 0 := Nat.div_eq_of_lt (by omega)
  have hrest : num % den = num := Nat.mod_eq_of_lt (by omega)
  unfold roundHalfEven
  rw [hquotient, hrest]
  exact if_pos (.inl h)

namespace Double

/-! ### Rounding to a magnitude -/

/-- There are units in the number one. -/
theorem unit_pos : 0 < Nat.pow 2 unitBits := by
  generalize unitBits = bits
  exact Nat.two_pow_pos bits

theorem nearest_mul_right (num den : Nat) {k : Nat} (hk : 0 < k) :
    nearest (num * k) (den * k) = nearest num den := by
  have hscaled : num * k * Nat.pow 2 unitBits = num * Nat.pow 2 unitBits * k := by ring
  have hshifted : ∀ shift, den * k * Nat.pow 2 shift = den * Nat.pow 2 shift * k := by
    intro shift
    ring
  unfold nearest
  simp only [hscaled, hshifted, Nat.mul_div_mul_right _ _ hk, roundHalfEven_mul_right _ _ hk]

/-- Quotients of one value are rounded to one magnitude. -/
theorem nearest_eq_of_ratio {num den num' den' : Nat} (hden : 0 < den) (hden' : 0 < den')
    (h : num * den' = num' * den) : nearest num den = nearest num' den' :=
  calc nearest num den
      = nearest (num * den') (den * den') := (nearest_mul_right num den hden').symm
    _ = nearest (num' * den) (den' * den) := by rw [h, Nat.mul_comm den den']
    _ = nearest num' den' := nearest_mul_right num' den' hden

/-- The value of a magnitude has fifty-three bits above its exponent, if it has so many. -/
theorem log2_units_sub (m : Nat) : (units m).log2 - 52 = exponent m := by
  have hbinade : binade = 2 ^ 52 := rfl
  unfold units mantissa exponent
  rw [Nat.pow_eq]
  by_cases hm : m < binade
  · -- the numbers near zero
    rw [if_pos hm, Nat.div_eq_of_lt hm, Nat.pow_zero, Nat.mul_one]
    by_cases hzero : m = 0
    · rw [hzero]
      rfl
    · have := (Nat.log2_lt hzero).mpr (hbinade ▸ hm)
      omega
  · -- the leading one stands in front of fifty-two bits of fraction
    rw [if_neg hm]
    have hlt : m % binade < binade := Nat.mod_lt _ (by decide)
    have hlog : ((binade + m % binade) * 2 ^ (m / binade - 1)).log2 = 52 + (m / binade - 1) := by
      have hpower : 0 < 2 ^ (m / binade - 1) := Nat.two_pow_pos _
      have hne : (binade + m % binade) * 2 ^ (m / binade - 1) ≠ 0 :=
        Nat.ne_of_gt (Nat.mul_pos (by omega) hpower)
      rw [Nat.log2_eq_iff hne, Nat.add_right_comm, Nat.pow_add, Nat.pow_add, ← hbinade]
      constructor
      · exact Nat.mul_le_mul_right _ (Nat.le_add_right _ _)
      · exact Nat.mul_lt_mul_of_pos_right (by omega) hpower
    rw [hlog, Nat.add_sub_cancel_left]

/-- A magnitude is put together from its exponent and its mantissa. -/
theorem exponent_mul_add_mantissa (m : Nat) : exponent m * binade + mantissa m = m := by
  have hsplit := Nat.div_add_mod m binade
  have hbinade : 0 < binade := by decide
  unfold exponent mantissa
  split
  · next hm => rw [Nat.div_eq_of_lt hm, Nat.zero_sub, Nat.zero_mul, Nat.zero_add]
  · next hm =>
    have hquotient : 1 ≤ m / binade := (Nat.one_le_div_iff hbinade).mpr (Nat.le_of_not_lt hm)
    calc (m / binade - 1) * binade + (binade + m % binade)
        = (m / binade - 1 + 1) * binade + m % binade := by ring
      _ = binade * (m / binade) + m % binade := by rw [Nat.sub_add_cancel hquotient, Nat.mul_comm]
      _ = m := hsplit

/-- **Exactness.** The value of a magnitude is rounded to that magnitude. -/
theorem nearest_units (m : Nat) : nearest (units m) (Nat.pow 2 unitBits) = m := by
  have hshift : 0 < Nat.pow 2 unitBits * Nat.pow 2 (exponent m) :=
    Nat.mul_pos unit_pos (Nat.two_pow_pos (exponent m))
  have hvalue : units m * Nat.pow 2 unitBits
      = mantissa m * (Nat.pow 2 unitBits * Nat.pow 2 (exponent m)) := by
    unfold units
    rw [Nat.mul_assoc, Nat.mul_comm (Nat.pow 2 (exponent m))]
  unfold nearest
  dsimp only
  rw [Nat.mul_div_cancel _ unit_pos, log2_units_sub, hvalue, roundHalfEven_mul_self _ hshift,
    exponent_mul_add_mantissa]

/-- A quotient below half of the least positive number is rounded to zero. -/
theorem nearest_eq_zero {num den : Nat} (h : 2 * (num * Nat.pow 2 unitBits) < den) :
    nearest num den = 0 := by
  -- no bit of the quotient is left, so that nothing is shifted
  have hquotient : num * Nat.pow 2 unitBits / den = 0 := Nat.div_eq_of_lt (by omega)
  have hshift : (0 : Nat).log2 - 52 = 0 := rfl
  have hone : Nat.pow 2 0 = 1 := rfl
  unfold nearest
  dsimp only
  rw [hquotient, hshift, hone, Nat.mul_one, Nat.zero_mul, Nat.zero_add]
  exact roundHalfEven_eq_zero h

/-- At most fifty-three bits before the point are rounded to as many, or to the next power of
    two. -/
theorem roundHalfEven_le_binade {num den n : Nat} (h : (num / den).log2 ≤ 52 + n) :
    roundHalfEven num (den * Nat.pow 2 n) ≤ 2 * binade := by
  have hlog : num / den < 2 ^ ((num / den).log2 + 1) := Nat.lt_log2_self
  refine Nat.le_trans (roundHalfEven_le _ _) ?_
  rw [Nat.pow_eq, ← Nat.div_div_eq_div_mul, Nat.succ_le_iff,
    Nat.div_lt_iff_lt_mul (Nat.two_pow_pos n), show 2 * binade = 2 ^ 53 from rfl, ← Nat.pow_add]
  exact Nat.lt_of_lt_of_le hlog (Nat.pow_le_pow_right (by decide) (by omega))

/-- At least fifty-three bits before the point stay so many. -/
theorem binade_le_roundHalfEven {num den n : Nat} (h : 52 + n ≤ (num / den).log2) :
    binade ≤ roundHalfEven num (den * Nat.pow 2 n) := by
  have hne : num / den ≠ 0 := fun hzero => by
    rw [hzero, show (0 : Nat).log2 = 0 from rfl] at h
    omega
  refine Nat.le_trans ?_ (div_le_roundHalfEven _ _)
  rw [Nat.pow_eq, ← Nat.div_div_eq_div_mul, Nat.le_div_iff_mul_le (Nat.two_pow_pos n),
    show binade = 2 ^ 52 from rfl, ← Nat.pow_add]
  exact Nat.le_trans (Nat.pow_le_pow_right (by decide) h) (Nat.log2_self_le hne)

/-- A quotient that is too large for a finite number is not rounded to one. -/
theorem infinity_le_nearest {num den bits : Nat} (hbits : 1024 ≤ bits) (hden : 0 < den)
    (h : 2 ^ bits * den ≤ num) : infinity ≤ nearest num den := by
  have hunit : unitBits = 1074 := rfl
  have hscaled : 2 ^ (bits + unitBits) ≤ num * Nat.pow 2 unitBits / den := by
    generalize unitBits = more
    rw [Nat.le_div_iff_mul_le hden, Nat.pow_eq, Nat.pow_add, Nat.mul_right_comm]
    exact Nat.mul_le_mul_right _ h
  unfold nearest
  generalize num * Nat.pow 2 unitBits = scaled at hscaled
  have hne : scaled / den ≠ 0 := Nat.ne_of_gt (Nat.lt_of_lt_of_le (Nat.two_pow_pos _) hscaled)
  have hlog : bits + unitBits ≤ (scaled / den).log2 := (Nat.le_log2 hne).mpr hscaled
  -- the leading one of the quotient stays, so that the rest carries one more exponent
  have hrounded : binade ≤ roundHalfEven scaled (den * Nat.pow 2 ((scaled / den).log2 - 52)) :=
    binade_le_roundHalfEven (by omega)
  have hexponent : 2046 * binade ≤ ((scaled / den).log2 - 52) * binade :=
    Nat.mul_le_mul_right _ (by omega)
  unfold infinity
  dsimp only
  omega

/-! ### Rounding a decimal -/

/-- Three bits are less than a decimal digit. -/
theorem two_pow_le_ten_pow {bits digits : Nat} (h : bits ≤ 3 * digits) :
    2 ^ bits ≤ 10 ^ digits :=
  calc 2 ^ bits ≤ 2 ^ (3 * digits) := Nat.pow_le_pow_right (by decide) h
    _ = 8 ^ digits := Nat.pow_mul 2 3 digits
    _ ≤ 10 ^ digits := Nat.pow_le_pow_left (by decide) digits

/-- A decimal is rounded as its quotient is. The two ends at which no power of ten is computed lie
    beyond all numbers. -/
theorem nearestDecimal_eq (c : Nat) (e : Int) :
    nearestDecimal c e
      = min infinity (nearest (c * Nat.pow 10 e.toNat) (Nat.pow 10 (-e).toNat)) := by
  have hden : 0 < Nat.pow 10 (-e).toNat := Nat.pow_pos (by decide)
  have hunit : unitBits = 1074 := rfl
  unfold nearestDecimal
  split
  · next hzero =>
    rw [hzero, Nat.zero_mul, nearest_eq_zero (by rwa [Nat.zero_mul]), Nat.min_zero]
  next hc =>
  split
  · next hlarge =>
    -- beyond the greatest number
    have hpower : 2 ^ (3 * e.toNat) ≤ 10 ^ e.toNat := two_pow_le_ten_pow (Nat.le_refl _)
    have hone : Nat.pow 10 (-e).toNat = 1 := by
      rw [show (-e).toNat = 0 by omega, Nat.pow_eq, Nat.pow_zero]
    have hbits : 1024 ≤ 3 * e.toNat := by omega
    refine (Nat.min_eq_left (infinity_le_nearest hbits hden ?_)).symm
    rw [hone, Nat.mul_one]
    exact Nat.le_trans hpower (Nat.le_mul_of_pos_left _ (by omega))
  · split
    · next hsmall =>
      -- below the least number
      have hone : Nat.pow 10 e.toNat = 1 := by
        rw [show e.toNat = 0 by omega, Nat.pow_eq, Nat.pow_zero]
      have hpower : 2 ^ (1 + (c.log2 + 1 + unitBits)) ≤ 10 ^ (-e).toNat :=
        two_pow_le_ten_pow (by omega)
      have hlog : c < 2 ^ (c.log2 + 1) := Nat.lt_log2_self
      rw [nearest_eq_zero, Nat.min_zero]
      rw [hone, Nat.mul_one]
      refine Nat.lt_of_lt_of_le ?_ hpower
      generalize unitBits = bits
      rw [Nat.pow_add 2 1, Nat.pow_add 2 (c.log2 + 1)]
      exact Nat.mul_lt_mul_of_pos_left
        (Nat.mul_lt_mul_of_pos_right hlog (Nat.two_pow_pos bits)) (by decide)
    · rfl

/-- Zeros at the end of a coefficient raise the exponent. -/
theorem nearestDecimal_mul_pow (c k : Nat) (e : Int) :
    nearestDecimal (c * Nat.pow 10 k) e = nearestDecimal c (e + k) := by
  have hexponents : k + e.toNat + (-(e + k)).toNat = (e + k).toNat + (-e).toNat := by omega
  have hten : ∀ n, 0 < Nat.pow 10 n := fun n => Nat.pow_pos (by decide)
  rw [nearestDecimal_eq, nearestDecimal_eq]
  refine congrArg (min infinity) (nearest_eq_of_ratio (hten _) (hten _) ?_)
  simp only [Nat.pow_eq]
  calc c * 10 ^ k * 10 ^ e.toNat * 10 ^ (-(e + k)).toNat
      = c * 10 ^ (k + e.toNat + (-(e + k)).toNat) := by rw [Nat.pow_add, Nat.pow_add]; ring
    _ = c * 10 ^ (e + k).toNat * 10 ^ (-e).toNat := by rw [hexponents, Nat.pow_add]; ring

/-- The exact decimal of a finite magnitude is rounded to it. -/
theorem nearestDecimal_units {m : Nat} (hm : m < infinity) :
    nearestDecimal (units m * Nat.pow 5 unitBits) (-(unitBits : Int)) = m := by
  -- ten is two times five, so that the fives cancel and a power of two is left
  have hvalue : nearestDecimal (units m * Nat.pow 5 unitBits) (-(unitBits : Int))
      = min infinity (nearest (units m) (Nat.pow 2 unitBits)) := by
    rw [nearestDecimal_eq]
    generalize unitBits = bits
    have hten : Nat.pow 10 bits = Nat.pow 5 bits * Nat.pow 2 bits := Nat.mul_pow 5 2 bits
    have hfive : 0 < Nat.pow 5 bits := Nat.pow_pos (by decide)
    have hone : Nat.pow 10 0 = 1 := rfl
    rw [Int.toNat_neg_natCast, Int.neg_neg, Int.toNat_natCast, hten, hone, Nat.mul_one]
    rw [Nat.mul_comm (Nat.pow 5 bits), nearest_mul_right _ _ hfive]
  rw [hvalue, nearest_units]
  exact Nat.min_eq_right (Nat.le_of_lt hm)

end Double

end LightShow
