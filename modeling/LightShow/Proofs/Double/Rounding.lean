import LightShow.Proofs.Double.Bits
import LightShow.Proofs.Double.Nearest
import Mathlib

namespace LightShow.Double

/-!
# Results of arithmetic are rounded to the nearest number

Arithmetic makes an integer mantissa with an exponent, and remembers by two bits what was cut off.
It shifts until fifty-three bits are left, rounds, and packs the result.

* `Represents` — a mantissa with its two bits stands for a quotient;
* `Represents.roundedMantissa` — it is rounded as `roundHalfEven` rounds the quotient;
* `packed_settled` — a carry is shifted out of a rounded mantissa;
* `packed_roundWithAccuracy`, `packed_round` — a result is the magnitude `nearest` to its exact
  value.
-/

open Float.Model UnpackedFloat

/-! ### Mantissas with two more bits -/

/-- A mantissa stands for the whole part of a quotient, with a bit for the half and a bit for all
    that is cut off beyond it. -/
structure Represents (em : ExtendedMantissa) (num den : Nat) : Prop where
  mantissa : em.mantissa = num / den
  roundBit : em.roundBit = true ↔ den ≤ 2 * (num % den)
  stickyBit : em.stickyBit = true ↔ num % den ≠ 0 ∧ 2 * (num % den) ≠ den

variable {num den : Nat}

theorem represents_ofFraction (num : Nat) (hden : 0 < den) :
    Represents (.ofMantissaAndAccuracy (num / den) (accuracyOfFraction (num % den) den))
      num den := by
  unfold accuracyOfFraction
  split
  · next hzero =>
    have hne : den ≠ 0 := Nat.ne_of_gt hden
    constructor <;> simp [ExtendedMantissa.ofMantissaAndAccuracy, hzero, hne]
  · next hne =>
    rcases Nat.lt_trichotomy (2 * (num % den)) den with h | h | h
    · rw [Nat.compare_eq_lt.mpr h]
      constructor <;> simp [ExtendedMantissa.ofMantissaAndAccuracy] <;> omega
    · rw [Nat.compare_eq_eq.mpr h]
      constructor <;> simp [ExtendedMantissa.ofMantissaAndAccuracy] <;> omega
    · rw [Nat.compare_eq_gt.mpr h]
      constructor <;> simp [ExtendedMantissa.ofMantissaAndAccuracy] <;> omega

variable {em : ExtendedMantissa}

/-- Shifting by one bit doubles the denominator. -/
theorem Represents.shiftRightOne (h : Represents em num den) (hden : 0 < den) :
    Represents em.shiftRightOne num (den * 2) := by
  obtain ⟨hmantissa, hround, hsticky⟩ := h
  have hrest : num % den < den := Nat.mod_lt _ hden
  have hmod : num % (den * 2) = num % den + den * (num / den % 2) := Nat.mod_mul
  refine ⟨?_, ?_, ?_⟩
  · show em.mantissa / 2 = _
    rw [hmantissa, Nat.div_div_eq_div_mul]
  · show (em.mantissa % 2 != 0) = true ↔ _
    rw [hmantissa, hmod, bne_iff_ne]
    rcases Nat.mod_two_eq_zero_or_one (num / den) with hbit | hbit <;> rw [hbit] <;> omega
  · show (em.roundBit || em.stickyBit) = true ↔ _
    rw [Bool.or_eq_true, hround, hsticky, hmod]
    rcases Nat.mod_two_eq_zero_or_one (num / den) with hbit | hbit <;> rw [hbit] <;> omega

theorem Represents.shiftRight (h : Represents em num den) (hden : 0 < den) (n : Nat) :
    Represents (em >>> n) num (den * 2 ^ n) := by
  induction n with
  | zero => rwa [Nat.pow_zero, Nat.mul_one]
  | succ n ih =>
    rw [Nat.pow_succ, ← Nat.mul_assoc]
    exact ih.shiftRightOne (Nat.mul_pos hden (Nat.two_pow_pos n))

/-- The two bits tell how the quotient is rounded. -/
theorem Represents.roundedMantissa (h : Represents em num den) :
    em.roundedMantissa = roundHalfEven num den := by
  obtain ⟨hmantissa, hround, hsticky⟩ := h
  obtain ⟨m, r, s⟩ := em
  unfold roundHalfEven
  dsimp only at *
  subst hmantissa
  cases r <;> cases s <;>
    simp only [ExtendedMantissa.roundedMantissa, ExtendedMantissa.accuracy,
      Accuracy.roundToNearestEven, Bool.false_eq_true, true_iff, false_iff] at * <;>
    split <;> omega

/-! ### Exponents -/

theorem targetExponent_eq (t : Int) :
    Format.binary64.targetExponent t = max (t - 53) (-unitBits) := rfl

/-- Bits are cut off until the exponent is the one that the format asks for. -/
theorem shiftToTargetExponent_eq {m n : Nat} {e : Int} (accuracy : Accuracy)
    (h : (Format.binary64.targetExponent (totalExponent m e) - e).toNat = n) :
    shiftToTargetExponent .binary64 m e accuracy
      = (ExtendedMantissa.ofMantissaAndAccuracy m accuracy >>> n, e + n) := by
  unfold shiftToTargetExponent shiftToExponent
  dsimp only
  rw [h]

/-- A rounded mantissa with its exponent, after a carry has been shifted out of it. -/
def settled (sign : Sign) (m : Nat) (e : Int) : UnpackedFloat :=
  let (em, e) := shiftToTargetExponent .binary64 m e .exact
  if h : em.mantissa = 0 then .zero sign else .finite sign em.mantissa e (Nat.pos_of_ne_zero h)

/-- A carry out of the mantissa moves on to the next exponent. -/
theorem packed_settled (negative : Bool) {m e : Nat} {f : Int} (hf : f + unitBits = e)
    (hlow : binade ≤ m ∨ e = 0) (hhigh : m ≤ 2 * binade) :
    packed (settled (signOf negative) m f)
      = ofMagnitude negative (min infinity (e * binade + m)) := by
  have hunit : unitBits = 1074 := rfl
  rcases Nat.eq_or_lt_of_le hhigh with rfl | hlt
  · -- of a carry, one more bit is cut off
    have hlog : (2 * binade).log2 = 53 := by decide
    have hshift :
        (Format.binary64.targetExponent (totalExponent (2 * binade) f) - f).toNat = 1 := by
      rw [targetExponent_eq, totalExponent, hlog]
      omega
    have hsum : e * binade + 2 * binade = (e + 1) * binade + binade := by ring
    rw [hsum, ← packed_finite (.inl (Nat.le_refl _)) (by decide) negative (f := f + 1) (by decide)
      (by omega)]
    unfold settled
    rw [shiftToTargetExponent_eq .exact hshift]
    rfl
  · have hshift : (Format.binary64.targetExponent (totalExponent m f) - f).toNat = 0 := by
      rw [targetExponent_eq, totalExponent]
      by_cases hzero : m = 0
      · have hlog : (0 : Nat).log2 = 0 := rfl
        rw [hzero, hlog]
        omega
      · have hlog : m.log2 < 53 := (Nat.log2_lt hzero).mpr hlt
        omega
    unfold settled
    rw [shiftToTargetExponent_eq .exact hshift]
    show packed (if h : m = 0 then _ else _) = _
    split
    · next hzero =>
      subst hzero
      obtain rfl : e = 0 := hlow.resolve_left (by decide)
      rw [packed_zero]
      rfl
    · next hne => exact packed_finite hlow hlt negative _ (by omega)

/-! ### Rounding -/

/-- Cutting off bits lowers the place of the leading one. -/
theorem log2_div_two_pow (n k : Nat) : (n / 2 ^ k).log2 = n.log2 - k := by
  rw [Nat.log2_eq_log_two, Nat.log2_eq_log_two, Nat.log_div_base_pow]

/-- A power of two moves the leading one of a quotient that is not below one. -/
theorem log2_scaled (num den : Nat) {a b : Nat} (h : num / den ≠ 0 ∨ a ≤ b) :
    (num * 2 ^ a / (den * 2 ^ b)).log2 = (num / den).log2 + a - b := by
  rcases Nat.le_total a b with hle | hle
  · obtain ⟨k, rfl⟩ := Nat.exists_eq_add_of_le hle
    have hquotient : num * 2 ^ a / (den * 2 ^ (a + k)) = num / den / 2 ^ k := by
      rw [Nat.pow_add, Nat.mul_comm (2 ^ a), ← Nat.mul_assoc,
        Nat.mul_div_mul_right _ _ (Nat.two_pow_pos a), Nat.div_div_eq_div_mul]
    rw [hquotient, log2_div_two_pow]
    omega
  · obtain ⟨k, rfl⟩ := Nat.exists_eq_add_of_le hle
    have hquotient : num * 2 ^ (b + k) / (den * 2 ^ b) = num * 2 ^ k / den := by
      rw [Nat.pow_add, Nat.mul_comm (2 ^ b), ← Nat.mul_assoc,
        Nat.mul_div_mul_right _ _ (Nat.two_pow_pos b)]
    have hback : num * 2 ^ k / den / 2 ^ k = num / den := by
      rw [Nat.div_div_eq_div_mul, Nat.mul_div_mul_right _ _ (Nat.two_pow_pos k)]
    have hlog := log2_div_two_pow (num * 2 ^ k / den) k
    rw [hback] at hlog
    rcases h with hne | hle'
    · -- the quotient has a leading one, which moves up by `k`
      have hlarge : 2 ^ k ≤ num * 2 ^ k / den := by
        refine Nat.le_of_not_lt fun hlt => hne ?_
        rw [← hback, Nat.div_eq_of_lt hlt]
      have hk : k ≤ (num * 2 ^ k / den).log2 :=
        (Nat.le_log2 (Nat.ne_of_gt (Nat.lt_of_lt_of_le (Nat.two_pow_pos k) hlarge))).mpr hlarge
      rw [hquotient]
      omega
    · obtain rfl : k = 0 := by omega
      rw [hquotient]
      omega

/-- The magnitude nearest to a quotient times a power of two, if the quotient is cut to as many bits
    as the exponent leaves. -/
theorem nearest_scaled {a b e n : Nat} (h : num / den ≠ 0 ∨ a + unitBits ≤ b)
    (he : (num / den).log2 + (a + unitBits) - b - 52 = e) (hn : e + b = a + unitBits + n) :
    nearest (num * Nat.pow 2 a) (den * Nat.pow 2 b)
      = e * binade + roundHalfEven num (den * 2 ^ n) := by
  unfold nearest
  generalize unitBits = bits at *
  have hscaled : num * Nat.pow 2 a * Nat.pow 2 bits = num * 2 ^ (a + bits) := by
    rw [Nat.mul_assoc, Nat.pow_add]
    rfl
  have hshifted : den * 2 ^ b * 2 ^ e = den * 2 ^ n * 2 ^ (a + bits) := by
    rw [Nat.mul_assoc, Nat.mul_assoc, ← Nat.pow_add, ← Nat.pow_add, Nat.add_comm b, hn,
      Nat.add_comm n]
  dsimp only
  rw [hscaled]
  simp only [Nat.pow_eq]
  rw [log2_scaled num den h, he, hshifted, roundHalfEven_mul_right _ _ (Nat.two_pow_pos _)]

/-- **Rounding.** A quotient times a power of two is rounded to the magnitude nearest to it, and to
    infinity if that is too large, unless too many bits of the quotient have been cut off before. -/
theorem packed_roundWithAccuracy (negative : Bool) (hden : 0 < den) {e : Int} {a b : Nat}
    (hexponent : (a : Int) - b = e)
    (he : e ≤ Format.binary64.targetExponent (totalExponent (num / den) e)) :
    packed (roundWithAccuracy .binary64 (signOf negative) (num / den) e
        (accuracyOfFraction (num % den) den))
      = ofMagnitude negative
          (min infinity (nearest (num * Nat.pow 2 a) (den * Nat.pow 2 b))) := by
  have hunit : unitBits = 1074 := rfl
  rw [targetExponent_eq, totalExponent] at he
  -- `n` bits are cut off, and `k` is the exponent of the magnitude
  obtain ⟨n, hn⟩ := Int.eq_ofNat_of_zero_le (Int.sub_nonneg_of_le he)
  obtain ⟨k, hk⟩ : ∃ k : Nat, e + n + unitBits = k := Int.eq_ofNat_of_zero_le (by omega)
  have hshift : (Format.binary64.targetExponent (totalExponent (num / den) e) - e).toNat = n := by
    rw [targetExponent_eq, totalExponent, hn, Int.toNat_natCast]
  have hrounded := ((represents_ofFraction num hden).shiftRight hden n).roundedMantissa
  have hnone : (0 : Nat).log2 = 0 := rfl
  have hwhole : num / den ≠ 0 ∨ a + unitBits ≤ b := by
    refine or_iff_not_imp_left.mpr fun hzero => ?_
    rw [Classical.not_not.mp hzero, hnone] at he
    omega
  -- fifty-three bits are left, or fewer with the lowest exponent
  have hhigh : roundHalfEven num (den * 2 ^ n) ≤ 2 * binade := roundHalfEven_le_binade (by omega)
  have hlow : binade ≤ roundHalfEven num (den * 2 ^ n) ∨ k = 0 :=
    or_iff_not_imp_right.mpr fun hk0 => binade_le_roundHalfEven (by omega)
  rw [nearest_scaled hwhole (e := k) (n := n) (by omega) (by omega),
    ← packed_settled negative hk hlow hhigh, ← hrounded]
  unfold roundWithAccuracy
  rw [shiftToTargetExponent_eq _ hshift]
  rfl

variable {m : Nat} {e : Int} {a b : Nat}

/-- A mantissa of which nothing has been cut off. -/
theorem packed_roundWithAccuracy_exact (negative : Bool) (hexponent : (a : Int) - b = e)
    (he : e ≤ Format.binary64.targetExponent (totalExponent m e)) :
    packed (roundWithAccuracy .binary64 (signOf negative) m e .exact)
      = ofMagnitude negative (min infinity (nearest (m * Nat.pow 2 a) (Nat.pow 2 b))) := by
  have hwhole : packed (roundWithAccuracy .binary64 (signOf negative) (m / 1) e
      (accuracyOfFraction (m % 1) 1)) = _ :=
    packed_roundWithAccuracy negative Nat.one_pos hexponent (by rwa [Nat.div_one])
  rwa [Nat.div_one, Nat.mod_one, Nat.one_mul] at hwhole

/-- A mantissa that is too short for its exponent is filled up with zeros. -/
theorem packed_round (negative : Bool) (hm : 0 < m) (hexponent : (a : Int) - b = e) :
    packed (round .binary64 (signOf negative) m e)
      = ofMagnitude negative (min infinity (nearest (m * Nat.pow 2 a) (Nat.pow 2 b))) := by
  have hunit : unitBits = 1074 := rfl
  unfold UnpackedFloat.round decreaseExponent
  dsimp only
  generalize hn : (e - Format.binary64.targetExponent (totalExponent m e)).toNat = n
  have hlog : (m <<< n).log2 = m.log2 + n := by
    have hscaled := log2_scaled m 1 (a := n) (b := 0)
      (.inl (by rw [Nat.div_one]; omega))
    rwa [Nat.pow_zero, Nat.mul_one, Nat.div_one, Nat.div_one, Nat.sub_zero,
      ← Nat.shiftLeft_eq] at hscaled
  -- the zeros are taken back by the exponent, so that the quotient is the same
  have hratio : nearest (m <<< n * Nat.pow 2 a) (Nat.pow 2 (b + n))
      = nearest (m * Nat.pow 2 a) (Nat.pow 2 b) := by
    rw [← nearest_mul_right (m * Nat.pow 2 a) (Nat.pow 2 b) (Nat.two_pow_pos n), Nat.shiftLeft_eq,
      Nat.mul_right_comm]
    exact congrArg (nearest _) (Nat.pow_add 2 b n)
  rw [packed_roundWithAccuracy_exact negative (a := a) (b := b + n) (by omega), hratio]
  rw [targetExponent_eq, totalExponent] at *
  rw [hlog]
  omega

end LightShow.Double
