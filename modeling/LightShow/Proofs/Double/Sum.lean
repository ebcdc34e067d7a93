import LightShow.Proofs.Double.Arithmetic

namespace LightShow.Double

/-!
# Sums, and results of arithmetic with their sign

The result of arithmetic on finite numbers has the order of the number nearest to the exact result,
which is a signed quotient of their values. Which zero a zero is does not show in its order.

* `value_mono` — numbers are in the order of their values;
* `nearestOrder` — the order of the number nearest to a signed quotient; `nearestOrder_mono` says
  that a larger quotient does not have a smaller one;
* `RoundsTo` — a result has the order of the number nearest to a quotient;
* `roundsTo_add`, `roundsTo_sub`, `roundsTo_mul`, `roundsTo_div` — so have the results of arithmetic.
-/

open Float.Model UnpackedFloat

/-! ### Values -/

/-- The value is the magnitude in units, with the sign in front. -/
theorem value_eq_apply (d : Double) : d.value = (signOf d.negative).apply (units d.magnitude) := by
  unfold value signOf
  cases d.negative <;> rfl

theorem value_ofMagnitude {m : Nat} (h : m < infinity) (negative : Bool) :
    (ofMagnitude negative m).value = (signOf negative).apply (units m) := by
  have hsign : m < signBit := Nat.lt_trans h (by decide)
  rw [value_eq_apply, negative_ofMagnitude hsign, magnitude_ofMagnitude hsign]

/-- A value that is not negative is a number of units. -/
theorem value_eq_units {d : Double} (h : 0 ≤ d.value) : d.value = units d.magnitude := by
  unfold value at *
  cases hsign : d.negative with
  | false => rfl
  | true =>
    rw [hsign, if_pos rfl] at h
    rw [if_pos rfl]
    omega

/-- Numbers are in the order of their values. -/
theorem value_mono {a b : Double} (h : a.order ≤ b.order) : a.value ≤ b.value := by
  unfold order at h
  unfold value
  cases ha : a.negative <;> cases hb : b.negative <;>
    simp only [ha, hb, if_true, if_false, Bool.false_eq_true] at h ⊢
  case false.false =>
    exact Int.ofNat_le.mpr (units_mono (by omega))
  case false.true =>
    -- a zero of either sign
    have hzero : a.magnitude = 0 ∧ b.magnitude = 0 := by omega
    rw [hzero.1, hzero.2, units_zero]
    exact Int.le_refl _
  case true.false => omega
  case true.true =>
    have hunits : units b.magnitude ≤ units a.magnitude := units_mono (by omega)
    omega

/-! ### Rounding with a sign -/

/-- The order of the number nearest to a signed quotient. -/
def nearestOrder (num : Int) (den : Nat) : Int :=
  let magnitude := min infinity (nearest num.natAbs den)
  if num < 0 then -(magnitude : Int) else magnitude

/-- A larger quotient is not rounded to a smaller number. -/
theorem nearestOrder_mono {m n : Int} (h : m ≤ n) (den : Nat) :
    nearestOrder m den ≤ nearestOrder n den := by
  unfold nearestOrder
  dsimp only
  by_cases hm : m < 0
  · by_cases hn : n < 0
    · have hnearest : nearest n.natAbs den ≤ nearest m.natAbs den :=
        nearest_le_nearest (by omega) den
      rw [if_pos hm, if_pos hn]
      omega
    · rw [if_pos hm, if_neg hn]
      omega
  · have hnearest : nearest m.natAbs den ≤ nearest n.natAbs den :=
      nearest_le_nearest (by omega) den
    rw [if_neg hm, if_neg (by omega)]
    omega

/-- A number has the order of the number nearest to a signed quotient. -/
structure RoundsTo (d : Double) (num : Int) (den : Nat) : Prop where
  number : d.isNaN = false
  order : d.order = nearestOrder num den

/-- The magnitude nearest to a quotient, cut at infinity, is a rounded result. -/
theorem roundsTo_ofMagnitude (negative : Bool) (n den : Nat) :
    RoundsTo (ofMagnitude negative (min infinity (nearest n den)))
      ((signOf negative).apply n) den := by
  have hle : min infinity (nearest n den) ≤ infinity := Nat.min_le_left _ _
  have hlt : min infinity (nearest n den) < signBit := Nat.lt_of_le_of_lt hle (by decide)
  refine ⟨isNaN_ofMagnitude hle _, ?_⟩
  rw [order_ofMagnitude hlt]
  unfold nearestOrder
  cases negative with
  | false =>
    have hnot : ¬ (signOf false).apply n < 0 := Int.not_lt.mpr (Int.natCast_nonneg n)
    rw [if_neg hnot]
    rfl
  | true =>
    have habs : ((signOf true).apply n).natAbs = n := Int.natAbs_neg n
    dsimp only
    rw [habs, if_pos rfl]
    rcases Nat.eq_zero_or_pos n with rfl | hpos
    · rw [nearest_zero, Nat.min_zero]
      rfl
    · have hneg : (signOf true).apply n < 0 := Int.neg_neg_of_pos (Int.natCast_pos.mpr hpos)
      rw [if_pos hneg]

/-- A zero of either sign is the result 0. -/
theorem roundsTo_zero (s : Sign) (den : Nat) : RoundsTo (packed (.zero s)) 0 den := by
  have hnone := fun negative => roundsTo_ofMagnitude negative 0 den
  simp only [nearest_zero, Nat.min_zero, ← packed_zero] at hnone
  cases s with
  | negative => exact hnone true
  | positive => exact hnone false

/-- Every finite number has its own value. -/
theorem roundsTo_self {d : Double} (h : d.isFinite = true) :
    RoundsTo d d.value (Nat.pow 2 unitBits) := by
  have hle : d.magnitude ≤ infinity := Nat.le_of_lt (of_decide_eq_true h)
  have hround := roundsTo_ofMagnitude d.negative (units d.magnitude) (Nat.pow 2 unitBits)
  rwa [nearest_units, Nat.min_eq_right hle, ofMagnitude_magnitude, ← value_eq_apply] at hround

/-! ### Products and quotients -/

/-- The sign of a product goes with the product of the signs. -/
theorem apply_bne (a b : Bool) (m n : Nat) :
    (signOf (a != b)).apply (m * n : Nat) = (signOf a).apply m * (signOf b).apply n := by
  cases a <;> cases b <;> simp [signOf, Sign.apply]

section Finite

variable {x y : Double} (hx : x.isFinite = true) (hy : y.isFinite = true)
include hx hy

/-- A product is rounded from the product of the values. -/
theorem roundsTo_mul : RoundsTo (ofFloat (x.toFloat * y.toFloat)) (x.value * y.value)
    (Nat.pow 2 unitBits * Nat.pow 2 unitBits) := by
  rw [ofFloat_mul hx hy, value_eq_apply, value_eq_apply, ← apply_bne]
  exact roundsTo_ofMagnitude _ _ _

/-- A quotient by a positive number. -/
theorem roundsTo_div (hpos : 0.0 < y.toFloat) :
    RoundsTo (ofFloat (x.toFloat / y.toFloat)) x.value (units y.magnitude) := by
  obtain ⟨hnegative, hmagnitude⟩ := of_zero_lt_order (zero_lt_iff.mp hpos).2
  have horder := (zero_lt_iff.mp hpos).2
  rw [ofFloat_div hx hy (by omega), hnegative, Bool.bne_false, value_eq_apply]
  exact roundsTo_ofMagnitude _ _ _

end Finite

/-! ### Sums -/

/-- A signed mantissa with an exponent is rounded to the nearest number. -/
theorem roundsTo_normalize (m : Int) {e : Int} {a b : Nat} (h : (a : Int) - b = e) :
    RoundsTo (packed (normalize .binary64 m e .positive)) (m * Nat.pow 2 a) (Nat.pow 2 b) := by
  -- a mantissa that is not zero, with its sign apart
  have hround : ∀ (negative : Bool) (n : Nat), 0 < n →
      RoundsTo (packed (round .binary64 (signOf negative) n e))
        ((signOf negative).apply n * Nat.pow 2 a) (Nat.pow 2 b) := by
    intro negative n hn
    have hsign : (signOf negative).apply n * Nat.pow 2 a
        = (signOf negative).apply (n * Nat.pow 2 a : Nat) := by
      cases negative <;> simp [signOf, Sign.apply]
    rw [packed_round negative hn h, hsign]
    exact roundsTo_ofMagnitude _ _ _
  unfold UnpackedFloat.normalize
  rcases Int.lt_trichotomy m 0 with hneg | rfl | hpos
  · have hnat : (((-m).toNat : Nat) : Int) = -m := Int.toNat_of_nonneg (by omega)
    have hround := hround true (-m).toNat (by omega)
    rw [hnat] at hround
    rw [Int.compare_eq_lt.mpr hneg]
    have hback : (signOf true).apply (-m) = m := Int.neg_neg m
    rwa [hback] at hround
  · rw [Int.zero_mul]
    exact roundsTo_zero .positive _
  · have hnat : ((m.toNat : Nat) : Int) = m := Int.toNat_of_nonneg (by omega)
    have hround := hround false m.toNat (by omega)
    rw [hnat] at hround
    rw [Int.compare_eq_gt.mpr hpos]
    exact hround

/-- A mantissa that is filled up with zeros, so that its exponent is `k`, keeps its value. -/
theorem apply_decreaseExponent (s : Sign) (m : Nat) {e k : Nat} (h : k ≤ e) :
    s.apply (decreaseExponent m (e - unitBits) (k - unitBits)).1 * Nat.pow 2 k
      = s.apply (m * Nat.pow 2 e : Nat) := by
  obtain ⟨more, rfl⟩ := Nat.exists_eq_add_of_le h
  have hshift : ((k + more : Nat) - (unitBits : Int) - (k - unitBits)).toNat = more := by omega
  have hvalue : (m <<< more) * Nat.pow 2 k = m * Nat.pow 2 (k + more) := by
    rw [Nat.shiftLeft_eq, Nat.mul_assoc, Nat.mul_comm (2 ^ more)]
    exact congrArg (m * ·) (Nat.pow_add 2 k more).symm
  unfold decreaseExponent
  rw [hshift, ← hvalue]
  cases s <;> simp [Sign.apply]

/-- Taking a finite number apart and putting it together again. -/
theorem packed_unpack {d : Double} (h : d.isFinite = true) :
    packed d.toFloat.toModel.unpack = d := by
  have hlt : d.magnitude < infinity := of_decide_eq_true h
  rcases unpack_cases_of_isFinite h with ⟨hzero, hparts⟩ | ⟨hpos, hparts⟩
  · rw [hparts, packed_zero, ← hzero, ofMagnitude_magnitude]
  · have hhigh : mantissa d.magnitude < 2 * binade := by
      have hrest : d.magnitude % binade < binade := Nat.mod_lt _ (by decide)
      unfold mantissa
      split <;> omega
    rw [hparts, packed_finite (binade_le_mantissa_or _) hhigh d.negative (mantissa_pos hpos)
      (e := exponent d.magnitude) (by omega), exponent_mul_add_mantissa,
      Nat.min_eq_right (Nat.le_of_lt hlt), ofMagnitude_magnitude]

/-- A finite number keeps its bits. -/
theorem ofFloat_toFloat {d : Double} (h : d.isFinite = true) : ofFloat d.toFloat = d := by
  show packed (UnpackedFloat.unpack Format.binary64 d.bits.toBitVec) = d
  rw [← unpack_ofBits]
  exact packed_unpack h

/-- Both zeros have the value 0. -/
theorem value_of_zero {d : Double} (h : d.magnitude = 0) : d.value = 0 := by
  unfold value
  rw [h, units_zero]
  cases d.negative <;> rfl

section Finite

variable {x y : Double} (hx : x.isFinite = true) (hy : y.isFinite = true)
include hx hy

/-- The mantissas of two numbers that are no zeros are added at the lower one of their exponents. -/
theorem roundsTo_add_of_pos (hm : 0 < x.magnitude) (hn : 0 < y.magnitude) :
    RoundsTo (packed (add .binary64 x.toFloat.toModel.unpack y.toFloat.toModel.unpack))
      (x.value + y.value) (Nat.pow 2 unitBits) := by
  -- `k` is the lower exponent, down to which the mantissa of the other number is filled up
  obtain ⟨k, hk⟩ : ∃ k, min (exponent x.magnitude) (exponent y.magnitude) = k := ⟨_, rfl⟩
  have hlower : min ((exponent x.magnitude : Int) - unitBits) (exponent y.magnitude - unitBits)
      = (k : Int) - unitBits := by omega
  have hround := roundsTo_normalize
    (x.sign.apply (decreaseExponent (mantissa x.magnitude) (exponent x.magnitude - unitBits)
        (k - unitBits)).1
      + y.sign.apply (decreaseExponent (mantissa y.magnitude) (exponent y.magnitude - unitBits)
        (k - unitBits)).1)
    (a := k) (b := unitBits) rfl
  rw [Int.add_mul, apply_decreaseExponent _ _ (by omega), apply_decreaseExponent _ _ (by omega)]
    at hround
  rw [unpack_of_finite hm (of_decide_eq_true hx), unpack_of_finite hn (of_decide_eq_true hy)]
  show RoundsTo (packed (normalize .binary64 (_ + _) (min _ _) .positive)) _ _
  rw [hlower, value_eq_apply, value_eq_apply]
  exact hround

/-- A sum, made of the parts of its summands. -/
theorem roundsTo_add_unpack :
    RoundsTo (packed (add .binary64 x.toFloat.toModel.unpack y.toFloat.toModel.unpack))
      (x.value + y.value) (Nat.pow 2 unitBits) := by
  rcases unpack_cases_of_isFinite hx with ⟨hxzero, hxparts⟩ | ⟨hm, hxparts⟩
  · rcases unpack_cases_of_isFinite hy with ⟨hyzero, hyparts⟩ | ⟨hn, hyparts⟩
    · -- two zeros, of which the sum is one, or the positive one
      rw [value_of_zero hxzero, value_of_zero hyzero, hxparts, hyparts]
      unfold UnpackedFloat.add
      dsimp only
      split <;> exact roundsTo_zero _ _
    · have hsum : add .binary64 x.toFloat.toModel.unpack y.toFloat.toModel.unpack
          = y.toFloat.toModel.unpack := by
        rw [hxparts, hyparts]
        rfl
      rw [hsum, packed_unpack hy, value_of_zero hxzero, Int.zero_add]
      exact roundsTo_self hy
  · rcases unpack_cases_of_isFinite hy with ⟨hyzero, hyparts⟩ | ⟨hn, hyparts⟩
    · have hsum : add .binary64 x.toFloat.toModel.unpack y.toFloat.toModel.unpack
          = x.toFloat.toModel.unpack := by
        rw [hxparts, hyparts]
        rfl
      rw [hsum, packed_unpack hx, value_of_zero hyzero, Int.add_zero]
      exact roundsTo_self hx
    · exact roundsTo_add_of_pos hx hy hm hn

/-- **Sums.** A sum of finite numbers has the order of the number nearest to its exact value. -/
theorem roundsTo_add : RoundsTo (ofFloat (x.toFloat + y.toFloat)) (x.value + y.value)
    (Nat.pow 2 unitBits) :=
  roundsTo_add_unpack hx hy

end Finite

/-- An infinity stays one if a finite number is added to it. -/
theorem ofFloat_add_of_infinite {x y : Double} (hx : x.magnitude = infinity)
    (hy : y.isFinite = true) : ofFloat (x.toFloat + y.toFloat) = ofMagnitude x.negative infinity := by
  show packed (add .binary64 x.toFloat.toModel.unpack y.toFloat.toModel.unpack) = _
  rw [unpack_of_infinite hx, ← packed_infinity]
  rcases unpack_cases_of_isFinite hy with ⟨_, hyparts⟩ | ⟨_, hyparts⟩ <;> rw [hyparts] <;> rfl

/-! ### Differences -/

/-- The number with the other sign. -/
def negated (d : Double) : Double := ofMagnitude (!d.negative) d.magnitude

theorem magnitude_negated (d : Double) : d.negated.magnitude = d.magnitude :=
  magnitude_ofMagnitude d.magnitude_lt _

theorem negative_negated (d : Double) : d.negated.negative = !d.negative :=
  negative_ofMagnitude d.magnitude_lt _

theorem isFinite_negated (d : Double) : d.negated.isFinite = d.isFinite := by
  unfold isFinite
  rw [magnitude_negated]

/-- The value of the number with the other sign. -/
theorem value_negated (d : Double) : d.negated.value = -d.value := by
  unfold value
  rw [magnitude_negated, negative_negated]
  cases d.negative <;> simp

/-- The parts of a finite number with the other sign. -/
theorem unpack_negated {d : Double} (h : d.isFinite = true) :
    d.negated.toFloat.toModel.unpack = d.toFloat.toModel.unpack.neg := by
  have hsign : d.negated.sign = -signOf d.negative := by
    unfold sign
    rw [negative_negated]
    cases d.negative <;> rfl
  rcases unpack_cases_of_isFinite h with ⟨hzero, hparts⟩ | ⟨hpos, hparts⟩
  · rw [hparts, unpack_of_zero (d := d.negated) (by rw [magnitude_negated, hzero]), hsign]
    rfl
  · rw [hparts, unpack_of_finite (d := d.negated) (by rwa [magnitude_negated])
      (by rw [magnitude_negated]; exact of_decide_eq_true h), hsign]
    simp only [magnitude_negated]
    rfl

theorem apply_neg (s : Sign) (n : Int) : (-s).apply n = -s.apply n := by
  cases s with
  | negative => exact (Int.neg_neg n).symm
  | positive => rfl

/-- Subtracting is adding the number with the other sign. -/
theorem sub_eq_add (u v : UnpackedFloat) : sub .binary64 u v = add .binary64 u v.neg := by
  cases u with
  | finite s m e hm =>
    cases v with
    | finite t n f hn =>
      show normalize _ (s.apply _ - t.apply _) _ _ = normalize _ (s.apply _ + (-t).apply _) _ _
      rw [apply_neg, Int.sub_eq_add_neg]
    | _ => rfl
  | _ => cases v <;> rfl

section Finite

variable {x y : Double} (hy : y.isFinite = true)
include hy

/-- **Differences.** A difference of finite numbers has the order of the number nearest to its exact
    value. -/
theorem roundsTo_sub (hx : x.isFinite = true) :
    RoundsTo (ofFloat (x.toFloat - y.toFloat)) (x.value - y.value) (Nat.pow 2 unitBits) := by
  show RoundsTo (packed (sub .binary64 x.toFloat.toModel.unpack y.toFloat.toModel.unpack)) _ _
  rw [sub_eq_add, ← unpack_negated hy, Int.sub_eq_add_neg, ← value_negated]
  exact roundsTo_add_unpack hx (by rwa [isFinite_negated])

/-- An infinity stays one if a finite number is subtracted from it. -/
theorem ofFloat_sub_of_infinite (hx : x.magnitude = infinity) :
    ofFloat (x.toFloat - y.toFloat) = ofMagnitude x.negative infinity := by
  show packed (sub .binary64 x.toFloat.toModel.unpack y.toFloat.toModel.unpack) = _
  rw [unpack_of_infinite hx, ← packed_infinity]
  rcases unpack_cases_of_isFinite hy with ⟨_, hyparts⟩ | ⟨_, hyparts⟩ <;> rw [hyparts] <;> rfl

end Finite

end LightShow.Double
