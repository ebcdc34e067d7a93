import LightShow.Proofs.Double.Rank
import LightShow.Proofs.Double.Rounding

namespace LightShow.Double

/-!
# Products, quotients and integers

* `ofFloat_mul`, `ofFloat_div` — a product and a quotient of finite numbers are the numbers nearest
  to their exact values;
* `ofFloat_div_of_infinite` — an infinity stays one under division;
* `ofFloat_byte`, `ofFloat_natCast`, `ofFloat_natCast_div` — natural numbers below `2 ^ 53` are exact,
  and their quotients are the nearest numbers;
* `mul_one`, `one_mul` — products with one.
-/

open Float.Model UnpackedFloat

/-! ### Parts of finite numbers -/

/-- A product is negative if exactly one of the factors is. -/
theorem signOf_mul (a b : Bool) : signOf a * signOf b = signOf (a != b) := by
  cases a <;> cases b <;> rfl

/-- A quotient is negative if exactly one of its two numbers is. -/
theorem signOf_div (a b : Bool) : signOf a / signOf b = signOf (a != b) := by
  cases a <;> cases b <;> rfl

/-- A finite number is a zero, or it has a mantissa. -/
theorem unpack_cases_of_isFinite {d : Double} (h : d.isFinite = true) :
    (d.magnitude = 0 ∧ d.toFloat.toModel.unpack = .zero (signOf d.negative))
    ∨ ∃ hpos : 0 < d.magnitude, d.toFloat.toModel.unpack
        = .finite (signOf d.negative) (mantissa d.magnitude) (exponent d.magnitude - unitBits)
            (mantissa_pos hpos) := by
  rcases Nat.eq_zero_or_pos d.magnitude with hzero | hpos
  · exact .inl ⟨hzero, unpack_of_zero hzero⟩
  · exact .inr ⟨hpos, unpack_of_finite hpos (of_decide_eq_true h)⟩

/-- A mantissa has fifty-three bits, or the exponent is the lowest one. -/
theorem binade_le_mantissa_or (m : Nat) : binade ≤ mantissa m ∨ exponent m = 0 := by
  unfold mantissa exponent
  split
  · next hsmall => exact .inr (by rw [Nat.div_eq_of_lt hsmall])
  · exact .inl (Nat.le_add_right _ _)

variable {x y : Double}

/-! ### Products -/

/-- The product of two mantissas is long enough, or both exponents are the lowest one. -/
theorem mantissa_mul_long {m n : Nat} (hm : 0 < m) (hn : 0 < n) :
    52 ≤ (mantissa m * mantissa n).log2 ∨ (exponent m = 0 ∧ exponent n = 0) := by
  have hm := mantissa_pos hm
  have hn := mantissa_pos hn
  have hlog : 52 ≤ (mantissa m * mantissa n).log2 ↔ 2 ^ 52 ≤ mantissa m * mantissa n :=
    Nat.le_log2 (Nat.ne_of_gt (Nat.mul_pos hm hn))
  rcases binade_le_mantissa_or m with hlarge | hm0
  · exact .inl (hlog.mpr (Nat.le_trans hlarge (Nat.le_mul_of_pos_right _ hn)))
  · rcases binade_le_mantissa_or n with hlarge | hn0
    · exact .inl (hlog.mpr (Nat.le_trans hlarge (Nat.le_mul_of_pos_left _ hm)))
    · exact .inr ⟨hm0, hn0⟩

/-- Mantissas are multiplied and exponents are added. -/
theorem mantissa_mul_units (m n : Nat) :
    mantissa m * mantissa n * Nat.pow 2 (exponent m + exponent n) = units m * units n := by
  have hpower : Nat.pow 2 (exponent m + exponent n)
      = Nat.pow 2 (exponent m) * Nat.pow 2 (exponent n) := Nat.pow_add 2 _ _
  unfold units
  rw [hpower]
  ring

section Finite

variable (hx : x.isFinite = true) (hy : y.isFinite = true)
include hx hy

/-- Zero times a finite number. -/
theorem mul_eq_zero (h : x.magnitude = 0 ∨ y.magnitude = 0) :
    mul .binary64 x.toFloat.toModel.unpack y.toFloat.toModel.unpack
      = .zero (signOf (x.negative != y.negative)) := by
  rw [← signOf_mul]
  rcases unpack_cases_of_isFinite hx with ⟨_, hxparts⟩ | ⟨hm, hxparts⟩ <;>
    rcases unpack_cases_of_isFinite hy with ⟨_, hyparts⟩ | ⟨hn, hyparts⟩ <;>
    rw [hxparts, hyparts] <;> first | rfl | omega

/-- **Products.** A product of finite numbers is the number nearest to its exact value. -/
theorem ofFloat_mul : ofFloat (x.toFloat * y.toFloat)
    = ofMagnitude (x.negative != y.negative)
        (min infinity (nearest (units x.magnitude * units y.magnitude)
          (Nat.pow 2 unitBits * Nat.pow 2 unitBits))) := by
  show packed (mul .binary64 x.toFloat.toModel.unpack y.toFloat.toModel.unpack) = _
  by_cases hzero : x.magnitude = 0 ∨ y.magnitude = 0
  · -- a zero is no mantissa that can be rounded, but its product is exact
    have hunits : units x.magnitude * units y.magnitude = 0 := by
      rcases hzero with h | h <;> rw [h]
      · exact Nat.zero_mul _
      · exact Nat.mul_zero _
    rw [mul_eq_zero hx hy hzero, packed_zero, hunits, nearest_zero, Nat.min_zero]
  · have hm : 0 < x.magnitude := by omega
    have hn : 0 < y.magnitude := by omega
    have hlong := mantissa_mul_long hm hn
    have hsquare : ∀ bits, Nat.pow 2 bits * Nat.pow 2 bits = Nat.pow 2 (bits + bits) :=
      fun bits => (Nat.pow_add 2 bits bits).symm
    rw [unpack_of_finite hm (of_decide_eq_true hx), unpack_of_finite hn (of_decide_eq_true hy),
      ← mantissa_mul_units, hsquare]
    -- the product of two mantissas is long enough, so that no bit of it is missing
    show packed (roundWithAccuracy .binary64 (signOf _ * signOf _) (_ * _) _ .exact) = _
    rw [signOf_mul]
    refine packed_roundWithAccuracy_exact _ ?_ ?_
    · push_cast
      ring
    · rw [targetExponent_eq, totalExponent]
      omega

/-- The factors of a product may change places. -/
theorem ofFloat_mul_comm :
    ofFloat (x.toFloat * y.toFloat) = ofFloat (y.toFloat * x.toFloat) := by
  rw [ofFloat_mul hx hy, ofFloat_mul hy hx, bne_comm, Nat.mul_comm (units x.magnitude)]

end Finite

/-! ### Products with one -/

theorem toFloat_one : (ofMagnitude false one).toFloat = 1.0 := by decide +kernel

theorem isFinite_one : (ofMagnitude false one).isFinite = true := by decide +kernel

/-- Multiplying by one changes no finite number, not even the sign of a zero. -/
theorem mul_one (hx : x.isFinite = true) : ofFloat (x.toFloat * 1.0) = x := by
  have hone : one < signBit := by decide
  have hmagnitude : x.magnitude ≤ infinity := Nat.le_of_lt (of_decide_eq_true hx)
  rw [← toFloat_one, ofFloat_mul hx isFinite_one, negative_ofMagnitude hone,
    magnitude_ofMagnitude hone, units_one, nearest_mul_right _ _ unit_pos, nearest_units,
    Nat.min_eq_right hmagnitude, Bool.bne_false, ofMagnitude_magnitude]

/-- One times a finite number is that number. -/
theorem one_mul (hx : x.isFinite = true) : ofFloat (1.0 * x.toFloat) = x := by
  rw [← toFloat_one, ofFloat_mul_comm isFinite_one hx, toFloat_one, mul_one hx]

/-! ### Quotients -/

/-- The numerator is filled up with zeros, so that the quotient is long enough or its exponent is
    the lowest one. -/
theorem divCore_long {p q : Nat} {e f : Int} (hp : 0 < p) (hq : 0 < q) :
    ∃ n : Nat, divCore .binary64 p e q f
        = (p * 2 ^ n / q, e - f - n, accuracyOfFraction (p * 2 ^ n % q) q)
      ∧ e - f - n
        ≤ Format.binary64.targetExponent (totalExponent (p * 2 ^ n / q) (e - f - n)) := by
  have hunit : unitBits = 1074 := rfl
  have hp' : 2 ^ p.log2 ≤ p := Nat.log2_self_le (by omega)
  have hq' : q < 2 ^ (q.log2 + 1) := Nat.lt_log2_self
  unfold divCore
  dsimp only
  rw [targetExponent_eq, totalExponent, totalExponent]
  generalize hn : (e - f - min (e - f) (max ((p.log2 : Int) + 1 + e - (q.log2 + 1 + f) - 53)
    (-unitBits))).toNat = n
  have htarget : min (e - f) (max ((p.log2 : Int) + 1 + e - (q.log2 + 1 + f) - 53) (-unitBits))
      = e - f - n := by omega
  refine ⟨n, by rw [htarget, Nat.shiftLeft_eq], ?_⟩
  rw [targetExponent_eq, totalExponent]
  by_cases hlow : e - f - n ≤ -unitBits
  · omega
  · -- the numerator has at least fifty-three bits more than the denominator
    have hbits : q.log2 + 53 ≤ p.log2 + n := by omega
    have hlarge : 2 ^ 52 ≤ p * 2 ^ n / q := by
      rw [Nat.le_div_iff_mul_le hq]
      calc 2 ^ 52 * q ≤ 2 ^ 52 * 2 ^ (q.log2 + 1) := Nat.mul_le_mul_left _ (Nat.le_of_lt hq')
        _ = 2 ^ (q.log2 + 53) := by rw [← Nat.pow_add]; congr 1; omega
        _ ≤ 2 ^ (p.log2 + n) := Nat.pow_le_pow_right (by decide) hbits
        _ = 2 ^ p.log2 * 2 ^ n := Nat.pow_add 2 _ _
        _ ≤ p * 2 ^ n := Nat.mul_le_mul_right _ hp'
    have hlog : 52 ≤ (p * 2 ^ n / q).log2 :=
      (Nat.le_log2 (Nat.ne_of_gt (Nat.lt_of_lt_of_le (by decide) hlarge))).mpr hlarge
    omega

/-- **Quotients.** A quotient of finite numbers is the number nearest to its exact value, unless the
    denominator is zero. -/
theorem ofFloat_div (hx : x.isFinite = true) (hy : y.isFinite = true) (hpos : 0 < y.magnitude) :
    ofFloat (x.toFloat / y.toFloat)
      = ofMagnitude (x.negative != y.negative)
          (min infinity (nearest (units x.magnitude) (units y.magnitude))) := by
  have hyparts := unpack_of_finite hpos (of_decide_eq_true hy)
  show packed (div .binary64 x.toFloat.toModel.unpack y.toFloat.toModel.unpack) = _
  rw [hyparts]
  rcases unpack_cases_of_isFinite hx with ⟨hm, hxparts⟩ | ⟨hm, hxparts⟩
  · rw [hxparts, hm, units_zero, nearest_zero, Nat.min_zero, ← packed_zero, ← signOf_div]
    rfl
  · rw [hxparts]
    -- the numerator is filled up with `n` zeros, which the exponent of the quotient takes back
    obtain ⟨n, hcore, hlong⟩ := divCore_long (e := exponent x.magnitude - unitBits)
      (f := exponent y.magnitude - unitBits) (mantissa_pos hm) (mantissa_pos hpos)
    have hratio : nearest (units x.magnitude) (units y.magnitude)
        = nearest (mantissa x.magnitude * 2 ^ n * Nat.pow 2 (exponent x.magnitude))
            (mantissa y.magnitude * Nat.pow 2 (exponent y.magnitude + n)) := by
      rw [← nearest_mul_right _ _ (Nat.two_pow_pos n)]
      unfold units
      simp only [Nat.pow_eq, Nat.pow_add]
      ring_nf
    unfold UnpackedFloat.div
    dsimp only
    rw [hcore, hratio]
    show packed (roundWithAccuracy .binary64 (signOf _ / signOf _) _ _ _) = _
    rw [signOf_div]
    refine packed_roundWithAccuracy _ (mantissa_pos hpos) ?_ hlong
    push_cast
    ring

/-- An infinity stays one if it is divided by a finite number. -/
theorem ofFloat_div_of_infinite (hx : x.magnitude = infinity) (hy : y.isFinite = true) :
    ofFloat (x.toFloat / y.toFloat) = ofMagnitude (x.negative != y.negative) infinity := by
  show packed (div .binary64 x.toFloat.toModel.unpack y.toFloat.toModel.unpack) = _
  rw [unpack_of_infinite hx, ← packed_infinity, ← signOf_div]
  rcases unpack_cases_of_isFinite hy with ⟨_, hyparts⟩ | ⟨_, hyparts⟩ <;> rw [hyparts] <;> rfl

/-! ### Comparisons with zero and one -/

/-- The order of a number that is made of a sign and a magnitude. -/
theorem order_ofMagnitude {m : Nat} (h : m < signBit) (negative : Bool) :
    (ofMagnitude negative m).order = if negative then -(m : Int) else m := by
  unfold order
  rw [negative_ofMagnitude h, magnitude_ofMagnitude h]

/-- A magnitude up to the infinite one is that of a number. -/
theorem isNaN_ofMagnitude {m : Nat} (h : m ≤ infinity) (negative : Bool) :
    (ofMagnitude negative m).isNaN = false := by
  unfold isNaN
  rw [magnitude_ofMagnitude (Nat.lt_of_le_of_lt h (by decide))]
  exact decide_eq_false (Nat.not_lt.mpr h)

/-- A magnitude below the infinite one is that of a finite number. -/
theorem isFinite_ofMagnitude {m : Nat} (h : m < infinity) (negative : Bool) :
    (ofMagnitude negative m).isFinite = true := by
  unfold isFinite
  rw [magnitude_ofMagnitude (Nat.lt_trans h (by decide))]
  exact decide_eq_true h

theorem toFloat_zero : (ofMagnitude false 0).toFloat = 0.0 := by decide +kernel

theorem order_zero : (ofMagnitude false 0).order = 0 := order_ofMagnitude (by decide) false

theorem order_one : (ofMagnitude false one).order = one := order_ofMagnitude (by decide) false

/-- A number is positive if its order is. -/
theorem zero_lt_iff : 0.0 < x.toFloat ↔ x.isNaN = false ∧ 0 < x.order := by
  rw [← toFloat_zero, toFloat_lt_iff, order_zero, isNaN_ofMagnitude (Nat.zero_le _)]
  simp

/-- A number of positive order is positive. -/
theorem of_zero_lt_order (h : 0 < x.order) : x.negative = false ∧ x.order = x.magnitude := by
  unfold order at *
  cases hsign : x.negative with
  | false => exact ⟨rfl, rfl⟩
  | true => simp [hsign] at h; omega

/-! ### Integers -/

/-- An integer mantissa below `2 ^ 53` is packed as it is. -/
theorem packed_normalize_natCast {n : Nat} (hn : n < 2 ^ 53) :
    packed (normalize .binary64 n 0 .positive) = ofMagnitude false (nearest n 1) := by
  have hlt : nearest n 1 < infinity := (units_nearest_natCast hn).1
  have hone : Nat.pow 2 0 = 1 := rfl
  rcases Nat.eq_zero_or_pos n with rfl | hpos
  · decide +kernel
  · unfold UnpackedFloat.normalize
    rw [Int.compare_eq_gt.mpr (by omega)]
    have hround := packed_round false hpos (a := 0) (b := 0) (e := 0) rfl
    rw [hone, Nat.mul_one, Nat.min_eq_right (Nat.le_of_lt hlt)] at hround
    exact hround

/-- Every byte is a number. -/
theorem ofFloat_byte (n : UInt8) : ofFloat n.toFloat = ofMagnitude false (nearest n.toNat 1) :=
  packed_normalize_natCast (Nat.lt_trans n.toNat_lt (by decide))

/-- A natural number below `2 ^ 53` is a number, and not only near to one. -/
theorem ofFloat_natCast {n : Nat} (hn : n < 2 ^ 53) :
    ofFloat (Float.ofNat n) = ofMagnitude false (nearest n 1) := by
  have hlt : nearest n 1 < infinity := (units_nearest_natCast hn).1
  -- the integer itself, which is then multiplied by the zeroth power of ten
  have hinteger : ofFloat n.toUInt64.toFloat = ofMagnitude false (nearest n 1) := by
    have hword : n.toUInt64.toNat = n := by
      rw [Nat.toUInt64_eq, UInt64.toNat_ofNat', Nat.mod_eq_of_lt (by omega)]
    show packed (UnpackedFloat.normalize .binary64 (n.toUInt64.toNat : Int) 0 .positive) = _
    rw [hword, packed_normalize_natCast hn]
  have hvalue : Float.ofNat n = (ofMagnitude false (nearest n 1)).toFloat * 1.0 := by
    have hone : Float.exactlyRepresentablePowersOfTen[0] = 1.0 := by decide +kernel
    show (if h : n < 2 ^ 53 ∧ 0 ≤ 22 then _ else _) = _
    rw [dif_pos ⟨hn, by decide⟩, ← hinteger, toFloat_ofFloat, if_neg Bool.false_ne_true, hone]
  rw [hvalue, mul_one (isFinite_ofMagnitude hlt false)]

/-- A quotient of natural numbers below `2 ^ 53` is the number nearest to it. -/
theorem ofFloat_natCast_div {m n : Nat} (hm : m < 2 ^ 53) (hn : n < 2 ^ 53) (hpos : 0 < n) :
    ofFloat (Float.ofNat m / Float.ofNat n)
      = ofMagnitude false (min infinity (nearest m n)) := by
  have hnumber : ∀ k < 2 ^ 53, ∃ d : Double, d.toFloat = Float.ofNat k ∧ d.isFinite = true
      ∧ d.negative = false ∧ units d.magnitude = k * Nat.pow 2 unitBits := by
    intro k hk
    obtain ⟨hlt, hunits⟩ := units_nearest_natCast hk
    have hmagnitude : nearest k 1 < signBit := Nat.lt_trans hlt (by decide)
    refine ⟨ofMagnitude false (nearest k 1), ?_, isFinite_ofMagnitude hlt false,
      negative_ofMagnitude hmagnitude false, ?_⟩
    · rw [← ofFloat_natCast hk, toFloat_ofFloat]
    · rw [magnitude_ofMagnitude hmagnitude, hunits]
  obtain ⟨x, hx, hxfinite, hxsign, hxunits⟩ := hnumber m hm
  obtain ⟨y, hy, hyfinite, hysign, hyunits⟩ := hnumber n hn
  have hypos : 0 < y.magnitude := by
    -- a zero would have no units
    by_contra hzero
    have hmagnitude : y.magnitude = 0 := by omega
    rw [hmagnitude, units_zero] at hyunits
    exact Nat.ne_of_gt (Nat.mul_pos hpos unit_pos) hyunits.symm
  rw [← hx, ← hy, ofFloat_div hxfinite hyfinite hypos, hxsign, hysign, hxunits, hyunits,
    nearest_mul_right m n unit_pos]
  rfl

end LightShow.Double
