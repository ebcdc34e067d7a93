import LightShow.Double
import LightShow.Proofs.Double.Order
import Mathlib

namespace LightShow.Double

/-!
# Comparing numbers by their bit patterns

Of two numbers that are no NaNs, the one of smaller `order` is smaller: the magnitude, counted
downwards if the sign bit is set. Both zeros have the order 0, which is where this differs from the
total order of bit patterns.

* `unpack_of_finite` and the like — the parts of a number, read off its magnitude;
* `compare_toFloat` — numbers are compared as their orders are;
* `le_trans`, `lt_of_lt_of_le`, `le_of_not_lt`, `le_of_le_of_rank_le` and the like — what follows for
  the order of numbers and for the total order.
-/

open Float.Model UnpackedFloat

/-! ### The parts of a number -/

/-- The sign of a number. -/
def sign (d : Double) : Sign := if d.negative then .negative else .positive

/-- A magnitude leaves the sign bit free. -/
theorem magnitude_lt (d : Double) : d.magnitude < signBit := Nat.mod_lt _ (by decide)

/-- Making a number of bits and taking it apart is taking the bits apart. -/
theorem unpack_ofBits (bits : UInt64) :
    (Float.ofBits bits).toModel.unpack
      = UnpackedFloat.unpack Format.binary64 bits.toBitVec := by
  show UnpackedFloat.unpack Format.binary64
    (UnpackedFloat.pack Format.binary64 (UnpackedFloat.unpack Format.binary64 bits.toBitVec)) = _
  rw [pack_unpack]
  split
  · next h =>
    -- all NaNs are made the same one
    rw [isNaNBits, decide_eq_true_eq] at h
    rw [unpack_packedNaN]
    unfold UnpackedFloat.unpack
    rw [if_pos h.1, if_neg h.2]
  · rfl

section Fields

variable (d : Double)

/-- The field of the exponent is the magnitude without its last 52 bits. -/
theorem toNat_unpackExponent :
    (@unpackExponent Format.binary64 d.bits.toBitVec).toNat = d.magnitude / binade := by
  rw [unpackExponent_def, BitVec.extractLsb'_toNat, Nat.shiftRight_eq_div_pow]
  show d.bits.toNat / 2 ^ 52 % 2 ^ 11 = d.bits.toNat % signBit / binade
  unfold signBit binade
  omega

/-- The field of the exponent is known once its number is. -/
theorem unpackExponent_eq_iff (e : BitVec 11) :
    @unpackExponent Format.binary64 d.bits.toBitVec = e
      ↔ d.magnitude / binade = e.toNat := by
  rw [← BitVec.toNat_inj, toNat_unpackExponent]

/-- The field of the mantissa is the last 52 bits of the magnitude. -/
theorem toNat_unpackMantissa :
    (@unpackMantissa Format.binary64 d.bits.toBitVec).toNat = d.magnitude % binade := by
  rw [unpackMantissa_def, BitVec.extractLsb'_toNat]
  show d.bits.toNat >>> 0 % 2 ^ 52 = d.bits.toNat % signBit % binade
  rw [Nat.shiftRight_zero]
  unfold signBit binade
  omega

theorem unpackMantissa_eq_zero_iff :
    @unpackMantissa Format.binary64 d.bits.toBitVec = 0#52
      ↔ d.magnitude % binade = 0 := by
  rw [← BitVec.toNat_inj, toNat_unpackMantissa]
  rfl

/-- The sign is read off the first bit. -/
theorem ofBitVec_unpackSign :
    Sign.ofBitVec (@unpackSign Format.binary64 d.bits.toBitVec) = d.sign := by
  have hlt : d.bits.toNat < 2 * signBit := d.bits.toNat_lt
  have hbit : (@unpackSign Format.binary64 d.bits.toBitVec).toNat
      = d.bits.toNat / signBit % 2 := by
    rw [unpackSign_def, BitVec.extractLsb'_toNat, Nat.shiftRight_eq_div_pow]
    rfl
  have hzero : @unpackSign Format.binary64 d.bits.toBitVec = 0#1
      ↔ ¬ signBit ≤ d.bits.toNat := by
    rw [← BitVec.toNat_inj, hbit]
    show d.bits.toNat / signBit % 2 = 0 ↔ _
    unfold signBit at *
    omega
  unfold Sign.ofBitVec sign negative
  by_cases h : signBit ≤ d.bits.toNat
  · rw [if_neg (fun hz => hzero.mp hz h), if_pos (decide_eq_true h)]
  · rw [if_pos (hzero.mpr h), decide_eq_false h, if_neg Bool.false_ne_true]

end Fields

variable {d : Double}

/-- A magnitude above the infinite one is that of a NaN. -/
theorem unpack_of_isNaN (h : d.isNaN = true) : d.toFloat.toModel.unpack = .notANumber := by
  have hbound := d.magnitude_lt
  have hinf : infinity < d.magnitude := of_decide_eq_true h
  have hexponent : d.magnitude / binade = (-1#11).toNat := by
    show d.magnitude / binade = 2047
    unfold signBit infinity binade at *
    omega
  have hmantissa : ¬ d.magnitude % binade = 0 := by
    unfold signBit infinity binade at *
    omega
  rw [toFloat, unpack_ofBits]
  unfold UnpackedFloat.unpack
  dsimp only
  rw [if_pos ((unpackExponent_eq_iff d _).mpr hexponent),
    if_neg (mt (unpackMantissa_eq_zero_iff d).mp hmantissa)]

/-- The infinite magnitude is that of an infinity. -/
theorem unpack_of_infinite (h : d.magnitude = infinity) :
    d.toFloat.toModel.unpack = .infinity d.sign := by
  have hexponent : d.magnitude / binade = (-1#11).toNat := by rw [h]; rfl
  have hmantissa : d.magnitude % binade = 0 := by rw [h]; rfl
  rw [toFloat, unpack_ofBits]
  unfold UnpackedFloat.unpack
  dsimp only
  rw [if_pos ((unpackExponent_eq_iff d _).mpr hexponent),
    if_pos ((unpackMantissa_eq_zero_iff d).mpr hmantissa), ofBitVec_unpackSign]

/-- The magnitude 0 is that of a zero, of either sign. -/
theorem unpack_of_zero (h : d.magnitude = 0) : d.toFloat.toModel.unpack = .zero d.sign := by
  have hexponent : d.magnitude / binade = 0 := by rw [h]; rfl
  have hmantissa : d.magnitude % binade = 0 := by rw [h]; rfl
  have hall : ¬ d.magnitude / binade = (-1#11).toNat := by rw [hexponent]; decide
  rw [toFloat, unpack_ofBits]
  unfold UnpackedFloat.unpack
  dsimp only
  rw [if_neg (mt (unpackExponent_eq_iff d _).mp hall),
    if_pos ((unpackExponent_eq_iff d 0#11).mpr hexponent),
    dif_pos ((unpackMantissa_eq_zero_iff d).mpr hmantissa), ofBitVec_unpackSign]

/-- Only zero has the mantissa 0. -/
theorem mantissa_pos {magnitude : Nat} (h : 0 < magnitude) : 0 < mantissa magnitude := by
  unfold mantissa binade
  split <;> omega

/-- All other numbers are finite, with the exponent and the mantissa of the magnitude. -/
theorem unpack_of_finite (hpos : 0 < d.magnitude) (hlt : d.magnitude < infinity) :
    d.toFloat.toModel.unpack
      = .finite d.sign (mantissa d.magnitude) (exponent d.magnitude - unitBits)
          (mantissa_pos hpos) := by
  have hall : ¬ d.magnitude / binade = (-1#11).toNat := by
    show ¬ d.magnitude / binade = 2047
    unfold infinity binade at *
    omega
  rw [toFloat, unpack_ofBits]
  unfold UnpackedFloat.unpack
  dsimp only
  rw [if_neg (mt (unpackExponent_eq_iff d _).mp hall), ofBitVec_unpackSign]
  by_cases hsmall : d.magnitude < binade
  · -- a number of the lowest exponent, without a leading one of its own
    have hexponent : d.magnitude / binade = 0 := Nat.div_eq_of_lt hsmall
    have hmantissa : d.magnitude % binade = d.magnitude := Nat.mod_eq_of_lt hsmall
    have hne : ¬ d.magnitude % binade = 0 := by omega
    rw [if_pos ((unpackExponent_eq_iff d 0#11).mpr hexponent),
      dif_neg (mt (unpackMantissa_eq_zero_iff d).mp hne), UnpackedFloat.finite.injEq]
    refine ⟨rfl, ?_, ?_⟩
    · rw [toNat_unpackMantissa, hmantissa, mantissa, if_pos hsmall]
    · rw [toNat_unpackExponent, exponent, hexponent]
      rfl
  · -- the leading one, which is not written, is put in front of the mantissa
    have hexponent : ¬ d.magnitude / binade = (0#11).toNat := by
      show ¬ d.magnitude / binade = 0
      unfold binade at *
      omega
    rw [if_neg (mt (unpackExponent_eq_iff d 0#11).mp hexponent), UnpackedFloat.finite.injEq]
    refine ⟨rfl, ?_, ?_⟩
    · rw [BitVec.toNat_append, ← Nat.shiftLeft_add_eq_or_of_lt (BitVec.isLt _),
        toNat_unpackMantissa, mantissa, if_neg hsmall]
      rfl
    · rw [toNat_unpackExponent]
      show ((d.magnitude / binade : Nat) : Int) - (1023 + 52)
        = ((d.magnitude / binade - 1 : Nat) : Int) - 1074
      have hne : ¬ d.magnitude / binade = 0 := hexponent
      generalize d.magnitude / binade = q at hne
      omega

/-! ### Comparisons -/

/-- The integer by which a number is compared. -/
def order (d : Double) : Int := if d.negative then -(d.magnitude : Int) else d.magnitude

/-- A smaller magnitude has the smaller exponent, or the same one and the smaller mantissa. -/
theorem compare_parts_of_lt {m n : Nat} (h : m < n) :
    (compare ((exponent m : Int) - unitBits) (exponent n - unitBits)).then
      (compare (mantissa m) (mantissa n)) = .lt := by
  rw [Ordering.then_eq_lt, Int.compare_eq_lt, Int.compare_eq_eq, Nat.compare_eq_lt]
  unfold exponent mantissa binade
  split <;> split <;> omega

/-- Magnitudes are compared by their exponents, then by their mantissas. -/
theorem compare_parts (m n : Nat) :
    (compare ((exponent m : Int) - unitBits) (exponent n - unitBits)).then
      (compare (mantissa m) (mantissa n)) = compare m n := by
  rcases Nat.lt_trichotomy m n with h | rfl | h
  · rw [compare_parts_of_lt h, Nat.compare_eq_lt.mpr h]
  · simp only [Std.ReflCmp.compare_self]
    rfl
  · have hswap := congrArg Ordering.swap (compare_parts_of_lt h)
    rw [Ordering.swap_then, ← Std.OrientedOrd.eq_swap, ← Std.OrientedOrd.eq_swap] at hswap
    rw [hswap, Nat.compare_eq_gt.mpr h]
    rfl

/-- The kind of a number is that of its magnitude. -/
theorem unpack_cases (h : d.isNaN = false) :
    (d.magnitude = 0 ∧ d.toFloat.toModel.unpack = .zero d.sign)
    ∨ (∃ hpos : 0 < d.magnitude, d.magnitude < infinity ∧ d.toFloat.toModel.unpack
        = .finite d.sign (mantissa d.magnitude) (exponent d.magnitude - unitBits)
            (mantissa_pos hpos))
    ∨ (d.magnitude = infinity ∧ d.toFloat.toModel.unpack = .infinity d.sign) := by
  have hle : d.magnitude ≤ infinity := Nat.not_lt.mp (of_decide_eq_false h)
  rcases Nat.eq_zero_or_pos d.magnitude with hzero | hpos
  · exact .inl ⟨hzero, unpack_of_zero hzero⟩
  · rcases Nat.eq_or_lt_of_le hle with hinf | hlt
    · exact .inr (.inr ⟨hinf, unpack_of_infinite hinf⟩)
    · exact .inr (.inl ⟨hpos, hlt, unpack_of_finite hpos hlt⟩)

/-- The order of a number is its magnitude with its sign. -/
theorem sign_order (d : Double) :
    (d.sign = .positive ∧ d.order = d.magnitude)
    ∨ (d.sign = .negative ∧ d.order = -(d.magnitude : Int)) := by
  unfold sign order
  cases d.negative with
  | false => exact .inl ⟨rfl, rfl⟩
  | true => exact .inr ⟨rfl, rfl⟩

theorem compare_natCast (m n : Nat) : compare (m : Int) n = compare m n := by
  rcases Nat.lt_trichotomy m n with h | rfl | h
  · rw [Nat.compare_eq_lt.mpr h, Int.compare_eq_lt.mpr (by omega)]
  · simp only [Std.ReflCmp.compare_self]
  · rw [Nat.compare_eq_gt.mpr h, Int.compare_eq_gt.mpr (by omega)]

theorem compare_neg (m n : Int) : compare (-m) (-n) = compare n m := by
  rcases Int.lt_trichotomy m n with h | rfl | h
  · rw [Int.compare_eq_gt.mpr h, Int.compare_eq_gt.mpr (by omega)]
  · simp only [Std.ReflCmp.compare_self]
  · rw [Int.compare_eq_lt.mpr h, Int.compare_eq_lt.mpr (by omega)]

/-- **Comparison.** Numbers that are no NaNs are compared as their orders are. -/
theorem compare_toFloat {a b : Double} (ha : a.isNaN = false) (hb : b.isNaN = false) :
    a.toFloat.toModel.unpack.compare b.toFloat.toModel.unpack = some (compare a.order b.order) := by
  have hinf : 0 < infinity := by decide
  have hlt : a.order < b.order → some Ordering.lt = some (compare a.order b.order) :=
    fun h => congrArg some (Int.compare_eq_lt.mpr h).symm
  have heq : a.order = b.order → some Ordering.eq = some (compare a.order b.order) :=
    fun h => congrArg some (Int.compare_eq_eq.mpr h).symm
  have hgt : b.order < a.order → some Ordering.gt = some (compare a.order b.order) :=
    fun h => congrArg some (Int.compare_eq_gt.mpr h).symm
  -- the kinds and the signs decide, unless both numbers are finite and of one sign
  rcases unpack_cases ha with ⟨hm, hx⟩ | ⟨hm, hm', hx⟩ | ⟨hm, hx⟩ <;>
    rcases unpack_cases hb with ⟨hn, hy⟩ | ⟨hn, hn', hy⟩ | ⟨hn, hy⟩ <;>
    rcases sign_order a with ⟨hs, ho⟩ | ⟨hs, ho⟩ <;>
    rcases sign_order b with ⟨ht, hp⟩ | ⟨ht, hp⟩ <;>
    rw [hx, hy, hs, ht] <;>
    first | exact hlt (by omega) | exact heq (by omega) | exact hgt (by omega) | skip
  · -- both positive
    refine congrArg some ?_
    rw [compare_parts, ho, hp, compare_natCast]
  · -- both negative, so that the larger magnitude is the smaller number
    refine congrArg some ?_
    rw [compare_parts, ho, hp, compare_neg, compare_natCast, ← Std.OrientedOrd.eq_swap]

/-- A number is at most another one if its order is, and neither of them is a NaN. -/
theorem toFloat_le_iff {a b : Double} :
    a.toFloat ≤ b.toFloat ↔ a.isNaN = false ∧ b.isNaN = false ∧ a.order ≤ b.order := by
  rw [le_iff_compare]
  cases ha : a.isNaN with
  | true =>
    rw [unpack_of_isNaN ha]
    exact ⟨nofun, nofun⟩
  | false =>
    cases hb : b.isNaN with
    | true =>
      rw [compare_swap, unpack_of_isNaN hb]
      exact ⟨nofun, nofun⟩
    | false =>
      rw [compare_toFloat ha hb, Option.any_some, Std.isLE_compare]
      exact ⟨fun h => ⟨rfl, rfl, h⟩, fun h => h.2.2⟩

/-- A number is below another one if its order is smaller, and neither of them is a NaN. -/
theorem toFloat_lt_iff {a b : Double} :
    a.toFloat < b.toFloat ↔ a.isNaN = false ∧ b.isNaN = false ∧ a.order < b.order := by
  rw [lt_iff_compare]
  cases ha : a.isNaN with
  | true =>
    rw [unpack_of_isNaN ha]
    exact ⟨nofun, nofun⟩
  | false =>
    cases hb : b.isNaN with
    | true =>
      rw [compare_swap, unpack_of_isNaN hb]
      exact ⟨nofun, nofun⟩
    | false =>
      rw [compare_toFloat ha hb, Option.some.injEq, Int.compare_eq_lt]
      exact ⟨fun h => ⟨rfl, rfl, h⟩, fun h => h.2.2⟩

/-- Every number is the number of a bit pattern. -/
theorem toFloat_ofFloat (x : Float) : (ofFloat x).toFloat = x := Float.ofBits_toBits x

theorem le_iff_order {x y : Float} : x ≤ y ↔ (ofFloat x).isNaN = false ∧ (ofFloat y).isNaN = false
    ∧ (ofFloat x).order ≤ (ofFloat y).order := by
  rw [← toFloat_le_iff, toFloat_ofFloat, toFloat_ofFloat]

theorem lt_iff_order {x y : Float} : x < y ↔ (ofFloat x).isNaN = false ∧ (ofFloat y).isNaN = false
    ∧ (ofFloat x).order < (ofFloat y).order := by
  rw [← toFloat_lt_iff, toFloat_ofFloat, toFloat_ofFloat]

/-- What is below some number is no NaN, so that it is not above itself. -/
theorem le_self_of_lt {x y : Float} (h : x < y) : x ≤ x := by
  rw [lt_iff_order] at h
  rw [le_iff_order]
  exact ⟨h.1, h.1, Int.le_refl _⟩

/-- Numbers that can be compared are no NaNs. -/
theorem le_self_of_le {x y : Float} (h : x ≤ y) : x ≤ x ∧ y ≤ y := by
  rw [le_iff_order] at h
  rw [le_iff_order, le_iff_order]
  exact ⟨⟨h.1, h.1, Int.le_refl _⟩, h.2.1, h.2.1, Int.le_refl _⟩

theorem le_of_lt {x y : Float} (h : x < y) : x ≤ y := by
  rw [lt_iff_order] at h
  rw [le_iff_order]
  exact ⟨h.1, h.2.1, Int.le_of_lt h.2.2⟩

/-- What is below a number is below all larger ones. NaNs need no case of their own, since no
    comparison with them holds. -/
theorem lt_of_lt_of_le {x y z : Float} (hxy : x < y) (hyz : y ≤ z) : x < z := by
  rw [lt_iff_order] at hxy ⊢
  rw [le_iff_order] at hyz
  exact ⟨hxy.1, hyz.2.1, Int.lt_of_lt_of_le hxy.2.2 hyz.2.2⟩

theorem lt_of_le_of_lt {x y z : Float} (hxy : x ≤ y) (hyz : y < z) : x < z := by
  rw [le_iff_order] at hxy
  rw [lt_iff_order] at hyz ⊢
  exact ⟨hxy.1, hyz.2.1, Int.lt_of_le_of_lt hxy.2.2 hyz.2.2⟩

theorem le_trans {x y z : Float} (hxy : x ≤ y) (hyz : y ≤ z) : x ≤ z := by
  rw [le_iff_order] at hxy hyz ⊢
  exact ⟨hxy.1, hyz.2.1, Int.le_trans hxy.2.2 hyz.2.2⟩

/-- Of two numbers that are no NaNs, one is not above the other. -/
theorem le_of_not_lt {x y : Float} (hx : x ≤ x) (hy : y ≤ y) (h : ¬ x < y) : y ≤ x := by
  rw [lt_iff_order] at h
  rw [le_iff_order] at hx hy ⊢
  exact ⟨hy.1, hx.1, Int.le_of_not_gt fun hlt => h ⟨hx.1, hy.1, hlt⟩⟩

/-- What is above some number and what is below some number are no NaNs, so that one of them is the
    smaller one. -/
theorem lt_of_not_le {w x y z : Float} (hx : w < x) (hy : y < z) (h : ¬ x ≤ y) : y < x := by
  rw [le_iff_order] at h
  rw [lt_iff_order] at hx hy ⊢
  exact ⟨hy.1, hx.2.1, Int.lt_of_not_ge fun hle => h ⟨hx.2.1, hy.1, hle⟩⟩

/-! ### The total order -/

/-- The total order refines the order of numbers: it only tells the two zeros apart. -/
theorem order_le_of_rank_le {a b : Double} (h : a.rank ≤ b.rank) : a.order ≤ b.order := by
  revert h
  unfold rank order
  cases a.negative <;> cases b.negative <;>
    simp only [if_true, if_false, Bool.false_eq_true] <;> omega

/-- In the total order, numbers that are no NaNs come as they are: what is not above one of them is
    not above a later one either. -/
theorem le_of_le_of_rank_le {x y : Float} {a b : Double} (hx : x ≤ a.toFloat) (hy : y ≤ b.toFloat)
    (h : a.rank ≤ b.rank) : x ≤ b.toFloat := by
  rw [← toFloat_ofFloat x, toFloat_le_iff] at hx ⊢
  rw [← toFloat_ofFloat y, toFloat_le_iff] at hy
  exact ⟨hx.1, hy.2.1, hx.2.2.trans (order_le_of_rank_le h)⟩

end LightShow.Double
