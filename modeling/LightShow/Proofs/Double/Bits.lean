import LightShow.Double

namespace LightShow.Double

/-!
# Numbers put together from their parts

* `negative_ofMagnitude`, `magnitude_ofMagnitude`, `ofMagnitude_magnitude` — a number is a sign bit
  and a magnitude;
* `packed_zero`, `packed_infinity`, `packed_finite` — the magnitude that arithmetic packs its parts
  into.
-/

/-! ### Sign and magnitude -/

variable {m : Nat} (h : m < signBit)
include h

/-- The bits of a number with a given sign and magnitude. -/
theorem toNat_bits_ofMagnitude (negative : Bool) :
    (ofMagnitude negative m).bits.toNat = if negative then signBit + m else m := by
  show (UInt64.ofNat _).toNat = _
  rw [UInt64.toNat_ofNat', Nat.mod_eq_of_lt]
  unfold signBit at *
  split <;> omega

/-- The magnitude is read off the bits again. -/
theorem magnitude_ofMagnitude (negative : Bool) : (ofMagnitude negative m).magnitude = m := by
  unfold magnitude
  rw [toNat_bits_ofMagnitude h]
  cases negative with
  | false => exact Nat.mod_eq_of_lt h
  | true => rw [if_pos rfl, Nat.add_mod_left, Nat.mod_eq_of_lt h]

/-- The sign is read off the bits again. -/
theorem negative_ofMagnitude (negative : Bool) : (ofMagnitude negative m).negative = negative := by
  unfold Double.negative
  rw [toNat_bits_ofMagnitude h]
  cases negative with
  | false => simpa using h
  | true => simp

omit h

/-- A double is put together from its sign and its magnitude. -/
theorem ofMagnitude_magnitude (d : Double) : ofMagnitude d.negative d.magnitude = d := by
  have hlt : d.bits.toNat < 2 * signBit := d.bits.toNat_lt
  unfold ofMagnitude negative magnitude
  by_cases hsign : signBit ≤ d.bits.toNat
  · have hmod : d.bits.toNat % signBit = d.bits.toNat - signBit := by
      rw [Nat.mod_eq_sub_mod hsign, Nat.mod_eq_of_lt (by omega)]
    rw [if_pos (decide_eq_true hsign), hmod, Nat.add_sub_cancel' hsign, UInt64.ofNat_toNat]
  · rw [if_neg (by simpa using hsign), Nat.mod_eq_of_lt (by omega), UInt64.ofNat_toNat]

/-! ### Results of arithmetic -/

open Float.Model UnpackedFloat

/-- A sign by its bit. -/
def signOf (negative : Bool) : Sign := if negative then .negative else .positive

/-- The bit pattern of a result. -/
def packed (u : UnpackedFloat) : Double := ⟨UInt64.ofBitVec (UnpackedFloat.pack Format.binary64 u)⟩

/-- Sign, exponent bits and fraction bits, one behind the other. -/
theorem ofBitVec_packComponents (negative : Bool) {e : Nat} (he : e < 2048) (m : Nat) :
    (⟨UInt64.ofBitVec (packComponents Format.binary64 (signOf negative) (BitVec.ofNat 11 e)
      (BitVec.ofNat 52 m))⟩ : Double) = ofMagnitude negative (e * binade + m % binade) := by
  have hm : m % binade < binade := Nat.mod_lt _ (by decide)
  have hmagnitude : e * binade + m % binade < signBit := by
    unfold binade signBit at *
    omega
  have hsign : (signOf negative).toBitVec.toNat = if negative then 1 else 0 := by
    cases negative <;> rfl
  -- fields that are put behind one another are summands, since each leaves room for the next
  refine congrArg Double.mk (UInt64.toNat_inj.mp ?_)
  show (packComponents Format.binary64 (signOf negative) (BitVec.ofNat 11 e)
    (BitVec.ofNat 52 m)).toNat = (UInt64.ofNat _).toNat
  unfold packComponents
  rw [BitVec.toNat_append, ← Nat.shiftLeft_add_eq_or_of_lt (BitVec.isLt _), BitVec.toNat_append,
    ← Nat.shiftLeft_add_eq_or_of_lt (BitVec.isLt _), hsign, BitVec.toNat_ofNat,
    BitVec.toNat_ofNat, Nat.shiftLeft_eq, Nat.shiftLeft_eq, UInt64.toNat_ofNat']
  unfold binade signBit at *
  cases negative with
  | false => simp; omega
  | true => simp; omega

theorem packed_zero (negative : Bool) :
    packed (.zero (signOf negative)) = ofMagnitude negative 0 := by
  cases negative <;> decide +kernel

theorem packed_infinity (negative : Bool) :
    packed (.infinity (signOf negative)) = ofMagnitude negative infinity := by
  cases negative <;> decide +kernel

section Finite

variable {m e : Nat} (hlow : binade ≤ m ∨ e = 0) (hhigh : m < 2 * binade)
include hlow hhigh

/-- A mantissa with its leading one adds that one to the exponent bits, and one without it has none
    of them set. -/
theorem ofBitVec_finite (negative : Bool) (hm : 0 < m) (he : e + 1 < 2048) :
    (⟨UInt64.ofBitVec (if m.log2 + 1 = Format.mantissaBits Format.binary64 then
        packComponents Format.binary64 (signOf negative) (BitVec.ofNat 11 (e + 1))
          (BitVec.ofNat 52 m)
      else packComponents Format.binary64 (signOf negative) 0#11 (BitVec.ofNat 52 m))⟩ : Double)
      = ofMagnitude negative (e * binade + m) := by
  have hbits : m.log2 + 1 = Format.mantissaBits Format.binary64 ↔ binade ≤ m := by
    have hlog : 52 ≤ m.log2 ↔ 2 ^ 52 ≤ m := Nat.le_log2 (by omega)
    have hlog' : m.log2 < 53 := (Nat.log2_lt (by omega)).mpr hhigh
    show m.log2 + 1 = 53 ↔ 2 ^ 52 ≤ m
    omega
  split
  · next hnormal =>
    -- the field of the mantissa lacks the leading one, which the exponent makes up for
    have hnormal : binade ≤ m := hbits.mp hnormal
    have hrest : m % binade = m - binade := by
      rw [Nat.mod_eq_sub_mod hnormal, Nat.mod_eq_of_lt (by omega)]
    have hsum : (e + 1) * binade + m % binade = e * binade + m := by
      rw [hrest, Nat.succ_mul]
      omega
    rw [← hsum]
    exact ofBitVec_packComponents negative he m
  · next hsubnormal =>
    have hsubnormal : ¬ binade ≤ m := mt hbits.mpr hsubnormal
    obtain rfl : e = 0 := hlow.resolve_left hsubnormal
    have hall : 0 * binade + m % binade = 0 * binade + m := by
      rw [Nat.mod_eq_of_lt (by omega)]
    rw [← hall]
    exact ofBitVec_packComponents negative (e := 0) (by decide) m

/-- Packing puts an exponent and a mantissa together to a magnitude, which is infinite if the
    exponent is too large. A mantissa of fewer than fifty-three bits has the lowest exponent. -/
theorem packed_finite (negative : Bool) {f : Int} (hm : 0 < m) (hf : f + unitBits = e) :
    packed (.finite (signOf negative) m f hm)
      = ofMagnitude negative (min infinity (e * binade + m)) := by
  have hunit : unitBits = 1074 := rfl
  have hbiased : (f + (Format.exponentBias Format.binary64 : Nat)
      + (Format.mantissaBitsWithoutImplicit Format.binary64 : Nat)).toNat = e + 1 := by
    show (f + 1023 + 52).toNat = e + 1
    omega
  unfold packed UnpackedFloat.pack
  dsimp only
  rw [hbiased]
  split
  · next hlarge =>
    -- the infinity is the magnitude after all finite ones
    have hlarge : 2048 ≤ e + 1 + 1 := hlarge
    have hexponent : 2046 * binade ≤ e * binade := Nat.mul_le_mul_right _ (by omega)
    have hmin : min infinity (e * binade + m) = infinity := by
      refine Nat.min_eq_left ?_
      unfold infinity
      omega
    rw [hmin]
    exact packed_infinity negative
  · next hsmall =>
    have hsmall : ¬ 2048 ≤ e + 1 + 1 := hsmall
    have hexponent : (e + 1) * binade ≤ 2046 * binade := Nat.mul_le_mul_right _ (by omega)
    have hmin : min infinity (e * binade + m) = e * binade + m := by
      refine Nat.min_eq_right ?_
      rw [Nat.succ_mul] at hexponent
      unfold infinity
      omega
    rw [hmin]
    exact ofBitVec_finite hlow hhigh negative hm (by omega)

end Finite

end LightShow.Double
