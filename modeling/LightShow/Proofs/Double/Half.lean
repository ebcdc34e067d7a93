import LightShow.Proofs.Double.Monotone

namespace LightShow.Double

/-!
# One half more

A number is rounded to an integer by adding one half and dropping the fraction. The sum is itself a
rounded one, and it gets to the next integer too early if no number is left between the exact sum
and that integer. This happens to one number only, the last one below one half.

* `exists_value_eq` — integers of at most fifty-three bits, times a power of two, are values of
  numbers;
* `exists_units_between` — between one half more than a number and the next integer there is a
  number;
* `floor_add_half` — the whole part of a number with one half more;
* `IsHalfOf.add`, `IsHalfOf.sub` — sums and differences of half integers are exact;
* `toNat_toUInt8` — a number is made a byte by its whole part.
-/

open Float.Model UnpackedFloat

/-- An integer of at most fifty-three bits, times a power of two, is the value of a number. -/
theorem exists_value_eq {z : Int} {bits : Nat} (hz : z.natAbs < 2 ^ 53) (hlow : 52 ≤ bits)
    (hhigh : bits ≤ unitBits) :
    ∃ d : Double, d.isFinite = true ∧ d.value = z * (Nat.pow 2 bits : Nat) := by
  obtain ⟨m, hm, hunits⟩ := exists_units_eq hz hlow hhigh
  refine ⟨ofMagnitude (decide (z < 0)) m, isFinite_ofMagnitude hm _, ?_⟩
  rw [value_ofMagnitude hm, hunits, Int.natCast_mul]
  by_cases hneg : z < 0
  · have habs : (z.natAbs : Int) = -z := Int.ofNat_natAbs_of_nonpos (Int.le_of_lt hneg)
    simp [hneg, signOf, Sign.apply, habs]
  · have habs : (z.natAbs : Int) = z := Int.natAbs_of_nonneg (Int.not_lt.mp hneg)
    simp [hneg, signOf, Sign.apply, habs]

/-! ### The gap below an integer -/

/-- Units in one half, as a power of two. -/
def halfBits : Nat := 1073

theorem two_mul_half : 2 * Nat.pow 2 halfBits = Nat.pow 2 unitBits := by
  have hbits : unitBits = halfBits + 1 := rfl
  rw [hbits]
  generalize halfBits = bits
  exact Nat.pow_succ'.symm

theorem two_mul_half_cast : (2 : Int) * (Nat.pow 2 halfBits : Nat) = (Nat.pow 2 unitBits : Nat) := by
  exact_mod_cast two_mul_half

/-- One half, in units, is a power of two. -/
theorem units_half : units (1022 * binade) = Nat.pow 2 halfBits := by
  have hbits : halfBits = 52 + 1021 := rfl
  rw [hbits]
  exact units_power 1021

/-- The magnitude of the last number below one half. -/
def underHalf : Nat := 1022 * binade - 1

/-- Numbers of one exponent are multiples of one power of two, and so is a bound on smaller ones. -/
theorem units_le_pred {m n e : Nat} (hlow : binade < n) (hhigh : n < 2 * binade)
    (h : units m < n * Nat.pow 2 e) : units m ≤ (n - 1) * Nat.pow 2 e := by
  rw [← units_ofParts (.inl (Nat.le_of_lt hlow)) hhigh] at h
  rw [← units_ofParts (.inl (Nat.le_sub_one_of_lt hlow)) (by omega)]
  have hlt : m < e * binade + n := Nat.lt_of_not_le fun hle => Nat.not_le.mpr h (units_mono hle)
  exact units_mono (by omega)

/-- One half more than a number is followed by a number below one, unless it is the last number
    below one half. -/
theorem exists_units_between_one {m : Nat} (hm : m ≠ underHalf)
    (h : units m + Nat.pow 2 halfBits < Nat.pow 2 unitBits) :
    ∃ k < infinity, units m + Nat.pow 2 halfBits ≤ units k ∧ units k < Nat.pow 2 unitBits := by
  have hlast : units (1022 * binade - 2) + Nat.pow 2 halfBits = units (one - 1) := by
    decide +kernel
  have hbelow : m < 1022 * binade := by
    refine Nat.lt_of_not_le fun hle => ?_
    have hunits := units_mono hle
    rw [units_half] at hunits
    rw [← two_mul_half] at h
    omega
  have hm' : m ≤ 1022 * binade - 2 := by
    unfold underHalf at hm
    omega
  refine ⟨one - 1, by decide, ?_, ?_⟩
  · rw [← hlast]
    exact Nat.add_le_add_right (units_mono hm') _
  · rw [← units_one]
    exact units_lt_units (by decide)

/-- The mantissas of the numbers just below an integer greater than one: one half is `2 ^ s` of their
    steps, and they keep their fifty-three bits if one half is added or subtracted. -/
theorem exists_steps {n : Nat} (hone : 1 < n) (hn : n ≤ 2 ^ 52) :
    ∃ e s, e + s = 51 ∧ binade + 2 ^ s ≤ (2 * n - 1) * 2 ^ s ∧ 2 * n * 2 ^ s ≤ 2 * binade := by
  have hlog : (n - 1).log2 < 52 := (Nat.log2_lt (by omega)).mpr (by omega)
  obtain ⟨e, he⟩ : ∃ e, (n - 1).log2 = e := ⟨_, rfl⟩
  have hlow : 2 ^ e ≤ n - 1 := he ▸ Nat.log2_self_le (by omega)
  have hhigh : n - 1 < 2 ^ e * 2 := he ▸ Nat.lt_log2_self
  obtain ⟨s, hsum⟩ : ∃ s, e + s = 51 := ⟨51 - e, by omega⟩
  have hbinade : binade = 2 * 2 ^ e * 2 ^ s := by
    rw [Nat.mul_assoc, ← Nat.pow_add, hsum]
    rfl
  refine ⟨e, s, hsum, ?_, ?_⟩
  · rw [hbinade, ← Nat.succ_mul]
    exact Nat.mul_le_mul_right _ (by omega)
  · rw [hbinade, ← Nat.mul_assoc]
    exact Nat.mul_le_mul_right _ (by omega)

/-- One half more than a number is followed by a number below an integer greater than one. -/
theorem exists_units_between_of_one_lt {m n : Nat} (hone : 1 < n) (hn : n ≤ 2 ^ 52)
    (h : units m + Nat.pow 2 halfBits < n * Nat.pow 2 unitBits) :
    ∃ k < infinity, units m + Nat.pow 2 halfBits ≤ units k
      ∧ units k < n * Nat.pow 2 unitBits := by
  obtain ⟨e, s, hsum, hlower, hupper⟩ := exists_steps hone hn
  have hpos : 0 < 2 ^ s := Nat.two_pow_pos s
  have hdouble : 2 * n * 2 ^ s = (2 * n - 1) * 2 ^ s + 2 ^ s := by
    rw [← Nat.succ_mul]
    exact congrArg (· * 2 ^ s) (by omega)
  -- one half and the integer, in steps
  have hhalf : Nat.pow 2 halfBits = 2 ^ s * Nat.pow 2 (1022 + e) := by
    have hbits : halfBits = s + (1022 + e) := by
      unfold halfBits
      omega
    rw [hbits]
    exact Nat.pow_add 2 s (1022 + e)
  have hunit : n * Nat.pow 2 unitBits = 2 * n * 2 ^ s * Nat.pow 2 (1022 + e) := by
    rw [← two_mul_half, hhalf]
    ring
  have hbits : 1022 + e ≤ unitBits := by
    unfold unitBits
    omega
  have hbound : 2 * n * 2 ^ s - 1 < 2 ^ 53 := by
    unfold binade at hupper
    omega
  -- the number one step below the integer
  obtain ⟨k, hk, hunits⟩ := exists_units_eq hbound (by omega) hbits
  rw [hunit, hhalf] at h ⊢
  have hbelow : units m < (2 * n - 1) * 2 ^ s * Nat.pow 2 (1022 + e) := by
    rw [hdouble, Nat.add_mul] at h
    omega
  have hpred := units_le_pred (by omega) (by omega) hbelow
  refine ⟨k, hk, ?_, ?_⟩
  · calc units m + 2 ^ s * Nat.pow 2 (1022 + e)
        ≤ ((2 * n - 1) * 2 ^ s - 1) * Nat.pow 2 (1022 + e) + 2 ^ s * Nat.pow 2 (1022 + e) :=
          Nat.add_le_add_right hpred _
      _ = (2 * n * 2 ^ s - 1) * Nat.pow 2 (1022 + e) := by
          rw [← Nat.add_mul]
          exact congrArg (· * _) (by omega)
      _ = units k := hunits.symm
  · rw [hunits]
    exact Nat.mul_lt_mul_of_pos_right (by omega) (Nat.two_pow_pos _)

/-! ### The whole part of a sum with one half -/

theorem ofFloat_half : ofFloat 0.5 = ofMagnitude false (1022 * binade) := by
  decide +kernel

theorem isFinite_half : (ofFloat 0.5).isFinite = true := by
  rw [ofFloat_half]
  exact isFinite_ofMagnitude (by decide) false

/-- One half has half the units of one. -/
theorem value_half : (ofFloat 0.5).value = (Nat.pow 2 halfBits : Nat) := by
  rw [ofFloat_half, value_ofMagnitude (by decide), units_half]
  rfl

/-- Between one half more than a number and an integer above it there is a number. -/
theorem exists_units_between {m n : Nat} (hm : m ≠ underHalf) (hn : n ≤ 2 ^ 52)
    (h : units m + Nat.pow 2 halfBits < n * Nat.pow 2 unitBits) :
    ∃ k < infinity, units m + Nat.pow 2 halfBits ≤ units k ∧ units k < n * Nat.pow 2 unitBits := by
  rcases Nat.lt_trichotomy n 1 with hzero | rfl | hone
  · rw [Nat.lt_one_iff.mp hzero, Nat.zero_mul] at h
    exact absurd h (Nat.not_lt_zero _)
  · rw [Nat.one_mul] at h ⊢
    exact exists_units_between_one hm h
  · exact exists_units_between_of_one_lt hone hn h

/-- **Rounding.** The whole part of a number with one half more is that of the exact sum, unless the
    number is the last one below one half. -/
theorem floor_add_half {x : Double} (hx : x.isFinite = true) (hne : x.magnitude ≠ underHalf)
    (hnonneg : 0 ≤ x.value)
    (hsmall : x.value + (Nat.pow 2 halfBits : Nat) < (2 ^ 52 : Nat) * (Nat.pow 2 unitBits : Nat)) :
    (ofFloat (x.toFloat + 0.5)).floor
      = (x.value + (Nat.pow 2 halfBits : Nat)) / (Nat.pow 2 unitBits : Nat) := by
  have hsum : RoundsTo (ofFloat (x.toFloat + 0.5)) (x.value + (Nat.pow 2 halfBits : Nat))
      (Nat.pow 2 unitBits) := by
    have hround := roundsTo_add hx isFinite_half
    rwa [toFloat_ofFloat, value_half] at hround
  obtain ⟨n, hn⟩ : ∃ n : Nat,
      (x.value + (Nat.pow 2 halfBits : Nat)) / (Nat.pow 2 unitBits : Nat) = n :=
    Int.eq_ofNat_of_zero_le (Int.ediv_nonneg (by omega) (Int.le_of_lt natCast_unit_pos))
  have hn52 : (n : Int) < (2 ^ 52 : Nat) := hn ▸ (Int.ediv_lt_iff_lt_mul natCast_unit_pos).mpr hsmall
  obtain ⟨hlow, hhigh⟩ := (Int.ediv_eq_iff_of_pos natCast_unit_pos).mp hn
  rw [floor_eq_ediv, hn, Int.ediv_eq_iff_of_pos natCast_unit_pos]
  constructor
  · -- `n` is a number itself, so that a sum that is not below it is not rounded below it
    obtain ⟨d, hd, hvalue⟩ : ∃ d : Double,
        d.isFinite = true ∧ d.value = n * (Nat.pow 2 unitBits : Nat) :=
      exists_value_eq (by omega) (by decide) (Nat.le_refl _)
    rw [← hvalue]
    exact (roundsTo_self hd).value_le_value hsum (hvalue ▸ hlow)
  · -- between the sum and `n + 1` there is another number, which stops the rounding
    rw [value_eq_units hnonneg] at hhigh
    obtain ⟨k, hk, hle, hlt⟩ := exists_units_between (n := n + 1) hne (by omega) (by
      rw [Nat.add_mul, Nat.one_mul]
      exact_mod_cast hhigh)
    have hvalue : (ofMagnitude false k).value = units k := value_ofMagnitude hk false
    have hbound := hsum.value_le_value (roundsTo_self (isFinite_ofMagnitude hk false))
      (by rw [hvalue, value_eq_units hnonneg]; exact_mod_cast hle)
    rw [hvalue] at hbound
    refine Int.lt_of_le_of_lt hbound ?_
    rw [Nat.add_mul, Nat.one_mul] at hlt
    exact_mod_cast hlt

/-! ### Half integers -/

/-- A number is exactly half of an integer. -/
structure IsHalfOf (d : Double) (n : Int) : Prop where
  finite : d.isFinite = true
  value : d.value = n * (Nat.pow 2 halfBits : Nat)

theorem isHalfOf_half : (ofFloat 0.5).IsHalfOf 1 :=
  ⟨isFinite_half, by rw [value_half, Int.one_mul]⟩

/-- A byte is half of twice its number. -/
theorem isHalfOf_byte (k : UInt8) : (ofFloat k.toFloat).IsHalfOf (2 * k.toNat) := by
  obtain ⟨hlt, hunits⟩ := units_nearest_natCast (Nat.lt_trans k.toNat_lt (by decide))
  have hvalue : (ofMagnitude false (nearest k.toNat 1)).value
      = (k.toNat * Nat.pow 2 unitBits : Nat) := by
    rw [value_ofMagnitude hlt, hunits]
    rfl
  rw [ofFloat_byte]
  refine ⟨isFinite_ofMagnitude hlt false, ?_⟩
  rw [hvalue, ← two_mul_half, Int.natCast_mul, Int.natCast_mul]
  ring

/-- A result that is half of a small integer is exact. -/
theorem RoundsTo.isHalfOf {d : Double} {n : Int}
    (h : RoundsTo d (n * (Nat.pow 2 halfBits : Nat)) (Nat.pow 2 unitBits))
    (hn : n.natAbs < 2 ^ 53) : d.IsHalfOf n := by
  obtain ⟨e, he, hvalue⟩ : ∃ e : Double,
      e.isFinite = true ∧ e.value = n * (Nat.pow 2 halfBits : Nat) :=
    exists_value_eq hn (by decide) (by decide)
  rw [← hvalue] at h
  exact ⟨h.isFinite he, h.value_eq he ▸ hvalue⟩

section Sums

variable {x y : Float} {m n : Int} (hx : (ofFloat x).IsHalfOf m) (hy : (ofFloat y).IsHalfOf n)
include hx hy

/-- Half integers are added exactly, as long as the sum is one that a number can be. -/
theorem IsHalfOf.add (h : (m + n).natAbs < 2 ^ 53) : (ofFloat (x + y)).IsHalfOf (m + n) := by
  have hround := roundsTo_add hx.finite hy.finite
  rw [toFloat_ofFloat, toFloat_ofFloat, hx.value, hy.value, ← Int.add_mul] at hround
  exact hround.isHalfOf h

/-- Half integers are subtracted exactly. -/
theorem IsHalfOf.sub (h : (m - n).natAbs < 2 ^ 53) : (ofFloat (x - y)).IsHalfOf (m - n) := by
  have hround := roundsTo_sub hy.finite hx.finite
  rw [toFloat_ofFloat, toFloat_ofFloat, hx.value, hy.value, ← Int.sub_mul] at hround
  exact hround.isHalfOf h

end Sums

/-! ### Bytes -/

/-- Dropping the fraction of a number, as its parts have it. -/
theorem roundToInt_eq (s : Sign) (m e : Nat) :
    roundToInt s m (e - unitBits) = s.apply (m * Nat.pow 2 e / Nat.pow 2 unitBits : Nat) := by
  unfold roundToInt decreaseExponent shiftToExponent
  dsimp only
  generalize unitBits = bits
  have hmantissa : ∀ a b : Nat,
      (ExtendedMantissa.ofMantissaAndAccuracy a .exact >>> b).mantissa = a / 2 ^ b := by
    intro a b
    have hrepresents := ((represents_ofFraction a Nat.one_pos).shiftRight Nat.one_pos b).mantissa
    rw [Nat.div_one, Nat.mod_one, Nat.one_mul] at hrepresents
    exact hrepresents
  rw [hmantissa]
  have hpower : ∀ a b, Nat.pow 2 (a + b) = Nat.pow 2 a * Nat.pow 2 b := fun a b => Nat.pow_add 2 a b
  rcases Nat.le_total bits e with hle | hle
  · -- an integer, of which nothing is cut off
    obtain ⟨more, rfl⟩ := Nat.exists_eq_add_of_le hle
    have hshift : ((bits + more : Nat) - (bits : Int) - 0).toNat = more := by omega
    have hnone : (0 - ((bits + more : Nat) - (bits : Int) - more)).toNat = 0 := by omega
    have hquotient : m * Nat.pow 2 (bits + more) / Nat.pow 2 bits = m * 2 ^ more := by
      rw [hpower, Nat.mul_left_comm]
      exact Nat.mul_div_cancel_left _ (Nat.two_pow_pos bits)
    rw [hshift, hnone, hquotient, Nat.shiftLeft_eq, Nat.pow_zero, Nat.div_one]
  · obtain ⟨more, rfl⟩ := Nat.exists_eq_add_of_le hle
    have hnone : ((e : Int) - (e + more : Nat) - 0).toNat = 0 := by omega
    have hshift : (0 - ((e : Int) - (e + more : Nat) - (0 : Nat))).toNat = more := by omega
    have hquotient : m * Nat.pow 2 e / Nat.pow 2 (e + more) = m / 2 ^ more := by
      rw [hpower, Nat.mul_comm]
      exact Nat.mul_div_mul_left _ _ (Nat.two_pow_pos e)
    rw [hnone, hshift, hquotient, Nat.shiftLeft_eq, Nat.pow_zero, Nat.mul_one]

/-- A negative number has no positive whole part. -/
theorem floor_nonpos {d : Double} (h : d.negative = true) : d.floor ≤ 0 := by
  have hvalue : d.value ≤ 0 := by
    unfold value
    rw [h, if_pos rfl]
    omega
  rw [floor_eq_ediv]
  refine Int.le_of_lt_add_one ((Int.ediv_lt_iff_lt_mul natCast_unit_pos).mpr ?_)
  rw [Int.zero_add, Int.one_mul]
  exact Int.lt_of_le_of_lt hvalue natCast_unit_pos

/-- What is too large for a byte becomes the largest one. -/
theorem toNat_ofNatClamp (n : Nat) : (UInt8.ofNatClamp n).toNat = min 255 n := by
  unfold UInt8.ofNatClamp
  split
  · next h => exact (Nat.min_eq_right (Nat.le_of_lt_succ h)).symm
  · next h => exact (Nat.min_eq_left (Nat.le_of_lt (Nat.not_lt.mp h))).symm

/-- A number is made a byte by its whole part, which is clamped to the range of a byte. -/
theorem toNat_toUInt8 {y : Double} (h : y.isNaN = false) :
    y.toFloat.toUInt8.toNat = min 255 y.floor.toNat := by
  show (UInt8.ofNatClamp (toInt 0 255 y.toFloat.toModel.unpack).toNat).toNat = _
  rw [toNat_ofNatClamp]
  -- by the sign, and then by the kind: zero, finite or infinite
  cases hsign : y.negative with
  | false =>
    have hpositive : y.sign = .positive := by
      unfold sign
      rw [hsign, if_neg Bool.false_ne_true]
    rw [floor_eq_div hsign, Int.toNat_natCast]
    rcases unpack_cases h with ⟨hzero, hparts⟩ | ⟨hpos, _, hparts⟩ | ⟨hinf, hparts⟩
    · rw [hparts, hzero, units_zero, Nat.zero_div]
      rfl
    · rw [hparts, hpositive, toInt, roundToInt_eq]
      rfl
    · have hlarge : 255 ≤ units infinity / Nat.pow 2 unitBits := by decide +kernel
      rw [hparts, hpositive, hinf, Nat.min_eq_left hlarge]
      rfl
  | true =>
    have hnegative : y.sign = .negative := by
      unfold sign
      rw [hsign, if_pos rfl]
    rw [Int.toNat_of_nonpos (floor_nonpos hsign)]
    rcases unpack_cases h with ⟨hzero, hparts⟩ | ⟨hpos, _, hparts⟩ | ⟨hinf, hparts⟩
    · rw [hparts]
      rfl
    · rw [hparts, hnegative, toInt, roundToInt_eq]
      refine congrArg (min 255) (Int.toNat_of_nonpos ?_)
      exact Int.neg_nonpos_of_nonneg (Int.natCast_nonneg _)
    · rw [hparts, hnegative]
      rfl

end LightShow.Double
