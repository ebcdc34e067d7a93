import LightShow.Color
import LightShow.Proofs.Double.Half

namespace LightShow

/-!
# Channels are rounded half up

Arithmetic on colors ends in `channel`, which makes a byte of a number.

* `channel_mono` — a larger number has no smaller channel;
* `toNat_channel` — the channel of a number from 0 to 255 is the whole part of that number and one
  half;
* `IsChannelOf` — a channel is that of the integer nearest to a number, the upper one at a tie, but
  for one number;
* `channel_eq_iff` — a number has the channel around which it is;
* `channel_roundsHalfUp` — all arithmetic on colors is rounded in this way.
-/

open Double

/-! ### The channel of a number -/

/-- The channel of a number that is no NaN is the whole part of a sum. -/
theorem toNat_channel_eq {x : Float} (h : (ofFloat (x + 0.5)).isNaN = false) :
    (channel x).toNat = min 255 (ofFloat (x + 0.5)).floor.toNat := by
  have hbyte := toNat_toUInt8 h
  rwa [toFloat_ofFloat] at hbyte

/-- A larger number has no smaller channel. -/
theorem channel_mono {x y : Float} (h : x ≤ y) : (channel x).toNat ≤ (channel y).toNat := by
  have hsum : x + 0.5 ≤ y + 0.5 := Double.add_le_add_right isFinite_half h
  obtain ⟨hx, hy, horder⟩ := le_iff_order.mp hsum
  have hfloor : (ofFloat (x + 0.5)).floor ≤ (ofFloat (y + 0.5)).floor := floor_mono horder
  rw [toNat_channel_eq hx, toNat_channel_eq hy]
  omega

open Float.Model UnpackedFloat in
/-- A NaN has no light. -/
theorem channel_of_isNaN {x : Float} (h : x.isNaN = true) : channel x = 0 := by
  have hparts : x.toModel.unpack = .notANumber := by
    have hnan : x.toModel.unpack.isNaN = true := h
    cases hx : x.toModel.unpack with
    | notANumber => rfl
    | _ => rw [hx] at hnan; cases hnan
  show (pack (add Format.binary64 x.toModel.unpack (0.5 : Float).toModel.unpack)).toUInt8 = 0
  rw [hparts]
  decide +kernel

theorem channel_zero : channel 0.0 = 0 := by decide +kernel

theorem channel_full : channel 255.0 = 255 := by decide +kernel

theorem isFinite_full : (ofFloat 255.0).isFinite = true := by decide +kernel

/-- Between 0 and 255 there are finite numbers only. -/
theorem isFinite_of_mem_range {x : Float} (hlow : 0.0 ≤ x) (hhigh : x ≤ 255.0) :
    (ofFloat x).isFinite = true :=
  isFinite_of_le_of_le isFinite_ofFloat_zero isFinite_full hlow hhigh

/-- The channel of a number from 0 to 255 is the whole part of that number and one half. -/
theorem toNat_channel {x : Float} (hlow : 0.0 ≤ x) (hhigh : x ≤ 255.0)
    (hne : (ofFloat x).magnitude ≠ Double.underHalf) :
    ((channel x).toNat : Int)
      = ((ofFloat x).value + (Nat.pow 2 halfBits : Nat)) / (Nat.pow 2 unitBits : Nat) := by
  have hunit := natCast_unit_pos
  have hhalf := two_mul_half_cast
  have hfinite := isFinite_of_mem_range hlow hhigh
  have hvalue : 0 ≤ (ofFloat x).value := by
    have hzero : (ofFloat 0.0).value = 0 := by rw [ofFloat_zero, value_of_zero rfl]
    exact hzero ▸ (le_iff_value isFinite_ofFloat_zero hfinite).mp hlow
  have hvalue' : (ofFloat x).value ≤ 255 * (Nat.pow 2 unitBits : Nat) := by
    have hbound : (ofFloat 255.0).value = 255 * (Nat.pow 2 unitBits : Nat) := by decide +kernel
    exact hbound ▸ (le_iff_value hfinite isFinite_full).mp hhigh
  have hnumber : (ofFloat (x + 0.5)).isNaN = false := by
    have hround := (roundsTo_add hfinite isFinite_half).number
    rwa [toFloat_ofFloat, toFloat_ofFloat] at hround
  have hfloor := floor_add_half hfinite hne hvalue (by omega)
  rw [toFloat_ofFloat] at hfloor
  -- so the whole part fits a byte, and clamping does nothing
  have hleast : 0 ≤ (ofFloat (x + 0.5)).floor := by
    rw [hfloor]
    exact Int.ediv_nonneg (by omega) (by omega)
  have hmost : (ofFloat (x + 0.5)).floor < 256 := by
    rw [hfloor]
    exact (Int.ediv_lt_iff_lt_mul natCast_unit_pos).mpr (by omega)
  rw [toNat_channel_eq hnumber, ← hfloor]
  omega

/-! ### Rounding half up -/

/-- The last number below one half. -/
def justUnderHalf : Float := (ofMagnitude false Double.underHalf).toFloat

example : justUnderHalf = 0.49999999999999994 := by decide +kernel

/-- A channel is that of the integer nearest to a number, the upper one at a tie. It is 0 below the
    range of channels and for a NaN, and 255 above that range. The last number below one half is
    taken for one half. -/
structure IsChannelOf (x : Float) (n : UInt8) : Prop where
  ofNaN : x.isNaN = true → n = 0
  below : x < 0.0 → n = 0
  above : 255.0 < x → n = 255
  nearest : 0.0 ≤ x → x ≤ 255.0 → x ≠ justUnderHalf →
    ∀ k : UInt8, n = k ↔ k.toFloat - 0.5 ≤ x ∧ x < k.toFloat + 0.5
  early : x = justUnderHalf → n = 1

/-- The numbers half an integer away from a byte are exact. -/
theorem isHalfOf_bounds (k : UInt8) : (ofFloat (k.toFloat - 0.5)).IsHalfOf (2 * k.toNat - 1)
    ∧ (ofFloat (k.toFloat + 0.5)).IsHalfOf (2 * k.toNat + 1) := by
  have hlt := k.toNat_lt
  exact ⟨(isHalfOf_byte k).sub isHalfOf_half (by omega),
    (isHalfOf_byte k).add isHalfOf_half (by omega)⟩

/-- Only one number has the magnitude of the last one below one half, if negative ones are left
    out. -/
theorem magnitude_ne {x : Float} (hlow : 0.0 ≤ x) (hne : x ≠ justUnderHalf) :
    (ofFloat x).magnitude ≠ Double.underHalf := by
  intro hmagnitude
  have hnonneg := (le_iff_order.mp hlow).2.2
  rw [ofFloat_zero, order_zero] at hnonneg
  have hpositive : (ofFloat x).negative = false := by
    unfold order at hnonneg
    rw [hmagnitude] at hnonneg
    cases hsign : (ofFloat x).negative with
    | false => rfl
    | true =>
      rw [hsign, if_pos rfl] at hnonneg
      exact absurd hnonneg (by decide)
  apply hne
  rw [justUnderHalf, ← hmagnitude, ← hpositive, ofMagnitude_magnitude, toFloat_ofFloat]

/-- A number from 0 to 255 has the channel around which it is. -/
theorem channel_eq_iff {x : Float} (hlow : 0.0 ≤ x) (hhigh : x ≤ 255.0) (hne : x ≠ justUnderHalf)
    (k : UInt8) : channel x = k ↔ k.toFloat - 0.5 ≤ x ∧ x < k.toFloat + 0.5 := by
  have hfinite := isFinite_of_mem_range hlow hhigh
  obtain ⟨hbelow, habove⟩ := isHalfOf_bounds k
  have hchannel := toNat_channel hlow hhigh (magnitude_ne hlow hne)
  rw [le_iff_value hbelow.finite hfinite, lt_iff_value hfinite habove.finite, hbelow.value,
    habove.value, ← UInt8.toNat_inj, ← Int.natCast_inj, hchannel, Int.ediv_eq_iff_of_pos natCast_unit_pos,
    ← two_mul_half_cast]
  refine and_congr ?_ ?_
  · constructor <;> intro h <;> linarith
  · constructor <;> intro h <;> linarith

/-- **Rounding.** The channel of a number is rounded half up. -/
theorem isChannelOf_channel (x : Float) : IsChannelOf x (channel x) where
  ofNaN := channel_of_isNaN
  below h := by
    have hle := channel_mono (le_of_lt h)
    rw [channel_zero] at hle
    exact UInt8.toNat_inj.mp (Nat.le_zero.mp hle)
  above h := by
    have hle := channel_mono (le_of_lt h)
    rw [channel_full] at hle
    have hmost : (channel x).toNat ≤ (255 : UInt8).toNat := Nat.le_of_lt_succ (channel x).toNat_lt
    exact UInt8.toNat_inj.mp (Nat.le_antisymm hmost hle)
  nearest := channel_eq_iff
  early h := by
    rw [h]
    decide +kernel

/-! ### Arithmetic on colors -/

namespace Color

/-- Every channel of a color is the rounded one of a share. -/
structure IsRounded (c : Color) (red green blue : Float) : Prop where
  red : IsChannelOf red c.red
  green : IsChannelOf green c.green
  blue : IsChannelOf blue c.blue

/-- A color made of three rounded numbers is rounded from them. -/
theorem isRounded_channels (red green blue : Float) :
    IsRounded ⟨channel red, channel green, channel blue⟩ red green blue :=
  ⟨isChannelOf_channel red, isChannelOf_channel green, isChannelOf_channel blue⟩

/-- A share at the fraction `t` of the way from one channel to another. -/
def mixShare (a b : UInt8) (t : Float) : Float := a.toFloat + (b.toFloat - a.toFloat) * t

/-- The shares of red, green and blue of a hue, a saturation and a lightness, from 0 to 1. -/
def hslShares (h s l : Float) : Float × Float × Float :=
  if s == 0.0 then (l, l, l)
  else
    let q := if l < 0.5 then l * (1.0 + s) else l + s - l * s
    let p := 2.0 * l - q
    (hueShare p q (h + 1.0 / 3.0), hueShare p q h, hueShare p q (h - 1.0 / 3.0))

/-- A color of a hue is made of three shares of 255. -/
theorem ofHsl_eq (h s l : Float) : ofHsl h s l
    = ⟨channel ((hslShares h s l).1 * 255.0), channel ((hslShares h s l).2.1 * 255.0),
      channel ((hslShares h s l).2.2 * 255.0)⟩ := by
  unfold ofHsl hslShares
  split <;> rfl

end Color

/-- **Rounding half up.** The channel of every number is that of the nearest integer, the upper one
    at a tie, except for the last number below one half. The bounds between two channels are exact
    numbers. All arithmetic on colors is rounded in this way, and only once. -/
theorem channel_roundsHalfUp (x : Float) :
    IsChannelOf x (channel x)
    ∧ (∀ k : UInt8, (ofFloat (k.toFloat - 0.5)).IsHalfOf (2 * k.toNat - 1)
      ∧ (ofFloat (k.toFloat + 0.5)).IsHalfOf (2 * k.toNat + 1))
    ∧ (∀ a b t, (Color.mix a b t).IsRounded (Color.mixShare a.red b.red t)
      (Color.mixShare a.green b.green t) (Color.mixShare a.blue b.blue t))
    ∧ (∀ (c : Color) factor, (c.dim factor).IsRounded (c.red.toFloat * factor)
      (c.green.toFloat * factor) (c.blue.toFloat * factor))
    ∧ ∀ h s l, (Color.ofHsl h s l).IsRounded ((Color.hslShares h s l).1 * 255.0)
      ((Color.hslShares h s l).2.1 * 255.0) ((Color.hslShares h s l).2.2 * 255.0) := by
  refine ⟨isChannelOf_channel x, isHalfOf_bounds, ?_, ?_, ?_⟩
  · intro a b t
    exact Color.isRounded_channels _ _ _
  · intro c factor
    exact Color.isRounded_channels _ _ _
  · intro h s l
    rw [Color.ofHsl_eq]
    exact Color.isRounded_channels _ _ _

/-- A tie is rounded up, and the number before it is rounded down. -/
theorem middle_channel_roundsHalfUp :
    channel 127.5 = 128 ∧ channel 127.49999999999999 = 127 := by
  constructor
  · refine ((channel_roundsHalfUp 127.5).1.nearest ?_ ?_ ?_ 128).mpr ⟨?_, ?_⟩ <;> decide +kernel
  · refine ((channel_roundsHalfUp 127.49999999999999).1.nearest ?_ ?_ ?_ 127).mpr ⟨?_, ?_⟩ <;>
      decide +kernel

/-- The last number below one half is rounded up, to an integer that is not the nearest one. -/
theorem justUnderHalf_not_roundsHalfUp :
    ¬ ∀ x : Float, 0.0 ≤ x → x ≤ 255.0 →
      (channel x).toFloat - 0.5 ≤ x ∧ x < (channel x).toFloat + 0.5 := by
  intro h
  have hbounds := h justUnderHalf (by decide +kernel) (by decide +kernel)
  have habove : ¬ (channel justUnderHalf).toFloat - 0.5 ≤ justUnderHalf := by decide +kernel
  exact habove hbounds.1

end LightShow
