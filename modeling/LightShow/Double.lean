namespace LightShow

/-!
# Doubles by their bit patterns

Times, rates and body coordinates are binary64 numbers. They are stored as bit patterns, so that
equality of stored values is decidable and the sign of a zero and of a NaN is kept; arithmetic
goes through `toFloat`.

* `Double` — a bit pattern, with the sign as `negative` and the other bits as `magnitude`;
* `mantissa`, `exponent` — a finite number is `±mantissa · 2 ^ exponent / 2 ^ 1074`;
* `rank` — the total order of bit patterns, in which `-0` comes before `0` and the NaNs are
  outermost;
* `floorInt64` — the greatest integer not above a number, clamped to signed 64 bits.
-/

/-- A binary64 number, given by its bit pattern. -/
structure Double where
  /-- The bit pattern: sign, eleven exponent bits, fifty-two fraction bits. -/
  bits : UInt64
  deriving DecidableEq, Inhabited

namespace Double

/-- The number with these bits, for arithmetic. -/
def toFloat (d : Double) : Float := Float.ofBits d.bits

/-- The bit pattern of the result of arithmetic. -/
def ofFloat (x : Float) : Double := ⟨x.toBits⟩

/-- The place value of the sign bit, `2 ^ 63`. -/
def signBit : Nat := 0x8000000000000000

/-- The place value of the lowest exponent bit, `2 ^ 52`: so many magnitudes have one exponent. -/
def binade : Nat := 0x10000000000000

/-- Whether the sign bit is set. -/
def negative (d : Double) : Bool := decide (signBit ≤ d.bits.toNat)

/-- The bits below the sign bit. Numbers of one sign are ordered as their magnitudes are. -/
def magnitude (d : Double) : Nat := d.bits.toNat % signBit

/-- The number with the given sign bit and magnitude. -/
def ofMagnitude (negative : Bool) (magnitude : Nat) : Double :=
  ⟨UInt64.ofNat (if negative then signBit + magnitude else magnitude)⟩

/-- The magnitude of an infinity; larger ones are NaNs. -/
def infinity : Nat := 2047 * binade

/-- Whether the number is neither infinite nor a NaN. -/
def isFinite (d : Double) : Bool := decide (d.magnitude < infinity)

/-- Whether the bits stand for no number. -/
def isNaN (d : Double) : Bool := decide (infinity < d.magnitude)

/-! ### The value of a magnitude -/

/-- The integer mantissa: the fraction bits, with the leading one of a normal number. -/
def mantissa (magnitude : Nat) : Nat :=
  if magnitude < binade then magnitude else binade + magnitude % binade

/-- The power of two by which the mantissa counts units of `2 ^ -1074`. -/
def exponent (magnitude : Nat) : Nat := magnitude / binade - 1

/-- The value of a finite magnitude, as a multiple of `2 ^ -1074`. -/
def units (magnitude : Nat) : Nat := mantissa magnitude * Nat.pow 2 (exponent magnitude)

/-- Units in the number one, as a power of two. -/
def unitBits : Nat := 1074

/-! ### Order -/

/-- The place of a bit pattern in the total order: negative patterns come first, those of larger
    magnitude before those of smaller. -/
def rank (d : Double) : Int :=
  if d.negative then -(d.magnitude : Int) - 1 else d.magnitude

/-! ### Whole part -/

/-- The least signed 64-bit integer, `-2 ^ 63`. -/
def minInt64 : Int := -0x8000000000000000

/-- The greatest signed 64-bit integer, `2 ^ 63 - 1`. -/
def maxInt64 : Int := 0x7fffffffffffffff

/-- The greatest integer not above a finite number. An infinity counts as `±2 ^ 1024`. -/
def floor (d : Double) : Int :=
  let m : Int := mantissa d.magnitude
  let signed := if d.negative then -m else m
  let e := exponent d.magnitude
  if unitBits ≤ e then signed * Nat.pow 2 (e - unitBits) else signed >>> (unitBits - e)

/-- The whole part clamped to signed 64 bits; zero for a NaN. -/
def floorInt64 (d : Double) : Int :=
  if d.isNaN then 0 else max minInt64 (min maxInt64 d.floor)

end Double

end LightShow
