import LightShow.Double

namespace LightShow

/-!
# Rounding fractions and decimals to doubles

* `roundHalfEven` — the integer nearest to a quotient, the even one at a tie;
* `Double.nearest` — the magnitude nearest to a quotient of natural numbers;
* `Double.ofDecimal` — the number nearest to `±coefficient · 10 ^ exponent`, infinite if that
  is too large.

Consecutive magnitudes are consecutive numbers. A quotient is therefore rounded by cutting it to
fifty-three bits; a carry out of the mantissa moves on to the next exponent by itself.
-/

/-- The integer nearest to `num / den`, the even one of two equally near ones. -/
def roundHalfEven (num den : Nat) : Nat :=
  let quotient := num / den
  let twice := 2 * (num % den)
  if twice < den ∨ (twice = den ∧ quotient % 2 = 0) then quotient else quotient + 1

namespace Double

/-- The magnitude of the number nearest to `num / den`. Magnitudes of `infinity` or more say that
    the quotient is too large for a finite number. -/
def nearest (num den : Nat) : Nat :=
  let scaled := num * Nat.pow 2 unitBits
  let shift := (scaled / den).log2 - 52
  shift * binade + roundHalfEven scaled (den * Nat.pow 2 shift)

/-- The magnitude nearest to `coefficient · 10 ^ exponent`, at most `infinity`. Powers of ten
    beyond every number are not computed. -/
def nearestDecimal (coefficient : Nat) (exponent : Int) : Nat :=
  if coefficient = 0 then 0
  else if 400 < exponent then infinity
  else if coefficient.log2 + exponent < -400 then 0
  else min infinity
    (nearest (coefficient * Nat.pow 10 exponent.toNat) (Nat.pow 10 (-exponent).toNat))

/-- The number nearest to `±coefficient · 10 ^ exponent`. -/
def ofDecimal (negative : Bool) (coefficient : Nat) (exponent : Int) : Double :=
  ofMagnitude negative (nearestDecimal coefficient exponent)

/-- The number nearest to a natural number. -/
def ofNat (n : Nat) : Double := ofDecimal false n 0

instance (n : Nat) : OfNat Double n := ⟨ofNat n⟩

instance : OfScientific Double where
  ofScientific m negativeExponent e := ofDecimal false m (if negativeExponent then -e else e)

/-- The number with the other sign. -/
instance : Neg Double := ⟨fun d => ofMagnitude (!d.negative) d.magnitude⟩

end Double

end LightShow
