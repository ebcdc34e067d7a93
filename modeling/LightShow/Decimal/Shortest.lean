import LightShow.Decimal.Digits
import LightShow.Double.Rounding

namespace LightShow

/-!
# The shortest decimal that reads back

* `Decimal` — a natural number times a power of ten;
* `Decimal.onGrid?` — the multiple of a power of ten next to a number that reads back as that
  number, if there is one;
* `Decimal.shortest` — the decimal of fewest digits that reads back, and the nearest of those.

The coarsest grid of powers of ten on which a number has a neighbour that reads back is the one
with the fewest digits. Every number has seventeen digits that read back; the exact decimal stands
behind the search, so that what is returned always reads back.
-/

/-- The decimal `coefficient · 10 ^ exponent`. -/
structure Decimal where
  /-- The digits, read as one natural number. -/
  coefficient : Nat
  /-- The place of the last digit. -/
  exponent : Int
  deriving DecidableEq

namespace Decimal

/-- The magnitude that the decimal reads as. -/
def toMagnitude (d : Decimal) : Nat := Double.nearestDecimal d.coefficient d.exponent

/-- The decimal with the trailing zeros of its coefficient moved into the exponent. -/
def stripped (d : Decimal) : Decimal :=
  if d.coefficient = 0 then ⟨0, 0⟩
  else
    let zeros := ((reversedDigits d.coefficient).takeWhile (· == 0)).length
    ⟨d.coefficient / Nat.pow 10 zeros, d.exponent + zeros⟩

/-- The exact value of a magnitude. -/
def exact (magnitude : Nat) : Decimal :=
  ⟨Double.units magnitude * Nat.pow 5 Double.unitBits, -(Double.unitBits : Int)⟩

/-- Of the two multiples of `10 ^ place` around a magnitude, the nearer one that reads back as the
    magnitude; at a tie the even one. -/
def onGrid? (magnitude : Nat) (place : Int) : Option Decimal :=
  let num := Double.units magnitude * Nat.pow 10 (-place).toNat
  let den := Nat.pow 2 Double.unitBits * Nat.pow 10 place.toNat
  let below := num / den
  let near := roundHalfEven num den
  let far := if near = below then below + 1 else below
  [near, far].map (fun n => (⟨n, place⟩ : Decimal)) |>.find? (·.toMagnitude == magnitude)

/-- A place at or above the highest digit of a magnitude: `30103 / 100000` is the logarithm of two
    to ten. -/
def topPlace (magnitude : Nat) : Int :=
  (((Double.units magnitude).log2 + 1 : Int) - Double.unitBits) * 30103 / 100000 + 1

/-- The decimal of fewest digits that reads as the magnitude, and the nearest of those. -/
def shortest (magnitude : Nat) : Decimal :=
  let places := (List.range 20).map fun i : Nat => topPlace magnitude - i
  ((places.findSome? (onGrid? magnitude)).getD (exact magnitude)).stripped

end Decimal

end LightShow
