import LightShow.Decimal.Shortest

namespace LightShow

/-!
# JSON number literals

* `Numeral` — the parts of a number as they are written, of any length;
* `Numeral.toNat?` — the value of a literal that is written as a natural number;
* `Numeral.toDouble?` — the nearest finite double;
* `Numeral.ofNat`, `Numeral.ofDouble` — the literal that is written for a value.
-/

/-- A number as it is written. -/
structure Numeral where
  /-- Whether a minus sign stands in front. -/
  negative : Bool
  /-- The digits before the point. -/
  whole : Nat
  /-- The digits after the point; without any there is no point. -/
  fraction : List Digit
  /-- The power of ten after the mark `e`, if there is one. -/
  exponent : Option Int
  deriving DecidableEq

namespace Numeral

/-- All digits read as one natural number. -/
def coefficient (n : Numeral) : Nat :=
  n.whole * Nat.pow 10 n.fraction.length + valueOf n.fraction

/-- The place of the last digit. -/
def place (n : Numeral) : Int := n.exponent.getD 0 - n.fraction.length

/-- The value of a literal without sign, point and exponent. -/
def toNat? (n : Numeral) : Option Nat :=
  if !n.negative && n.fraction.isEmpty && n.exponent.isNone then some n.whole else none

/-- The nearest double; nothing if that is infinite. -/
def toDouble? (n : Numeral) : Option Double :=
  let d := Double.ofDecimal n.negative n.coefficient n.place
  if d.isFinite then some d else none

/-- The literal of a natural number. -/
def ofNat (n : Nat) : Numeral := ⟨false, n, [], none⟩

/-- The literal with the given digits, of which `places` stand after the point. -/
def ofPlaces (negative : Bool) (coefficient places : Nat) (exponent : Option Int) : Numeral :=
  ⟨negative, coefficient / Nat.pow 10 places, lastDigits places coefficient, exponent⟩

/-- The literal of a decimal. From `1e-5` to below `1e16` it is written without exponent and with
    at least one digit after the point, else with one digit before the point. -/
def ofDecimal (negative : Bool) (d : Decimal) : Numeral :=
  let digits := (numeralOf d.coefficient).length
  let leading := d.exponent + digits - 1
  if d.coefficient = 0 ∨ (-5 ≤ leading ∧ leading ≤ 15) then
    if 0 ≤ d.exponent then
      ofPlaces negative (d.coefficient * Nat.pow 10 d.exponent.toNat * 10) 1 none
    else ofPlaces negative d.coefficient (-d.exponent).toNat none
  else ofPlaces negative d.coefficient (digits - 1) (some leading)

/-- The literal of a finite double: the shortest digits that read back. -/
def ofDouble (d : Double) : Numeral := ofDecimal d.negative (Decimal.shortest d.magnitude)

/-- The text of an exponent, always with its sign. -/
def exponentSpelling (e : Int) : List Char :=
  (if e < 0 then '-' else '+') :: decimalChars e.natAbs

/-- The text of a literal. -/
def spelling (n : Numeral) : List Char :=
  (if n.negative then ['-'] else []) ++ decimalChars n.whole
    ++ (if n.fraction.isEmpty then [] else '.' :: n.fraction.map digitChar)
    ++ (match n.exponent with
        | none => []
        | some e => 'e' :: exponentSpelling e)

end Numeral

end LightShow
