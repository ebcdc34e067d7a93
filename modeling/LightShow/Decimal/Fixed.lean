import LightShow.Decimal.Digits
import LightShow.Double.Rounding

namespace LightShow

/-!
# Numbers with a fixed count of decimal places

* `Double.fixed` — the exact value of a double rounded to a number of places, the even digit at a
  tie. The sign of a negative number stays, also if all digits are zero.
-/

namespace Double

/-- The number with `places` digits after the point. -/
def fixed (places : Nat) (d : Double) : List Char :=
  if d.isNaN then ['N', 'a', 'N']
  else
    let sign := if d.negative then ['-'] else []
    if d.isFinite then
      let n := roundHalfEven (units d.magnitude * Nat.pow 10 places) (Nat.pow 2 unitBits)
      sign ++ decimalChars (n / Nat.pow 10 places) ++ '.' :: (lastDigits places n).map digitChar
    else sign ++ ['i', 'n', 'f']

end Double

end LightShow
