import LightShow.Decimal.Digits
import LightShow.Double.Rounding

namespace LightShow

/-!
# Numbers as a user writes them

* `signOf` — a sign in front of a text;
* `naturalOf?` — a text of digits;
* `Double.ofText?` — a decimal with optional point and exponent, or one of the words for infinity
  and NaN. A decimal too large for a finite number is infinite.
-/

/-- Whether a text begins with a minus sign, and what follows its sign. -/
def signOf : List Char → Bool × List Char
  | '-' :: rest => (true, rest)
  | '+' :: rest => (false, rest)
  | text => (false, text)

/-- The number that a text of at least one digit spells. -/
def naturalOf? (text : List Char) : Option Nat :=
  if text.isEmpty then none else (text.mapM digitValue?).map valueOf

/-- The integer that digits after an optional sign spell. -/
def integerOf? (text : List Char) : Option Int :=
  let (negative, digits) := signOf text
  (naturalOf? digits).map fun n => if negative then -(n : Int) else n

namespace Double

/-- The words for numbers without digits, in lower case. -/
def word? (word : List Char) (negative : Bool) : Option Double :=
  let text := String.ofList (word.map Char.toLower)
  if text = "inf" ∨ text = "infinity" then some (ofMagnitude negative infinity)
  else if text = "nan" then some (ofMagnitude negative (infinity + binade / 2))
  else none

/-- The digits at the front of a text, and the rest. -/
def digitsOf (text : List Char) : List Digit × List Char :=
  ((text.takeWhile (digitValue? · |>.isSome)).filterMap digitValue?,
    text.dropWhile (digitValue? · |>.isSome))

/-- The exponent that a text consists of; zero if it is empty. -/
def exponentOf? : List Char → Option Int
  | [] => some 0
  | c :: rest => if c = 'e' ∨ c = 'E' then integerOf? rest else none

/-- The digits after a point at the front of a text, and the rest. -/
def fractionOf : List Char → List Digit × List Char
  | '.' :: rest => digitsOf rest
  | text => ([], text)

/-- The number of a decimal without sign. At least one digit has to stand beside the point. -/
def unsignedOf? (negative : Bool) (text : List Char) : Option Double :=
  let (whole, rest) := digitsOf text
  let (fraction, rest) := fractionOf rest
  if whole.isEmpty && fraction.isEmpty then none
  else (exponentOf? rest).map fun e =>
    ofDecimal negative (valueOf (whole ++ fraction)) (e - fraction.length)

/-- The number that a text spells. -/
def ofText? (text : List Char) : Option Double :=
  let (negative, rest) := signOf text
  (word? rest negative).or (unsignedOf? negative rest)

end Double

end LightShow
