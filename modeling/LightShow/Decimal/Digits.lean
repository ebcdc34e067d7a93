namespace LightShow

/-!
# Decimal digits

* `digitChar`, `digitValue?` — a digit and its character;
* `numeralOf` — the digits of a natural number, without leading zeros;
* `lastDigits` — a fixed number of low digits, with leading zeros;
* `valueOf` — the number that digits spell.
-/

/-- A decimal digit. -/
abbrev Digit := Fin 10

/-- The character of a digit. -/
def digitChar (d : Digit) : Char := Char.ofNat ('0'.toNat + d.val)

/-- The digit of a character; only the ten ASCII digits have one. -/
def digitValue? (c : Char) : Option Digit :=
  if h : '0'.toNat ≤ c.toNat ∧ c.toNat ≤ '9'.toNat then
    some ⟨c.toNat - '0'.toNat, by have := h.1; have := h.2; simp at *; omega⟩
  else none

/-- The low digit of a number. -/
def lastDigit (n : Nat) : Digit := ⟨n % 10, by omega⟩

/-- The digits of a number from the lowest to the highest; zero has one digit. -/
def reversedDigits (n : Nat) : List Digit :=
  if n < 10 then [lastDigit n] else lastDigit n :: reversedDigits (n / 10)
termination_by n
decreasing_by omega

/-- The digits of a number, the highest first, without leading zeros; zero is `0`. -/
def numeralOf (n : Nat) : List Digit := (reversedDigits n).reverse

/-- The `count` lowest digits of a number, the highest first. -/
def lastDigits : Nat → Nat → List Digit
  | 0, _ => []
  | count + 1, n => lastDigits count (n / 10) ++ [lastDigit n]

/-- The number that digits spell, the highest first. -/
def valueOf (digits : List Digit) : Nat := digits.foldl (fun n d => 10 * n + d.val) 0

/-- A natural number in decimal. -/
def decimalChars (n : Nat) : List Char := (numeralOf n).map digitChar

/-- A natural number in decimal. -/
def decimalText (n : Nat) : String := String.ofList (decimalChars n)

/-! ### Reading digits back -/

/-- The character of a digit stands for that digit. -/
@[simp] theorem digitValue?_digitChar (d : Digit) : digitValue? (digitChar d) = some d := by
  revert d; decide

/-- One more digit at the end. -/
@[simp] theorem valueOf_concat (digits : List Digit) (d : Digit) :
    valueOf (digits ++ [d]) = 10 * valueOf digits + d.val := by
  simp [valueOf]

/-- Every number has a digit. -/
theorem numeralOf_ne_nil (n : Nat) : numeralOf n ≠ [] := by
  unfold numeralOf reversedDigits
  split <;> simp

/-- The digits of a number spell that number. -/
@[simp] theorem valueOf_numeralOf (n : Nat) : valueOf (numeralOf n) = n := by
  unfold numeralOf
  fun_induction reversedDigits n with
  | case1 n h => simp [valueOf, lastDigit]; omega
  | case2 n h ih => simp [ih, lastDigit]; omega

/-- There are as many low digits as are asked for. -/
@[simp] theorem length_lastDigits (count n : Nat) : (lastDigits count n).length = count := by
  induction count generalizing n with
  | zero => rfl
  | succ count ih => simp [lastDigits, ih]

/-- The low digits spell the remainder of a number. -/
@[simp] theorem valueOf_lastDigits (count n : Nat) :
    valueOf (lastDigits count n) = n % Nat.pow 10 count := by
  induction count generalizing n with
  | zero => simp [lastDigits, valueOf, Nat.mod_one]
  | succ count ih =>
    have place : Nat.pow 10 (count + 1) = 10 * Nat.pow 10 count := Nat.mul_comm _ _
    rw [lastDigits, valueOf_concat, ih, place, Nat.mod_mul, lastDigit, Nat.add_comm]

end LightShow
