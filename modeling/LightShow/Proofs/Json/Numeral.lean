import LightShow.Json.Numeral
import LightShow.Proofs.Decimal.Shortest
import LightShow.Proofs.Double.Bits

namespace LightShow

/-!
# The literals of doubles read back

* `Numeral.coefficient_ofPlaces`, `Numeral.place_ofPlaces` — where the point stands does not matter
  to the digits of a literal;
* `Numeral.nearest_ofDecimal` — the literal of a decimal reads as the decimal;
* `Numeral.toDouble?_ofDouble` — the literal of a finite double reads as that double, bit for bit.
-/

namespace Numeral

/-! ### Digits before and after the point -/

/-- The digits in front of the point and behind it are those of one number. -/
@[simp] theorem coefficient_ofPlaces (negative : Bool) (c places : Nat) (e : Option Int) :
    (ofPlaces negative c places e).coefficient = c := by
  unfold coefficient ofPlaces
  rw [length_lastDigits, valueOf_lastDigits]
  exact Nat.div_add_mod' c (Nat.pow 10 places)

@[simp] theorem place_ofPlaces (negative : Bool) (c places : Nat) (e : Option Int) :
    (ofPlaces negative c places e).place = e.getD 0 - places := by
  unfold place ofPlaces
  rw [length_lastDigits]

/-- The literal of a decimal has its sign. -/
@[simp] theorem negative_ofDecimal (negative : Bool) (d : Decimal) :
    (ofDecimal negative d).negative = negative := by
  unfold ofDecimal ofPlaces
  dsimp only
  split
  · split <;> rfl
  · rfl

/-- The literal of a decimal reads as the decimal, in either of its two forms. -/
theorem nearest_ofDecimal (negative : Bool) (d : Decimal) :
    Double.nearestDecimal (ofDecimal negative d).coefficient (ofDecimal negative d).place
      = d.toMagnitude := by
  unfold ofDecimal Decimal.toMagnitude
  dsimp only
  split
  · split
    · next hwhole =>
      -- zeros up to the point and one behind it
      have hzeros : d.coefficient * Nat.pow 10 d.exponent.toNat * 10
          = d.coefficient * Nat.pow 10 (d.exponent.toNat + 1) := by
        rw [Nat.mul_assoc]
        rfl
      have hplace : (none : Option Int).getD 0 - ((1 : Nat) : Int)
          + ((d.exponent.toNat + 1 : Nat) : Int) = d.exponent := by
        rw [Option.getD_none]
        omega
      rw [coefficient_ofPlaces, place_ofPlaces, hzeros, Double.nearestDecimal_mul_pow, hplace]
    · next hfraction =>
      -- as many digits behind the point as the exponent counts
      have hplace : (none : Option Int).getD 0 - ((-d.exponent).toNat : Int) = d.exponent := by
        rw [Option.getD_none]
        omega
      rw [coefficient_ofPlaces, place_ofPlaces, hplace]
  · -- one digit before the point, which there is
    have hdigit := List.length_pos_of_ne_nil (numeralOf_ne_nil d.coefficient)
    generalize (numeralOf d.coefficient).length = digits at hdigit
    have hplace : (some (d.exponent + (digits : Int) - 1)).getD 0 - ((digits - 1 : Nat) : Int)
        = d.exponent := by
      rw [Option.getD_some]
      omega
    rw [coefficient_ofPlaces, place_ofPlaces, hplace]

/-! ### Values -/

/-- A natural number reads back. -/
@[simp] theorem toNat?_ofNat (n : Nat) : (ofNat n).toNat? = some n := rfl

/-- **Exact numbers.** The literal of a finite double reads as the same bits. -/
theorem toDouble?_ofDouble {d : Double} (h : d.isFinite = true) :
    (ofDouble d).toDouble? = some d := by
  have hlt : d.magnitude < Double.infinity := of_decide_eq_true h
  have hread : Double.ofDecimal (ofDouble d).negative (ofDouble d).coefficient (ofDouble d).place
      = d := by
    unfold Double.ofDecimal ofDouble
    rw [nearest_ofDecimal, negative_ofDecimal, Decimal.toMagnitude_shortest hlt,
      Double.ofMagnitude_magnitude]
  unfold toDouble?
  dsimp only
  rw [hread, if_pos h]

end Numeral

end LightShow
