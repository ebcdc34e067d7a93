import LightShow.Proofs.Double.Sum

namespace LightShow.Double

/-!
# Arithmetic keeps the order

The exact results of arithmetic are in the order of its arguments, and rounding keeps that order.

* `RoundsTo.le` — numbers nearest to quotients of one denominator are in the order of the
  numerators;
* `RoundsTo.value_eq` — an exact result that is the value of a number is not rounded;
* `map_le_map` — an operation that keeps the order of finite numbers and leaves infinities as they
  are keeps the order of all numbers;
* `le_iff_value`, `lt_iff_value` — finite numbers are compared as their values are;
* `sub_le_sub_right`, `add_le_add_right`, `div_le_div_right`, `mul_le_mul_right`, `add_le_add_left`,
  `sub_le_sub_left` — the operations one by one;
* `div_nonpos`, `one_le_div` — a quotient by a positive number, compared with zero and one;
* `ofNat_le_ofNat`, `floor_mono`, `floorInt64_mono` — natural numbers below `2 ^ 53` are in their
  order, and so are whole parts.
-/

/-! ### Bounds -/

/-- A number that is no NaN is between the infinities. -/
theorem order_bounds {d : Double} (h : d.isNaN = false) :
    -(infinity : Int) ≤ d.order ∧ d.order ≤ infinity := by
  have hle : d.magnitude ≤ infinity := Nat.not_lt.mp (of_decide_eq_false h)
  unfold order
  split <;> omega

/-- A number is finite if it is strictly between the infinities. -/
theorem isFinite_iff_order {d : Double} :
    d.isFinite = true ↔ -(infinity : Int) < d.order ∧ d.order < infinity := by
  unfold isFinite order
  rw [decide_eq_true_eq]
  split <;> omega

/-- A number between two finite ones is finite. -/
theorem isFinite_of_le_of_le {x y z : Float} (hx : (ofFloat x).isFinite = true)
    (hz : (ofFloat z).isFinite = true) (hxy : x ≤ y) (hyz : y ≤ z) :
    (ofFloat y).isFinite = true := by
  rw [isFinite_iff_order] at hx hz ⊢
  have hlow := (le_iff_order.mp hxy).2.2
  have hhigh := (le_iff_order.mp hyz).2.2
  exact ⟨Int.lt_of_lt_of_le hx.1 hlow, Int.lt_of_le_of_lt hhigh hz.2⟩

/-! ### Results in the order of the exact ones -/

/-- Results of one denominator are in the order of their numerators. -/
theorem RoundsTo.le {x y : Float} {m n : Int} {den : Nat} (hx : RoundsTo (ofFloat x) m den)
    (hy : RoundsTo (ofFloat y) n den) (h : m ≤ n) : x ≤ y := by
  rw [le_iff_order, hx.order, hy.order]
  exact ⟨hx.number, hy.number, nearestOrder_mono h den⟩

/-- A smaller exact result has no larger value after it is rounded. -/
theorem RoundsTo.value_le_value {d e : Double} {m n : Int} {den : Nat} (hd : RoundsTo d m den)
    (he : RoundsTo e n den) (h : m ≤ n) : d.value ≤ e.value := by
  refine value_mono ?_
  rw [hd.order, he.order]
  exact nearestOrder_mono h den

/-- An exact result that is the value of a number is not changed. -/
theorem RoundsTo.value_eq {d e : Double} (hd : RoundsTo d e.value (Nat.pow 2 unitBits))
    (he : e.isFinite = true) : d.value = e.value :=
  Int.le_antisymm (hd.value_le_value (roundsTo_self he) (Int.le_refl _))
    ((roundsTo_self he).value_le_value hd (Int.le_refl _))

/-- An exact result that is the value of a finite number is finite after it is rounded. -/
theorem RoundsTo.isFinite {d e : Double} (hd : RoundsTo d e.value (Nat.pow 2 unitBits))
    (he : e.isFinite = true) : d.isFinite = true := by
  rw [isFinite_iff_order, hd.order, ← (roundsTo_self he).order, ← isFinite_iff_order]
  exact he

/-- An operation keeps the order if its exact result does and it leaves infinities as they are. -/
theorem map_le_map {f : Float → Float} {g : Int → Int} {den : Nat}
    (hmono : ∀ m n, m ≤ n → g m ≤ g n)
    (hfinite : ∀ d : Double, d.isFinite = true →
      RoundsTo (ofFloat (f d.toFloat)) (g d.value) den)
    (hinfinite : ∀ d : Double, d.magnitude = infinity → ofFloat (f d.toFloat) = d)
    {x y : Float} (h : x ≤ y) : f x ≤ f y := by
  rw [← toFloat_ofFloat x, ← toFloat_ofFloat y] at h ⊢
  generalize ofFloat x = a at h ⊢
  generalize ofFloat y = b at h ⊢
  obtain ⟨ha, hb, horder⟩ := toFloat_le_iff.mp h
  -- a number that is neither finite nor a NaN is an infinity, which stays what it is
  have hkeeps : ∀ d : Double, d.isNaN = false → d.isFinite = false → ofFloat (f d.toFloat) = d := by
    intro d hnumber hinf
    refine hinfinite d (Nat.le_antisymm ?_ ?_)
    · exact Nat.not_lt.mp (of_decide_eq_false hnumber)
    · exact Nat.not_lt.mp (of_decide_eq_false hinf)
  have hnumber : ∀ d : Double, d.isNaN = false → (ofFloat (f d.toFloat)).isNaN = false := by
    intro d hnumber
    cases hd : d.isFinite with
    | true => exact (hfinite d hd).number
    | false => rwa [hkeeps d hnumber hd]
  by_cases hboth : a.isFinite = true ∧ b.isFinite = true
  · exact (hfinite a hboth.1).le (hfinite b hboth.2) (hmono _ _ (value_mono horder))
  · -- the result of an infinity is below all others or above them
    rw [le_iff_order]
    refine ⟨hnumber a ha, hnumber b hb, ?_⟩
    have hbounds := order_bounds ha
    have hbounds' := order_bounds hb
    by_cases hbelow : a.order = -(infinity : Int)
    · -- nothing is below the negative infinity
      have hinf : a.isFinite = false := Bool.eq_false_iff.mpr fun hfin =>
        Int.ne_of_gt (isFinite_iff_order.mp hfin).1 hbelow
      rw [hkeeps a ha hinf, hbelow]
      exact (order_bounds (hnumber b hb)).1
    · -- otherwise the larger number is the positive infinity
      have habove : b.order = infinity := by
        rw [isFinite_iff_order, isFinite_iff_order] at hboth
        omega
      have hinf : b.isFinite = false := Bool.eq_false_iff.mpr fun hfin =>
        Int.ne_of_lt (isFinite_iff_order.mp hfin).2 habove
      rw [hkeeps b hb hinf, habove]
      exact (order_bounds (hnumber a ha)).2

/-! ### Comparisons of values -/

section Finite

variable {x y : Float} (hx : (ofFloat x).isFinite = true) (hy : (ofFloat y).isFinite = true)
include hx hy

/-- Finite numbers are in the order of their values; both zeros have the value 0. -/
theorem le_iff_value : x ≤ y ↔ (ofFloat x).value ≤ (ofFloat y).value :=
  ⟨fun h => value_mono (le_iff_order.mp h).2.2, (roundsTo_self hx).le (roundsTo_self hy)⟩

/-- One finite number is below another one if its value is. -/
theorem lt_iff_value : x < y ↔ (ofFloat x).value < (ofFloat y).value := by
  have hle : y ≤ x ↔ (ofFloat y).value ≤ (ofFloat x).value := le_iff_value hy hx
  rw [← Int.not_le, ← hle, lt_iff_order, le_iff_order]
  have hxnumber := (roundsTo_self hx).number
  have hynumber := (roundsTo_self hy).number
  simp [hxnumber, hynumber]

end Finite

/-! ### Zero and one -/

theorem ofFloat_zero : ofFloat 0.0 = ofMagnitude false 0 := by
  rw [← toFloat_zero, ofFloat_toFloat (by decide)]

theorem ofFloat_one : ofFloat 1.0 = ofMagnitude false one := by
  rw [← toFloat_one, ofFloat_toFloat isFinite_one]

theorem isFinite_ofFloat_zero : (ofFloat 0.0).isFinite = true := by
  rw [ofFloat_zero]
  decide

theorem isFinite_ofFloat_one : (ofFloat 1.0).isFinite = true := by
  rw [ofFloat_one]
  exact isFinite_one

theorem zero_le_one : (0.0 : Float) ≤ 1.0 := by
  rw [le_iff_order, ofFloat_zero, ofFloat_one, order_zero, order_one]
  exact ⟨isNaN_ofMagnitude (Nat.zero_le _) _, isNaN_ofMagnitude (by decide) _, by decide⟩

/-- A number that is neither above nor below zero is one of the two zeros. -/
theorem magnitude_eq_zero {x : Float} (hle : x ≤ 0.0) (hge : 0.0 ≤ x) :
    (ofFloat x).magnitude = 0 := by
  rw [le_iff_order, ofFloat_zero, order_zero] at hle hge
  have horder : (ofFloat x).order = 0 := Int.le_antisymm hle.2.2 hge.2.2
  unfold order at horder
  split at horder <;> omega

/-- A number that is neither above nor below one is one: there are not two of them. -/
theorem eq_one {x : Float} (hle : x ≤ 1.0) (hge : 1.0 ≤ x) : x = 1.0 := by
  rw [le_iff_order, ofFloat_one, order_one] at hle hge
  have horder : (ofFloat x).order = one := Int.le_antisymm hle.2.2 hge.2.2
  obtain ⟨hsign, hmagnitude⟩ := of_zero_lt_order (x := ofFloat x) (by rw [horder]; decide)
  have hone : (ofFloat x).magnitude = one := by omega
  rw [← toFloat_ofFloat x, ← ofMagnitude_magnitude (ofFloat x), hsign, hone, toFloat_one]

/-! ### The operations -/

section Finite

variable {z : Float} (hz : (ofFloat z).isFinite = true)
include hz

/-- Taking a finite number away keeps the order of all numbers, infinities included. -/
theorem sub_le_sub_right {x y : Float} (h : x ≤ y) : x - z ≤ y - z := by
  rw [← toFloat_ofFloat z]
  refine map_le_map (f := fun x => x - (ofFloat z).toFloat)
    (fun m n hle => Int.sub_le_sub_right hle (ofFloat z).value)
    (fun d hd => roundsTo_sub hz hd) (fun d hd => ?_) h
  rw [ofFloat_sub_of_infinite hz hd, ← hd, ofMagnitude_magnitude]

/-- Adding a finite number keeps the order of all numbers. -/
theorem add_le_add_right {x y : Float} (h : x ≤ y) : x + z ≤ y + z := by
  rw [← toFloat_ofFloat z]
  refine map_le_map (f := fun x => x + (ofFloat z).toFloat)
    (fun m n hle => Int.add_le_add_right hle (ofFloat z).value)
    (fun d hd => roundsTo_add hd hz) (fun d hd => ?_) h
  rw [ofFloat_add_of_infinite hd hz, ← hd, ofMagnitude_magnitude]

/-- Dividing by a positive finite number keeps the order of all numbers. -/
theorem div_le_div_right (hpos : 0.0 < z) {x y : Float} (h : x ≤ y) : x / z ≤ y / z := by
  rw [← toFloat_ofFloat z] at hpos ⊢
  refine map_le_map (f := fun x => x / (ofFloat z).toFloat) (g := id) (fun m n hle => hle)
    (fun d hd => roundsTo_div hd hz hpos) (fun d hd => ?_) h
  obtain ⟨hnegative, -⟩ := of_zero_lt_order (zero_lt_iff.mp hpos).2
  rw [ofFloat_div_of_infinite hd hz, hnegative, Bool.bne_false, ← hd, ofMagnitude_magnitude]

/-- A number up to zero, divided by a positive one, gives a number up to zero. -/
theorem div_nonpos (hpos : 0.0 < z) {x : Float} (h : x ≤ 0.0) : x / z ≤ 0.0 := by
  -- zero divided by the number is zero, and the quotient is no larger than that
  have hquotient : RoundsTo (ofFloat (0.0 / z)) 0 (units (ofFloat z).magnitude) := by
    have hdiv := roundsTo_div isFinite_ofFloat_zero hz (by rwa [toFloat_ofFloat])
    rwa [toFloat_ofFloat, toFloat_ofFloat, ofFloat_zero, value_of_zero rfl] at hdiv
  have hzero : RoundsTo (ofFloat 0.0) 0 (units (ofFloat z).magnitude) := by
    rw [ofFloat_zero, ← packed_zero]
    exact roundsTo_zero _ _
  exact le_trans (div_le_div_right hz hpos h) (hquotient.le hzero (Int.le_refl 0))

/-- A number that is at least the divisor has a quotient of at least one. -/
theorem one_le_div (hpos : 0.0 < z) {x : Float} (h : z ≤ x) : 1.0 ≤ x / z := by
  have hpositive := (lt_iff_order.mp hpos).2.2
  rw [ofFloat_zero, order_zero] at hpositive
  obtain ⟨hsign, hmagnitude⟩ := of_zero_lt_order hpositive
  have hunits : 0 < units (ofFloat z).magnitude :=
    Nat.mul_pos (mantissa_pos (by omega)) (Nat.two_pow_pos _)
  -- the number divided by itself is exactly one, and the quotient is no smaller than that
  have hquotient := roundsTo_div hz hz (by rwa [toFloat_ofFloat])
  rw [toFloat_ofFloat, value_eq_apply, hsign] at hquotient
  have hone := roundsTo_ofMagnitude false (units (ofFloat z).magnitude)
    (units (ofFloat z).magnitude)
  rw [nearest_self hunits, Nat.min_eq_right (by decide), ← ofFloat_one] at hone
  exact le_trans (hone.le hquotient (Int.le_refl _)) (div_le_div_right hz hpos h)

variable {x y : Float} (hx : (ofFloat x).isFinite = true) (hy : (ofFloat y).isFinite = true)
include hx hy

/-- Multiplying finite numbers by one that is not below zero keeps their order. An infinity times
    zero is no number, so that this does not hold of all numbers. -/
theorem mul_le_mul_right (hnonneg : 0.0 ≤ z) (h : x ≤ y) : x * z ≤ y * z := by
  have hzero : (ofFloat 0.0).value = 0 := by rw [ofFloat_zero, value_of_zero rfl]
  have hvalue : 0 ≤ (ofFloat z).value := hzero ▸ value_mono (le_iff_order.mp hnonneg).2.2
  have hxz := roundsTo_mul hx hz
  have hyz := roundsTo_mul hy hz
  rw [toFloat_ofFloat, toFloat_ofFloat] at hxz hyz
  exact hxz.le hyz (Int.mul_le_mul_of_nonneg_right (value_mono (le_iff_order.mp h).2.2) hvalue)

/-- Finite numbers stay in their order when they are added to one. -/
theorem add_le_add_left (h : x ≤ y) : z + x ≤ z + y := by
  have hzx := roundsTo_add hz hx
  have hzy := roundsTo_add hz hy
  rw [toFloat_ofFloat, toFloat_ofFloat] at hzx hzy
  exact hzx.le hzy (Int.add_le_add_left (value_mono (le_iff_order.mp h).2.2) _)

/-- The more is taken away from a number, the less is left. -/
theorem sub_le_sub_left (h : x ≤ y) : z - y ≤ z - x := by
  have hzx := roundsTo_sub hx hz
  have hzy := roundsTo_sub hy hz
  rw [toFloat_ofFloat, toFloat_ofFloat] at hzx hzy
  exact hzy.le hzx (Int.sub_le_sub_left (value_mono (le_iff_order.mp h).2.2) _)

end Finite

/-! ### Natural numbers and whole parts -/

/-- Natural numbers that are exact are in their order. -/
theorem ofNat_le_ofNat {m n : Nat} (hn : n < 2 ^ 53) (h : m ≤ n) :
    Float.ofNat m ≤ Float.ofNat n := by
  have hbound : ∀ k < 2 ^ 53, nearest k 1 < infinity := fun k hk => (units_nearest_natCast hk).1
  have hm : m < 2 ^ 53 := Nat.lt_of_le_of_lt h hn
  have hlarge : infinity < signBit := by decide
  rw [le_iff_order, ofFloat_natCast hm, ofFloat_natCast hn,
    order_ofMagnitude (Nat.lt_trans (hbound m hm) hlarge),
    order_ofMagnitude (Nat.lt_trans (hbound n hn) hlarge)]
  exact ⟨isNaN_ofMagnitude (Nat.le_of_lt (hbound m hm)) _,
    isNaN_ofMagnitude (Nat.le_of_lt (hbound n hn)) _, Int.ofNat_le.mpr (nearest_le_nearest h 1)⟩

/-- No exact natural number is below zero. -/
theorem zero_le_ofNat {n : Nat} (hn : n < 2 ^ 53) : 0.0 ≤ Float.ofNat n := by
  have hzero : Float.ofNat 0 = 0.0 := by
    rw [← toFloat_ofFloat (Float.ofNat 0), ofFloat_natCast (Nat.two_pow_pos 53), nearest_zero,
      toFloat_zero]
  rw [← hzero]
  exact ofNat_le_ofNat hn (Nat.zero_le n)

/-- Whole parts are in the order of the numbers. -/
theorem floor_mono {a b : Double} (h : a.order ≤ b.order) : a.floor ≤ b.floor := by
  rw [floor_eq_ediv, floor_eq_ediv]
  exact Int.ediv_le_ediv natCast_unit_pos (value_mono h)

/-- Whole parts are in the order of the numbers also after they are cut to 64 bits. -/
theorem floorInt64_mono {a b : Double} (ha : a.isNaN = false) (hb : b.isNaN = false)
    (h : a.order ≤ b.order) : a.floorInt64 ≤ b.floorInt64 := by
  have hfloor := floor_mono h
  unfold floorInt64
  rw [ha, hb, if_neg Bool.false_ne_true, if_neg Bool.false_ne_true]
  omega

end LightShow.Double
