namespace LightShow.Double

/-!
# The order of numbers

Numbers are compared as IEEE 754 asks for: a NaN is neither below nor above anything.

* `compare_swap` — a comparison the other way round;
* `not_le_of_lt` — `x < y` and `y ≤ x` exclude each other. With a NaN neither of them holds;
* `lt_iff_not_le` — without a NaN one of them holds.
-/

open Float.Model

/-- Comparing the other way round. A comparison with a NaN has no result either way. -/
theorem compare_swap (x y : UnpackedFloat) : y.compare x = (x.compare y).map Ordering.swap := by
  -- numbers of one sign are compared by their exponents, then by their mantissas
  have hsame : ∀ (m n : Nat) (e f : Int),
      (compare f e).then (compare n m) = ((compare e f).then (compare m n)).swap := by
    intro m n e f
    rw [Ordering.swap_then, ← Std.OrientedOrd.eq_swap, ← Std.OrientedOrd.eq_swap]
  cases x with
  | infinity s => cases y with
    | infinity t => cases s <;> cases t <;> rfl
    | _ => cases s <;> rfl
  | notANumber => cases y <;> rfl
  | zero s => cases y with
    | infinity t => cases t <;> rfl
    | notANumber => rfl
    | zero t => rfl
    | finite t n f hn => cases t <;> rfl
  | finite s m e hm => cases y with
    | infinity t => cases t <;> rfl
    | notANumber => rfl
    | zero t => cases s <;> rfl
    | finite t n f hn =>
      cases s with
      | negative => cases t with
        | negative => exact congrArg (fun o => some (Ordering.swap o)) (hsame m n e f)
        | positive => rfl
      | positive => cases t with
        | negative => rfl
        | positive => exact congrArg some (hsame m n e f)

/-- Whether a number is below another one, by their parts. -/
theorem lt_iff_compare {x y : Float} :
    x < y ↔ x.toModel.unpack.compare y.toModel.unpack = some .lt := by
  have hdef : x < y ↔ (x.toModel.unpack.compare y.toModel.unpack == some .lt) = true :=
    decide_eq_true_iff
  rw [hdef, beq_iff_eq]

/-- Whether a number is at most another one, by their parts. -/
theorem le_iff_compare {x y : Float} :
    x ≤ y ↔ (x.toModel.unpack.compare y.toModel.unpack).any Ordering.isLE = true :=
  decide_eq_true_iff

theorem not_le_of_lt {x y : Float} (h : x < y) : ¬ y ≤ x := by
  rw [le_iff_compare, compare_swap, lt_iff_compare.mp h]
  decide

/-- Numbers that are no NaNs can be compared. -/
theorem exists_compare {x y : UnpackedFloat} (hx : x.isNaN = false) (hy : y.isNaN = false) :
    ∃ o, x.compare y = some o := by
  cases x with
  | notANumber => cases hx
  | infinity s => cases y with
    | notANumber => cases hy
    | _ => cases s <;> exact ⟨_, rfl⟩
  | zero s => cases y with
    | notANumber => cases hy
    | infinity t => cases t <;> exact ⟨_, rfl⟩
    | zero t => exact ⟨_, rfl⟩
    | finite t n f hn => cases t <;> exact ⟨_, rfl⟩
  | finite s m e hm => cases y with
    | notANumber => cases hy
    | infinity t => cases s <;> cases t <;> exact ⟨_, rfl⟩
    | zero t => cases s <;> exact ⟨_, rfl⟩
    | finite t n f hn => cases s <;> cases t <;> exact ⟨_, rfl⟩

/-- Of numbers that are no NaNs, one is below the other or not above it. -/
theorem lt_iff_not_le {x y : Float} (hx : x.isNaN = false) (hy : y.isNaN = false) :
    y < x ↔ ¬ x ≤ y := by
  obtain ⟨o, ho⟩ := exists_compare (x := x.toModel.unpack) (y := y.toModel.unpack) hx hy
  rw [lt_iff_compare, le_iff_compare, compare_swap, ho]
  cases o <;> decide

end LightShow.Double
