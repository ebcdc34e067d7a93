import LightShow.Effect.Light
import LightShow.Proofs.Double.Monotone

namespace LightShow

/-!
# How much of a cue is over

Every step from the time to the LEDs that are passed keeps the order, in floating point too.

* `clampUnit_mono`, `clampUnit_mem` — clamping keeps the order and comes into the range from 0 to 1;
* `Cue.progress_mono`, `Cue.progress_between` — the share of a cue that is over never gets smaller;
* `Cue.magnitude_progress`, `Cue.progress_eq_one` — nothing of a cue is over up to its start, and all
  of it is over from its end on;
* `passed_mono`, `passed_of_magnitude_eq_zero`, `passed_one` — more and more LEDs of a range are
  passed: first none, and in the end as many as the offset of the last one says.
-/

open Double (le_trans lt_of_le_of_lt lt_of_lt_of_le le_self_of_le le_of_not_lt zero_le_one)

/-! ### The share of the time that is over -/

/-- A clamped number is in the range, unless it is a NaN. -/
theorem clampUnit_mem {x : Float} (h : clampUnit x ≤ clampUnit x) :
    0.0 ≤ clampUnit x ∧ clampUnit x ≤ 1.0 := by
  obtain ⟨hzero, hone⟩ := le_self_of_le zero_le_one
  unfold clampUnit at *
  by_cases hbelow : x < 0.0
  · rw [if_pos hbelow]
    exact ⟨hzero, zero_le_one⟩
  · rw [if_neg hbelow] at h ⊢
    by_cases habove : x > 1.0
    · rw [if_pos habove]
      exact ⟨zero_le_one, hone⟩
    · rw [if_neg habove] at h ⊢
      exact ⟨le_of_not_lt h hzero hbelow, le_of_not_lt hone h habove⟩

/-- Clamping to the unit interval keeps the order. -/
theorem clampUnit_mono {x y : Float} (h : x ≤ y) : clampUnit x ≤ clampUnit y := by
  obtain ⟨hzero, hone⟩ := le_self_of_le zero_le_one
  obtain ⟨hx, hy⟩ := le_self_of_le h
  unfold clampUnit
  by_cases hxbelow : x < 0.0
  · rw [if_pos hxbelow]
    by_cases hybelow : y < 0.0
    · rwa [if_pos hybelow]
    · rw [if_neg hybelow]
      split
      · exact zero_le_one
      · exact le_of_not_lt hy hzero hybelow
  · have hybelow : ¬ y < 0.0 := fun hlt => hxbelow (lt_of_le_of_lt h hlt)
    rw [if_neg hxbelow, if_neg hybelow]
    by_cases hyabove : y > 1.0
    · rw [if_pos hyabove]
      split
      · exact hone
      · next hxabove => exact le_of_not_lt hone hx hxabove
    · have hxabove : ¬ x > 1.0 := fun hlt => hyabove (lt_of_lt_of_le hlt h)
      rwa [if_neg hyabove, if_neg hxabove]

theorem clampUnit_ends : clampUnit 0.0 = 0.0 ∧ clampUnit 1.0 = 1.0 := by decide +kernel

namespace Cue

variable {c : Cue}

/-- The share of a cue that is over is in the range, unless it is a NaN. -/
theorem progress_mem {elapsed : Float} (h : c.progress elapsed ≤ c.progress elapsed) :
    0.0 ≤ c.progress elapsed ∧ c.progress elapsed ≤ 1.0 := by
  unfold progress at *
  split at h
  · next hpos =>
    rw [if_pos hpos]
    exact clampUnit_mem h
  · next hpos =>
    rw [if_neg hpos]
    exact ⟨zero_le_one, (le_self_of_le zero_le_one).2⟩

variable (hduration : c.duration.isFinite = true)
include hduration

theorem isFinite_duration : (Double.ofFloat c.duration.toFloat).isFinite = true := by
  rwa [Double.ofFloat_toFloat hduration]

/-- The share of a cue that is over never gets smaller. -/
theorem progress_mono {earlier later : Float} (h : earlier ≤ later) :
    c.progress earlier ≤ c.progress later := by
  unfold progress
  by_cases hpos : 0.0 < c.duration.toFloat
  · rw [if_pos hpos, if_pos hpos]
    exact clampUnit_mono (Double.div_le_div_right (isFinite_duration hduration) hpos h)
  · rw [if_neg hpos, if_neg hpos]
    exact (le_self_of_le zero_le_one).2

/-- From one time to a later one, the share of a cue that is over grows within its range. -/
theorem progress_between (hstart : c.startTime.isFinite = true) {earlier later : Float}
    (h : earlier ≤ later) :
    0.0 ≤ c.progress (earlier - c.startTime.toFloat)
      ∧ c.progress (earlier - c.startTime.toFloat) ≤ c.progress (later - c.startTime.toFloat)
      ∧ c.progress (later - c.startTime.toFloat) ≤ 1.0 := by
  have hmono : c.progress (earlier - c.startTime.toFloat)
      ≤ c.progress (later - c.startTime.toFloat) := by
    refine progress_mono hduration (Double.sub_le_sub_right ?_ h)
    rwa [Double.ofFloat_toFloat hstart]
  obtain ⟨hearlier, hlater⟩ := le_self_of_le hmono
  exact ⟨(progress_mem hearlier).1, hmono, (progress_mem hlater).2⟩

variable (hpos : 0.0 < c.duration.toFloat) {elapsed : Float}
include hpos

/-- Nothing of a cue is over up to its start. -/
theorem magnitude_progress (h : elapsed ≤ 0.0) :
    (Double.ofFloat (c.progress elapsed)).magnitude = 0 := by
  have hle : c.progress elapsed ≤ 0.0 := by
    unfold progress
    rw [if_pos hpos, ← clampUnit_ends.1]
    exact clampUnit_mono (Double.div_nonpos (isFinite_duration hduration) hpos h)
  exact Double.magnitude_eq_zero hle (progress_mem (le_self_of_le hle).1).1

/-- All of a cue is over from its end on. -/
theorem progress_eq_one (h : c.duration.toFloat ≤ elapsed) : c.progress elapsed = 1.0 := by
  have hge : 1.0 ≤ c.progress elapsed := by
    unfold progress
    rw [if_pos hpos, ← clampUnit_ends.2]
    exact clampUnit_mono (Double.one_le_div (isFinite_duration hduration) hpos h)
  exact Double.eq_one (progress_mem (le_self_of_le hge).2).2 hge

end Cue

/-! ### The LEDs that are passed -/

/-- What is in the range from 0 to 1 is finite. -/
theorem isFinite_of_mem {p : Float} (hlow : 0.0 ≤ p) (hhigh : p ≤ 1.0) :
    (Double.ofFloat p).isFinite = true :=
  Double.isFinite_of_le_of_le Double.isFinite_ofFloat_zero Double.isFinite_ofFloat_one hlow hhigh

/-- A width is a number, and not only near to one. -/
theorem exists_ofInt_eq {width : Nat} (h : width < 2 ^ 53) : ∃ d : Double, d.isFinite = true
    ∧ d.floor = width ∧ Float.ofInt width = d.toFloat := by
  obtain ⟨hlt, hunits⟩ := Double.units_nearest_natCast h
  have hbound : Double.nearest width 1 < Double.signBit := Nat.lt_trans hlt (by decide)
  refine ⟨.ofMagnitude false (Double.nearest width 1), ?_, ?_, ?_⟩
  · unfold Double.isFinite
    rw [Double.magnitude_ofMagnitude hbound]
    exact decide_eq_true hlt
  · rw [Double.floor_eq_div (Double.negative_ofMagnitude hbound _),
      Double.magnitude_ofMagnitude hbound, hunits, Nat.mul_div_cancel _ Double.unit_pos]
  · rw [← Double.ofFloat_natCast h, Double.toFloat_ofFloat]
    rfl

/-- An effect passes more and more LEDs. -/
theorem passed_mono {p q : Float} (hp : 0.0 ≤ p) (hpq : p ≤ q) (hq : q ≤ 1.0) {width : Nat}
    (h : width < 2 ^ 53) : passed p width ≤ passed q width := by
  have hpfinite := isFinite_of_mem hp (le_trans hpq hq)
  have hqfinite := isFinite_of_mem (le_trans hp hpq) hq
  obtain ⟨d, hfinite, -, hwidth⟩ := exists_ofInt_eq h
  have hnonneg : 0.0 ≤ Float.ofInt width := Double.zero_le_ofNat h
  have hproduct : p * Float.ofInt width ≤ q * Float.ofInt width := by
    refine Double.mul_le_mul_right ?_ hpfinite hqfinite hnonneg hpq
    rwa [hwidth, Double.ofFloat_toFloat hfinite]
  obtain ⟨hleft, hright, horder⟩ := Double.le_iff_order.mp hproduct
  exact Double.floorInt64_mono hleft hright horder

/-- No LED is passed at the start, whatever the sign of the zero. -/
theorem passed_of_magnitude_eq_zero {p : Float} (hp : (Double.ofFloat p).magnitude = 0)
    {width : Nat} (h : width < 2 ^ 53) : passed p width = 0 := by
  obtain ⟨d, hfinite, -, hwidth⟩ := exists_ofInt_eq h
  have hnumber : (Double.ofFloat p).isFinite = true := by
    unfold Double.isFinite
    rw [hp]
    decide
  unfold passed wholeSteps
  rw [hwidth, ← Double.toFloat_ofFloat p, Double.ofFloat_mul hnumber hfinite, hp,
    Double.units_zero, Nat.zero_mul, Double.nearest_zero, Nat.min_zero]
  cases (Double.ofFloat p).negative != d.negative <;> decide +kernel

/-- All LEDs are passed at the end. -/
theorem passed_one {width : Nat} (h : width < 2 ^ 53) : passed 1.0 width = width := by
  obtain ⟨d, hfinite, hfloor, hwidth⟩ := exists_ofInt_eq h
  have hnumber : d.isNaN = false :=
    decide_eq_false (Nat.not_lt.mpr (Nat.le_of_lt (of_decide_eq_true hfinite)))
  unfold passed wholeSteps
  rw [hwidth, Double.one_mul hfinite]
  unfold Double.floorInt64
  rw [if_neg (by rw [hnumber]; decide), hfloor]
  unfold Double.minInt64 Double.maxInt64
  omega

end LightShow
