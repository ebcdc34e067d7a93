import LightShow.Layout.Standard
import LightShow.Proofs.Effect.Progress
import LightShow.Proofs.Effect.Reveal

namespace LightShow

/-!
# Fills and wipes before their start and after their end

* `Cue.isOn_fill_before`, `Cue.isOn_fill_after` — which LEDs of its range a fill has on up to its
  start and from its end on;
* `light_at_ends` — what a fill and a wipe give to the LEDs of the range before and after. The last
  LED is never lit by a fill that runs forward, and always lit by one that runs backward.
-/

/-! ### Which LEDs are on -/

namespace Cue

variable {c : Cue} {led : UInt16} (hled : c.coversLed led = true)
include hled

/-- The offsets of the range, of which the last one is the width. -/
theorem offset_of_coversLed : ∃ width : Nat, c.width = width ∧ width < 2 ^ 53 ∧ 0 ≤ c.offset led
    ∧ c.offset led ≤ width ∧ (c.offset led = width ↔ led = c.rangeEnd) := by
  obtain ⟨hfirst, hlast⟩ := Bool.and_eq_true_iff.mp hled
  have hfirst := UInt16.le_iff_toNat_le.mp (of_decide_eq_true hfirst)
  have hlast := UInt16.le_iff_toNat_le.mp (of_decide_eq_true hlast)
  have hend := c.rangeEnd.toNat_lt
  rw [← UInt16.toNat_inj]
  unfold width offset
  refine ⟨c.rangeEnd.toNat - c.rangeStart.toNat, ?_, ?_, ?_, ?_, ?_⟩ <;> omega

variable (hfinite : c.duration.isFinite = true) (hpos : 0.0 < c.duration.toFloat) (layout : Layout)
  {elapsed : Float}
include hfinite hpos

/-- Up to the start, a fill has no LED on but the last one of a range that it fills backward. -/
theorem isOn_fill_before (h : elapsed ≤ 0.0) :
    (c.withKind .fill).isOn layout led elapsed = true
      ↔ c.travel = .backward ∧ led = c.rangeEnd := by
  obtain ⟨width, hwidth, hbound, hnonneg, hle, hlast⟩ := offset_of_coversLed hled
  show fills c.travel c.width (passed (c.progress elapsed) c.width) (c.offset led) = true ↔ _
  rw [hwidth, passed_of_magnitude_eq_zero (magnitude_progress hfinite hpos h) hbound, ← hlast]
  cases c.travel with
  | forward => simp [fills, hnonneg]
  | backward => simp [fills]; omega

/-- From the end on, a fill has every LED on but the last one of a range that it fills forward. -/
theorem isOn_fill_after (h : c.duration.toFloat ≤ elapsed) :
    (c.withKind .fill).isOn layout led elapsed = true
      ↔ ¬ (c.travel = .forward ∧ led = c.rangeEnd) := by
  obtain ⟨width, hwidth, hbound, hnonneg, hle, hlast⟩ := offset_of_coversLed hled
  show fills c.travel c.width (passed (c.progress elapsed) c.width) (c.offset led) = true ↔ _
  rw [hwidth, progress_eq_one hfinite hpos h, passed_one hbound, ← hlast]
  cases c.travel with
  | forward => simp [fills]; omega
  | backward => simp [fills, hnonneg]

end Cue

/-! ### Light before and after -/

/-- **Both ends of a fill.** Up to the start of a cue, a fill gives no light and its wipe all of it;
    from the end of the cue on, it is the other way round. Only the last LED of the range never
    changes. Backward, it has what all LEDs have in the end; forward, what all have at the start. -/
theorem light_at_ends {c : Cue} (hfinite : c.duration.isFinite = true)
    (hpos : 0.0 < c.duration.toFloat) {led : UInt16} (hled : c.coversLed led = true)
    (layout : Layout) (time : Float) :
    (time - c.startTime.toFloat ≤ 0.0 →
      (c.withKind .fill).light layout led time
        = (if c.travel = .backward ∧ led = c.rangeEnd then (c.withKind .solid).light layout led time
          else .black)
      ∧ (c.withKind .wipe).light layout led time
        = (if c.travel = .backward ∧ led = c.rangeEnd then .black
          else (c.withKind .solid).light layout led time))
    ∧ (c.duration.toFloat ≤ time - c.startTime.toFloat →
      (c.withKind .fill).light layout led time
        = (if c.travel = .forward ∧ led = c.rangeEnd then .black
          else (c.withKind .solid).light layout led time)
      ∧ (c.withKind .wipe).light layout led time
        = (if c.travel = .forward ∧ led = c.rangeEnd then (c.withKind .solid).light layout led time
          else .black)) := by
  have hfill : (c.withKind .fill).light layout led time
      = if (c.withKind .fill).isOn layout led (time - c.startTime.toFloat) then
          (c.withKind .solid).light layout led time
        else .black := Cue.light_eq_of_isReveal rfl layout led time
  have hwipe : (c.withKind .wipe).light layout led time
      = if (c.withKind .fill).isOn layout led (time - c.startTime.toFloat) then .black
        else (c.withKind .solid).light layout led time := by
    -- the wipe is on where the fill is not
    have hkeeps : (c.withKind .wipe).isOn layout led (time - c.startTime.toFloat)
        = !(c.withKind .fill).isOn layout led (time - c.startTime.toFloat) := keeps_eq _ _ _ _
    rw [Cue.light_eq_of_isReveal rfl]
    show (if (c.withKind .wipe).isOn layout led (time - c.startTime.toFloat) then _ else _) = _
    rw [hkeeps]
    cases (c.withKind .fill).isOn layout led (time - c.startTime.toFloat) <;> rfl
  constructor
  · intro h
    have hon := Cue.isOn_fill_before hled hfinite hpos layout h
    exact ⟨hfill.trans (if_congr hon rfl rfl), hwipe.trans (if_congr hon rfl rfl)⟩
  · intro h
    have hon := Cue.isOn_fill_after hled hfinite hpos layout h
    exact ⟨hfill.trans ((if_congr hon rfl rfl).trans (ite_not ..)),
      hwipe.trans ((if_congr hon rfl rfl).trans (ite_not ..))⟩

/-- A fill of eleven LEDs from the last one to the first, for a second. -/
def Cue.retreat : Cue :=
  { Cue.plain "retreat" 1 .fill 250 1000 ⟨0xff, 0, 0⟩ 0 10 with direction := some .backward }

/-- The last LED has light at the start already, all others only in the end. -/
theorem retreat_light_at_ends :
    Cue.retreat.duration.isFinite = true ∧ 0.0 < Cue.retreat.duration.toFloat
    ∧ Cue.retreat.coversLed 0 = true ∧ Cue.retreat.coversLed 10 = true
    ∧ (250.0 : Float) - Cue.retreat.startTime.toFloat ≤ 0.0
    ∧ Cue.retreat.duration.toFloat ≤ (1250.0 : Float) - Cue.retreat.startTime.toFloat
    ∧ Cue.retreat.light .standard 0 250.0 = .black
    ∧ Cue.retreat.light .standard 10 250.0 = ⟨0xff, 0, 0⟩
    ∧ Cue.retreat.light .standard 0 1250.0 = ⟨0xff, 0, 0⟩ := by
  have hfinite : Cue.retreat.duration.isFinite = true := by decide +kernel
  have hpos : 0.0 < Cue.retreat.duration.toFloat := by decide +kernel
  have hfirst : Cue.retreat.coversLed 0 = true := by decide
  have hlast : Cue.retreat.coversLed 10 = true := by decide
  have hbefore : (250.0 : Float) - Cue.retreat.startTime.toFloat ≤ 0.0 := by decide +kernel
  have hafter :
      Cue.retreat.duration.toFloat ≤ (1250.0 : Float) - Cue.retreat.startTime.toFloat := by
    decide +kernel
  refine ⟨hfinite, hpos, hfirst, hlast, hbefore, hafter, ?_, ?_, ?_⟩
  · exact ((light_at_ends hfinite hpos hfirst .standard 250.0).1 hbefore).1
  · exact ((light_at_ends hfinite hpos hlast .standard 250.0).1 hbefore).1
  · exact ((light_at_ends hfinite hpos hfirst .standard 1250.0).2 hafter).1

/-- Before it starts, the fill is not dark on every LED of its range. -/
theorem retreat_not_dark_at_start :
    ¬ ∀ led time, Cue.retreat.coversLed led = true → time - Cue.retreat.startTime.toFloat ≤ 0.0 →
      Cue.retreat.light .standard led time = .black := by
  intro h
  exact absurd (h 10 250.0 (by decide) (by decide +kernel)) (by decide +kernel)

end LightShow
