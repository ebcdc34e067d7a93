import LightShow.Proofs.Mixing
import LightShow.Proofs.Double.Order

namespace LightShow

/-!
# Fills and wipes

A fill lights LEDs one after another, a wipe turns them off. Either way the LED has the main color
or is black, so that only the brightness of the cue comes on top of it.

* `EffectKind.wipe?` — the wipe that belongs to a fill;
* `Cue.isOn` — whether a fill or a wipe has an LED on;
* `Cue.light_eq_of_isReveal` — the light of a fill or a wipe is that of a solid cue, or none;
* `keeps_eq`, `sweepKeeps_eq` — a wipe has those LEDs on that its fill has not, unless a NaN is
  compared;
* `not_sweepFills_of_sweepKeeps` — a fill and its wipe never light one place.
-/

namespace EffectKind

/-- The wipe that turns off the LEDs in the order in which a fill lights them. -/
def wipe? : EffectKind → Option EffectKind
  | .fill => some .wipe
  | .bodyFill => some .bodyWipe
  | .bodyFillHorizontal => some .bodyWipeHorizontal
  | _ => none

/-- Whether a kind is a fill or a wipe in some order of the LEDs. The scattered fill has no wipe. -/
def isReveal : EffectKind → Bool
  | .fill | .wipe | .bodyFill | .bodyWipe | .bodyFillHorizontal | .bodyWipeHorizontal => true
  | _ => false

end EffectKind

/-! ### Light that is on or off -/

open Float.Model UnpackedFloat in
/-- Black stays black under every factor, a NaN included. -/
theorem Color.dim_black (factor : Float) : black.dim factor = black := by
  -- zero times anything is a zero or a NaN, and one half more than that has no whole part
  have hproduct : ∀ y, (∃ s, mul Format.binary64 (.zero .positive) y = .zero s)
      ∨ mul Format.binary64 (.zero .positive) y = .notANumber := by
    intro y
    cases y with
    | infinity s => exact .inr rfl
    | notANumber => exact .inr rfl
    | zero s => exact .inl ⟨_, rfl⟩
    | finite s m e hm => exact .inl ⟨_, rfl⟩
  have hchannel : channel ((0 : UInt8).toFloat * factor) = 0 := by
    show (pack (add Format.binary64
      (pack (mul Format.binary64 (.zero .positive) factor.toModel.unpack)).unpack
      (0.5 : Float).toModel.unpack)).toUInt8 = 0
    rcases hproduct factor.toModel.unpack with ⟨s, h⟩ | h
    · rw [h]
      cases s <;> decide +kernel
    · rw [h]
      decide +kernel
  unfold dim
  exact congrArg (fun x => Color.mk x x x) hchannel

namespace Cue

/-- The cue with an effect of another kind. -/
def withKind (c : Cue) (kind : EffectKind) : Cue := { c with kind := kind }

/-- The place that a sweep over the body has reached. -/
def edge (c : Cue) (elapsed : Float) : Float := sweepEdge c.travel (c.progress elapsed)

/-- Whether a fill or a wipe has an LED on; effects of other kinds have every LED on. -/
def isOn (c : Cue) (layout : Layout) (led : UInt16) (elapsed : Float) : Bool :=
  match c.kind with
  | .fill => fills c.travel c.width (passed (c.progress elapsed) c.width) (c.offset led)
  | .wipe => keeps c.travel c.width (passed (c.progress elapsed) c.width) (c.offset led)
  | .bodyFill => sweepFills c.travel (c.edge elapsed) (layout.y led c.armPose c.travel .bodyFill)
  | .bodyWipe => sweepKeeps c.travel (c.edge elapsed) (layout.y led c.armPose c.travel .bodyWipe)
  | .bodyFillHorizontal => sweepFills c.travel (c.edge elapsed) (layout.x led)
  | .bodyWipeHorizontal => sweepKeeps c.travel (c.edge elapsed) (layout.x led)
  | _ => true

/-- An effect that gives an LED the main color or nothing gives it the light of a solid cue or none. -/
theorem light_eq_of_onOff {c : Cue} {layout : Layout} {led : UInt16} {time : Float} {on : Bool}
    (h : c.effectColor layout led (time - c.startTime.toFloat) = c.onOff on) :
    c.light layout led time
      = if on then (c.withKind .solid).light layout led time else .black := by
  have hsolid : (c.withKind .solid).effectColor layout led (time - c.startTime.toFloat) = c.color :=
    rfl
  have hdimming : (c.withKind .solid).dimming? = c.dimming? := rfl
  have hstart : (c.withKind .solid).startTime = c.startTime := rfl
  unfold light
  rw [hstart, hsolid, hdimming, h]
  cases on with
  | true => rfl
  | false =>
    cases c.dimming? with
    | none => rfl
    | some factor => exact Color.dim_black factor

/-- **On or off.** A fill or a wipe gives an LED the light of a solid cue, or none. -/
theorem light_eq_of_isReveal {c : Cue} (h : c.kind.isReveal = true) (layout : Layout) (led : UInt16)
    (time : Float) :
    c.light layout led time
      = if c.isOn layout led (time - c.startTime.toFloat) then
          (c.withKind .solid).light layout led time
        else .black := by
  refine light_eq_of_onOff ?_
  unfold effectColor effect isOn
  cases hkind : c.kind <;> first | rfl | exact absurd h (by rw [hkind]; decide)

end Cue

/-! ### A fill and its wipe -/

/-- Along the range, a wipe has those LEDs on that the fill has not. -/
theorem keeps_eq (direction : Direction) (width passed offset : Int) :
    keeps direction width passed offset = !fills direction width passed offset := by
  cases direction with
  | forward => simp only [keeps, fills, ← decide_not, Int.not_lt]
  | backward => simp only [keeps, fills, ← decide_not, Int.not_le]

/-- Over the body, the same holds of places and edges that are no NaNs. -/
theorem sweepKeeps_eq (direction : Direction) {edge place : Float} (hedge : edge.isNaN = false)
    (hplace : place.isNaN = false) :
    sweepKeeps direction edge place = !sweepFills direction edge place := by
  cases direction with
  | forward => simp only [sweepKeeps, sweepFills, Double.lt_iff_not_le hplace hedge, decide_not]
  | backward => simp only [sweepKeeps, sweepFills, Double.lt_iff_not_le hedge hplace, decide_not]

/-- No place is lit both by a fill and by its wipe. With a NaN it is lit by neither. -/
theorem not_sweepFills_of_sweepKeeps {direction : Direction} {edge place : Float}
    (h : sweepKeeps direction edge place = true) : sweepFills direction edge place = false := by
  cases direction with
  | forward => simpa [sweepFills] using Double.not_le_of_lt (of_decide_eq_true h)
  | backward => simpa [sweepFills] using Double.not_le_of_lt (of_decide_eq_true h)

end LightShow
