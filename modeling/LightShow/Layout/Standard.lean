import LightShow.Layout.Basic

namespace LightShow

/-!
# The standard suit

* `Layout.standard` — the wiring of a suit of 541 LEDs.
-/

/-- The wiring of a suit of 541 LEDs: up the right side of the torso, over both arms and the face,
    down the left side, and along both legs. -/
def Layout.standard : Layout where
  segments := [
    ⟨"rTorso", 32, .fixed 0.45, .span .waist .shoulder⟩,
    ⟨"rPocket", 68, .fixed 0.42, .pocket⟩,
    ⟨"rArmDown", 96, .ramp 0.35 (-0.25), .span .shoulder .wrist⟩,
    ⟨"rFingers", 102, .fixed 0.05, .offset .wrist 0.05⟩,
    ⟨"rArmUpper", 142, .ramp 0.1 0.25, .span .wrist .shoulder⟩,
    ⟨"face", 183, .fixed 0.5, .anchor .top⟩,
    ⟨"lArmUp", 222, .ramp 0.65 0.25, .span .shoulder .wrist⟩,
    ⟨"lFingers", 228, .fixed 0.95, .offset .wrist 0.05⟩,
    ⟨"lArmDown", 258, .ramp 0.9 (-0.25), .span .wrist .shoulder⟩,
    ⟨"lPocket", 291, .fixed 0.58, .pocket⟩,
    ⟨"lTorso", 330, .fixed 0.55, .span .shoulder .waist⟩,
    ⟨"lLegOuter", 381, .ramp 0.55 0.1, .span .waist .feet⟩,
    ⟨"lLegInner", 422, .ramp 0.65 (-0.15), .span .feet .waist⟩,
    ⟨"rLegInner", 463, .ramp 0.5 (-0.15), .span .waist .feet⟩,
    ⟨"rLegOuter", 527, .ramp 0.35 0.1, .span .feet .waist⟩,
    ⟨"lLegOuterExt", 540, .fixed 0.65, .anchor .feet⟩]

end LightShow
