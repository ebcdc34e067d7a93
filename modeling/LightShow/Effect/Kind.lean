namespace LightShow

/-!
# Kinds of effects

* `EffectKind` — the sixteen effects that a cue can ask for;
* `Direction`, `Pose`, `HueSpread` — choices that some of them have.

Each type lists its values in `all` and gives their written names by `name`.
-/

/-- The effect of a cue. -/
inductive EffectKind where
  | solid
  | strobe
  | chase
  | fill
  | wipe
  | bodyFill
  | bodyWipe
  | bodyFillHorizontal
  | bodyWipeHorizontal
  | wave
  | fade
  | blend
  | sparkle
  | gradient
  | random
  | randomFill
  deriving DecidableEq, Inhabited

namespace EffectKind

/-- All kinds. -/
def all : List EffectKind :=
  [.solid, .strobe, .chase, .fill, .wipe, .bodyFill, .bodyWipe, .bodyFillHorizontal,
    .bodyWipeHorizontal, .wave, .fade, .blend, .sparkle, .gradient, .random, .randomFill]

/-- The written name of a kind. -/
def name : EffectKind → String
  | .solid => "solid"
  | .strobe => "strobe"
  | .chase => "chase"
  | .fill => "fill"
  | .wipe => "wipe"
  | .bodyFill => "body-fill"
  | .bodyWipe => "body-wipe"
  | .bodyFillHorizontal => "body-fill-horizontal"
  | .bodyWipeHorizontal => "body-wipe-horizontal"
  | .wave => "wave"
  | .fade => "fade"
  | .blend => "blend"
  | .sparkle => "sparkle"
  | .gradient => "gradient"
  | .random => "random"
  | .randomFill => "random-fill"

end EffectKind

/-- The way in which an effect travels. -/
inductive Direction where
  /-- From the start of the range, the top of the body or the left side. -/
  | forward
  /-- The other way. -/
  | backward
  deriving DecidableEq, Inhabited

namespace Direction

/-- Both directions. -/
def all : List Direction := [.forward, .backward]

/-- The written name of a direction. -/
def name : Direction → String
  | .forward => "forward"
  | .backward => "backward"

end Direction

/-- How the arms are held. -/
inductive Pose where
  /-- The wrists hang below the waist. -/
  | handsDown
  /-- The wrists are at shoulder height. -/
  | handsUp
  deriving DecidableEq, Inhabited

namespace Pose

/-- Both poses. -/
def all : List Pose := [.handsDown, .handsUp]

/-- The written name of a pose. -/
def name : Pose → String
  | .handsDown => "hands-down"
  | .handsUp => "hands-up"

end Pose

/-- How random hues are spread over a range of LEDs. -/
inductive HueSpread where
  /-- Every LED has a hue of its own. -/
  | perPixel
  /-- All LEDs share one hue. -/
  | uniform
  deriving DecidableEq, Inhabited

namespace HueSpread

/-- Both ways of spreading hues. -/
def all : List HueSpread := [.perPixel, .uniform]

/-- The written name of a way of spreading hues. -/
def name : HueSpread → String
  | .perPixel => "per-pixel"
  | .uniform => "uniform"

end HueSpread

end LightShow
