import LightShow.Cue

namespace LightShow

/-!
# Effects with their settings

* `Effect` — an effect with the settings that it reads;
* `Cue.effect` — the effect of a cue, with defaults for the settings that the cue leaves out.
-/

/-- An effect with the settings that it reads. -/
inductive Effect where
  /-- The main color everywhere. -/
  | solid
  /-- The main color at even steps, `hz` steps a second. -/
  | strobe (hz : Double)
  /-- One LED that travels over the range, with a trail of one LED. -/
  | chase (ledsPerSecond : Double) (direction : Direction) (background : Color)
  /-- LEDs that light up one after another along the range. -/
  | fill (direction : Direction)
  /-- LEDs that go out one after another along the range. -/
  | wipe (direction : Direction)
  /-- LEDs that light up from the head to the feet. -/
  | bodyFill (direction : Direction) (pose : Pose)
  /-- LEDs that go out from the head to the feet. -/
  | bodyWipe (direction : Direction) (pose : Pose)
  /-- LEDs that light up from the left to the right. -/
  | bodyFillHorizontal (direction : Direction)
  /-- LEDs that go out from the left to the right. -/
  | bodyWipeHorizontal (direction : Direction)
  /-- The main color dimmed by a wave that travels along the range. -/
  | wave (rate : Double)
  /-- From another color to the main color over time. -/
  | fade (start : Color)
  /-- From the main color to another color over time. -/
  | blend (target : Color)
  /-- Scattered flashes in the main color, chosen anew `hz` times a second. -/
  | sparkle (hz : Double)
  /-- From the main color to another color along the range. -/
  | gradient (target : Color)
  /-- Random hues, chosen anew `hz` times a second. -/
  | random (hz : Double) (spread : HueSpread)
  /-- LEDs that light up in a scattered order. -/
  | randomFill
  deriving DecidableEq

/-- The kind of an effect. -/
def Effect.kind : Effect → EffectKind
  | .solid => .solid
  | .strobe _ => .strobe
  | .chase _ _ _ => .chase
  | .fill _ => .fill
  | .wipe _ => .wipe
  | .bodyFill _ _ => .bodyFill
  | .bodyWipe _ _ => .bodyWipe
  | .bodyFillHorizontal _ => .bodyFillHorizontal
  | .bodyWipeHorizontal _ => .bodyWipeHorizontal
  | .wave _ => .wave
  | .fade _ => .fade
  | .blend _ => .blend
  | .sparkle _ => .sparkle
  | .gradient _ => .gradient
  | .random _ _ => .random
  | .randomFill => .randomFill

namespace Cue

/-- The rate of a cue; the default counts where the cue has none, a zero or a NaN. -/
def rate (c : Cue) (default : Double) : Double :=
  (c.speed.filter fun s => s.magnitude ≠ 0 && !s.isNaN).getD default

/-- The direction of a cue, forward by default. -/
def travel (c : Cue) : Direction := c.direction.getD .forward

/-- The pose of a cue, with the hands down by default. -/
def armPose (c : Cue) : Pose := c.pose.getD .handsDown

/-- The second color of a cue, black by default. -/
def otherColor (c : Cue) : Color := c.secondaryColor.getD .black

/-- The effect of a cue. -/
def effect (c : Cue) : Effect :=
  match c.kind with
  | .solid => .solid
  | .strobe => .strobe (c.rate 10)
  | .chase => .chase (c.rate 20) c.travel c.otherColor
  | .fill => .fill c.travel
  | .wipe => .wipe c.travel
  | .bodyFill => .bodyFill c.travel c.armPose
  | .bodyWipe => .bodyWipe c.travel c.armPose
  | .bodyFillHorizontal => .bodyFillHorizontal c.travel
  | .bodyWipeHorizontal => .bodyWipeHorizontal c.travel
  | .wave => .wave (c.rate 5)
  | .fade => .fade c.otherColor
  | .blend => .blend c.otherColor
  | .sparkle => .sparkle (c.rate 15)
  | .gradient => .gradient c.otherColor
  | .random => .random (c.rate 10) (c.variant.getD .perPixel)
  | .randomFill => .randomFill

end Cue

end LightShow
