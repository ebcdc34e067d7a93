import LightShow.Color
import LightShow.Double.Rounding
import LightShow.Effect.Kind

namespace LightShow

/-!
# Cues

* `Cue` — an effect on a range of LEDs of one suit, for some time;
* `Cue.isActiveAt`, `Cue.coversLed` — its window and its range.

Settings that the editor left out stay `none`, so that a project is written as it was read; their
defaults are part of the effects.
-/

/-- An effect on a range of LEDs of one suit. -/
structure Cue where
  /-- The editor's name for the cue. -/
  id : String
  /-- The suit that the cue is for. -/
  suitId : UInt8
  /-- When the cue starts, in milliseconds. -/
  startTime : Double
  /-- How long the cue lasts, in milliseconds; never active unless positive. -/
  duration : Double
  /-- The effect. -/
  kind : EffectKind
  /-- The main color. -/
  color : Color
  /-- The background or the other end of a transition. -/
  secondaryColor : Option Color
  /-- How random hues are spread. -/
  variant : Option HueSpread
  /-- The way in which the effect travels. -/
  direction : Option Direction
  /-- How the arms are held during a sweep over the body. -/
  pose : Option Pose
  /-- The rate of the effect. -/
  speed : Option Double
  /-- How bright the effect is, in percent. -/
  brightness : Option Double
  /-- The first LED of the range. -/
  rangeStart : UInt16
  /-- The last LED of the range. -/
  rangeEnd : UInt16
  deriving DecidableEq

namespace Cue

/-- A cue with every optional setting left out. -/
def plain (id : String) (suitId : UInt8) (kind : EffectKind) (startTime duration : Double)
    (color : Color) (rangeStart rangeEnd : UInt16) : Cue where
  id := id
  suitId := suitId
  startTime := startTime
  duration := duration
  kind := kind
  color := color
  secondaryColor := none
  variant := none
  direction := none
  pose := none
  speed := none
  brightness := none
  rangeStart := rangeStart
  rangeEnd := rangeEnd

/-- When the cue is over. -/
def endTime (c : Cue) : Float := c.startTime.toFloat + c.duration.toFloat

/-- Whether a time is in the window of the cue, which its end is not part of. -/
def isActiveAt (c : Cue) (t : Float) : Bool :=
  0.0 < c.duration.toFloat && c.startTime.toFloat ≤ t && t < c.endTime

/-- Whether an LED is in the range of the cue, which both ends are part of. -/
def coversLed (c : Cue) (led : UInt16) : Bool := c.rangeStart ≤ led && led ≤ c.rangeEnd

end Cue

end LightShow
