import LightShow.Effect.Basic
import LightShow.Layout.Basic

namespace LightShow

/-!
# The light of a cue

* `Cue.progress` — how much of a cue is over;
* `chaseRole`, `fills`, `keeps`, `sweepEdge`, `sparkleNoise`, `randomHue`, `revealPoint` — the
  rules of single effects;
* `Cue.effectColor` — the color that an effect gives to an LED;
* `Cue.light` — that color under the brightness of the cue.

The time of an effect is counted in milliseconds from the start of its cue. The range and the window
of the cue are not looked at here.
-/

/-! ### Time -/

/-- A number moved into the range from 0 to 1; a NaN stays. -/
def clampUnit (x : Float) : Float := if x < 0.0 then 0.0 else if x > 1.0 then 1.0 else x

/-- The greatest integer not above a number, clamped to signed 64 bits; zero for a NaN. -/
def wholeSteps (x : Float) : Int := (Double.ofFloat x).floorInt64

namespace Cue

/-- How much of a cue is over, from 0 to 1; a cue that never lasts is over. -/
def progress (c : Cue) (elapsed : Float) : Float :=
  if 0.0 < c.duration.toFloat then clampUnit (elapsed / c.duration.toFloat) else 1.0

/-- The index of the last LED of the range, counted from its first LED. -/
def width (c : Cue) : Int := (c.rangeEnd.toNat : Int) - c.rangeStart.toNat

/-- The index of an LED, counted from the first LED of the range. -/
def offset (c : Cue) (led : UInt16) : Int := (led.toNat : Int) - c.rangeStart.toNat

end Cue

/-! ### Travelling effects -/

/-- What an LED is to a chase. -/
inductive ChaseRole where
  | head
  | trail
  | background
  deriving DecidableEq

/-- The offset of the head of a chase in a range of positive width. -/
def chaseHead (width : Int) (direction : Direction) (travelled : Int) : Int :=
  match direction with
  | .forward => travelled % width
  | .backward => width - 1 - travelled % width

/-- What the LED at an offset is, if the head is at `head`. The trail is one LED behind the head and
    leaves the range at one end as the head enters it at the other. -/
def chaseRole (width : Int) (direction : Direction) (head offset : Int) : ChaseRole :=
  let trail : Bool :=
    match direction with
    | .forward => offset == head - 1 || (head == 0 && offset == width - 1)
    | .backward => offset == head + 1 || (head == width - 1 && offset == 0)
  if offset = head then .head else if trail then .trail else .background

/-- How many LEDs of a range an effect has passed. -/
def passed (progress : Float) (width : Int) : Int := wholeSteps (progress * Float.ofInt width)

/-- Whether a fill lights the LED at an offset. -/
def fills (direction : Direction) (width passed offset : Int) : Bool :=
  match direction with
  | .forward => offset < passed
  | .backward => width - passed ≤ offset

/-- Whether a wipe leaves the LED at an offset lit. -/
def keeps (direction : Direction) (width passed offset : Int) : Bool :=
  match direction with
  | .forward => passed ≤ offset
  | .backward => offset < width - passed

/-! ### Sweeps over the body -/

/-- The place that a sweep has reached. It starts before the body and ends behind it. -/
def sweepEdge (direction : Direction) (progress : Float) : Float :=
  match direction with
  | .forward => -0.05 + progress * 1.1
  | .backward => 1.05 - progress * 1.1

/-- Whether a fill that has reached an edge lights a place. -/
def sweepFills (direction : Direction) (edge place : Float) : Bool :=
  match direction with
  | .forward => place ≤ edge
  | .backward => edge ≤ place

/-- Whether a wipe that has reached an edge leaves a place lit. -/
def sweepKeeps (direction : Direction) (edge place : Float) : Bool :=
  match direction with
  | .forward => edge < place
  | .backward => place < edge

/-! ### Scattered effects -/

/-- The part of a positive number after its point. -/
def fractionPart (x : Float) : Float := x - x.floor

/-- The noise, from 0 to 1, by which a sparkle chooses LEDs. -/
def sparkleNoise (led : UInt16) (step : Float) : Float :=
  fractionPart ((led.toFloat * 12.9898 + step * 78.233).sin * 43758.5453).abs

/-- The hue, from 0 to 1, of a random effect. -/
def randomHue (spread : HueSpread) (led : UInt16) (step : Float) : Float :=
  let own := match spread with
    | .uniform => 0.0
    | .perPixel => led.toFloat * 999.9
  fractionPart (step * 43758.5453 + own).sin.abs

/-- The length of a step of a random effect in milliseconds, at least one. -/
def randomStepLength (hz : Float) : Float :=
  let length := 1000.0 / hz
  if length > 1.0 then length else 1.0

/-- The progress at which a scattered fill lights an LED. -/
def revealPoint (led : UInt16) : Float :=
  Float.ofNat ((led.toNat * 9301 + 49297) % 233280) / 233280.0

/-! ### Colors -/

namespace Cue

/-- The main color or black. -/
def onOff (c : Cue) (on : Bool) : Color := if on then c.color else .black

/-- The color that the effect of a cue gives to an LED. -/
def effectColor (c : Cue) (layout : Layout) (led : UInt16) (elapsed : Float) : Color :=
  match c.effect with
  | .solid => c.color
  | .strobe hz => c.onOff (wholeSteps (elapsed / (1000.0 / hz.toFloat)) % 2 == 0)
  | .chase speed direction background =>
    if c.width ≤ 0 then .black
    else
      let travelled := wholeSteps (elapsed / 1000.0 * speed.toFloat)
      match chaseRole c.width direction (chaseHead c.width direction travelled) (c.offset led) with
      | .head => c.color
      | .trail => c.color.dim 0.5
      | .background => background
  | .fill direction =>
    c.onOff (fills direction c.width (passed (c.progress elapsed) c.width) (c.offset led))
  | .wipe direction =>
    c.onOff (keeps direction c.width (passed (c.progress elapsed) c.width) (c.offset led))
  | .bodyFill direction pose =>
    c.onOff (sweepFills direction (sweepEdge direction (c.progress elapsed))
      (layout.y led pose direction .bodyFill))
  | .bodyWipe direction pose =>
    c.onOff (sweepKeeps direction (sweepEdge direction (c.progress elapsed))
      (layout.y led pose direction .bodyWipe))
  | .bodyFillHorizontal direction =>
    c.onOff (sweepFills direction (sweepEdge direction (c.progress elapsed)) (layout.x led))
  | .bodyWipeHorizontal direction =>
    c.onOff (sweepKeeps direction (sweepEdge direction (c.progress elapsed)) (layout.x led))
  | .wave rate =>
    let wave := (elapsed * (rate.toFloat / 1000.0) + led.toFloat * 0.5).sin
    c.color.dim ((wave + 1.0) / 2.0)
  | .fade start => start.mix c.color (c.progress elapsed)
  | .blend target => c.color.mix target (c.progress elapsed)
  | .sparkle hz =>
    c.onOff (sparkleNoise led (elapsed / (1000.0 / hz.toFloat)).floor > 0.8)
  | .gradient target =>
    if 1 < c.width then
      c.color.mix target (clampUnit (Float.ofInt (c.offset led) / Float.ofInt (c.width - 1)))
    else c.color
  | .random hz spread =>
    .ofHsl (randomHue spread led (elapsed / randomStepLength hz.toFloat).floor) 1.0 0.5
  | .randomFill => c.onOff (revealPoint led ≤ c.progress elapsed)

/-- The factor by which a cue is dimmed, if its brightness is below 100 percent. -/
def dimming? (c : Cue) : Option Float :=
  match c.brightness with
  | none => none
  | some b =>
    let b := b.toFloat
    if b < 100.0 then some ((if b < 0.0 then 0.0 else b) / 100.0) else none

/-- The light of a cue on an LED at a time, whether or not the cue is active and covers the LED. -/
def light (c : Cue) (layout : Layout) (led : UInt16) (time : Float) : Color :=
  let color := c.effectColor layout led (time - c.startTime.toFloat)
  match c.dimming? with
  | none => color
  | some factor => color.dim factor

end Cue

end LightShow
