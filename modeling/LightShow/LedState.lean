import LightShow.Color

namespace LightShow

/-!
# What an LED shows

* `LedState` — nothing, or a color;
* `LightSum` — the sum of the light that falls on an LED;
* `LightSum.state` — what the LED shows under that sum.

An LED without light is kept apart from one that shows black or gray: a preview draws it in gray,
and the suit leaves it dark.
-/

/-- What an LED shows at one instant. -/
inductive LedState where
  /-- No light falls on the LED. -/
  | idle
  /-- The LED shows a color. -/
  | lit (color : Color)
  deriving DecidableEq

namespace LedState

/-- The color by which a preview draws the LED. -/
def display : LedState → Color
  | .idle => .idleGray
  | .lit c => c

/-- The color that the LED itself shows. -/
def output : LedState → Color
  | .idle => .black
  | .lit c => c

/-- Whether no light falls on the LED. -/
def isIdle : LedState → Bool
  | .idle => true
  | .lit _ => false

end LedState

/-- A sum of colors, in thirty-two bits per channel. -/
structure LightSum where
  red : UInt32
  green : UInt32
  blue : UInt32

namespace LightSum

/-- No light. -/
def zero : LightSum := ⟨0, 0, 0⟩

/-- The sum with one more color. -/
def add (sum : LightSum) (c : Color) : LightSum :=
  ⟨sum.red + c.red.toUInt32, sum.green + c.green.toUInt32, sum.blue + c.blue.toUInt32⟩

/-- A channel of a sum, at most 255. -/
def clamp (n : UInt32) : UInt8 := (min n 255).toUInt8

/-- What an LED shows under a sum of light: every channel at most 255, idle if all are zero. -/
def state (sum : LightSum) : LedState :=
  let c : Color := ⟨clamp sum.red, clamp sum.green, clamp sum.blue⟩
  if c = .black then .idle else .lit c

end LightSum

end LightShow
