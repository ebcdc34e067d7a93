import LightShow.Fault
import LightShow.Text.Blank
import LightShow.Text.Hex

namespace LightShow

/-!
# Colors

* `Color` — eight bits of red, green and blue;
* `Color.ofHex`, `Color.hex` — the form `#rrggbb`;
* `Color.mix`, `Color.dim`, `Color.ofHsl` — arithmetic, rounded by `channel`.
-/

/-- A color of eight bits per channel. -/
structure Color where
  red : UInt8
  green : UInt8
  blue : UInt8
  deriving DecidableEq, Inhabited

/-- The channel value nearest to a number, the upper one at a tie; clamped to eight bits, and zero
    for a NaN. -/
def channel (x : Float) : UInt8 := (x + 0.5).toUInt8

namespace Color

/-- All channels off. -/
def black : Color := ⟨0, 0, 0⟩

/-- The gray by which a preview shows an LED without light. -/
def idleGray : Color := ⟨0x33, 0x33, 0x33⟩

/-! ### Packed and hexadecimal form -/

/-- The color `0xrrggbb`; bits above the lowest twenty-four do not count. -/
def ofPacked (v : Nat) : Color := ⟨(v / 0x10000).toUInt8, (v / 0x100).toUInt8, v.toUInt8⟩

/-- The number `0xrrggbb`. -/
def packed (c : Color) : Nat :=
  c.red.toNat * 0x10000 + c.green.toNat * 0x100 + c.blue.toNat

/-- The six digits of a color. -/
def hexDigits (c : Color) : List Char := hexByte c.red ++ hexByte c.green ++ hexByte c.blue

/-- The text `#rrggbb`. -/
def hex (c : Color) : String := String.ofList ('#' :: c.hexDigits)

/-- A text without the number sign in front. -/
def dropHash : List Char → List Char
  | '#' :: rest => rest
  | text => text

/-- The color of six hexadecimal digits after an optional number sign. White space around them does
    not count. -/
def ofHex? (s : String) : Option Color :=
  let digits := dropHash (trimBlanks s.toList)
  if digits.length = 6 then (hexNumber? digits).map ofPacked else none

/-- The color of a text, as `ofHex?` reads it. -/
def ofHex (s : String) : Except ShowError Color :=
  match ofHex? s with
  | some c => .ok c
  | none => .error (.invalid (.badColor s))

/-! ### Arithmetic -/

/-- The channel at the fraction `t` of the way from one value to another. -/
def mixChannel (a b : UInt8) (t : Float) : UInt8 :=
  channel (a.toFloat + (b.toFloat - a.toFloat) * t)

/-- The color at the fraction `t` of the way from one color to another. -/
def mix (a b : Color) (t : Float) : Color :=
  ⟨mixChannel a.red b.red t, mixChannel a.green b.green t, mixChannel a.blue b.blue t⟩

/-- Every channel times a factor. -/
def dim (c : Color) (factor : Float) : Color :=
  ⟨channel (c.red.toFloat * factor), channel (c.green.toFloat * factor),
    channel (c.blue.toFloat * factor)⟩

/-- The share of a channel at a place on the color wheel, between the least and the greatest
    share `p` and `q`. -/
def hueShare (p q place : Float) : Float :=
  let t := if place < 0.0 then place + 1.0 else place
  let t := if t > 1.0 then t - 1.0 else t
  if t < 1.0 / 6.0 then p + (q - p) * 6.0 * t
  else if t < 1.0 / 2.0 then q
  else if t < 2.0 / 3.0 then p + (q - p) * (2.0 / 3.0 - t) * 6.0
  else p

/-- The color of a hue, a saturation and a lightness, each from 0 to 1. -/
def ofHsl (h s l : Float) : Color :=
  if s == 0.0 then ⟨channel (l * 255.0), channel (l * 255.0), channel (l * 255.0)⟩
  else
    let q := if l < 0.5 then l * (1.0 + s) else l + s - l * s
    let p := 2.0 * l - q
    ⟨channel (hueShare p q (h + 1.0 / 3.0) * 255.0), channel (hueShare p q h * 255.0),
      channel (hueShare p q (h - 1.0 / 3.0) * 255.0)⟩

end Color

end LightShow
