import LightShow.Double.Rounding
import LightShow.Effect.Kind
import LightShow.NameTable

namespace LightShow

/-!
# Where the LEDs sit on the body

* `Segment` — a run of LEDs on one part of the body, with a rule for each coordinate;
* `Layout` — the segments of a suit in the order of its data line;
* `Layout.locate` — the segment of an LED and how far along it the LED sits;
* `Layout.x`, `Layout.y` — the coordinates of an LED; 0 is left and top, 1 is right and bottom;
* `Layout.ledCount`, `Layout.partCounts` — how many LEDs there are, and how many on every part.
-/

/-! ### Segments -/

/-- A height on the body. -/
inductive Landmark where
  | top
  | shoulder
  | waist
  | wrist
  | feet
  deriving DecidableEq, Inhabited

namespace Landmark

/-- All landmarks, from the top of the head to the feet. -/
def all : List Landmark := [.top, .shoulder, .waist, .wrist, .feet]

/-- The written name of a landmark. -/
def name : Landmark → String
  | .top => "top"
  | .shoulder => "shoulder"
  | .waist => "waist"
  | .wrist => "wrist"
  | .feet => "feet"

/-- The height of a landmark. Raised wrists are at the shoulders. -/
def height (mark : Landmark) (pose : Pose) : Float :=
  match mark, pose with
  | .top, _ => 0.0
  | .shoulder, _ => 0.20
  | .waist, _ => 0.50
  | .wrist, .handsDown => 0.60
  | .wrist, .handsUp => 0.20
  | .feet, _ => 1.0

end Landmark

/-- How far across the body a segment runs. -/
inductive Across where
  /-- All LEDs at one place. -/
  | fixed (x : Double)
  /-- From `start` on by `delta` up to the last LED. -/
  | ramp (start delta : Double)
  deriving DecidableEq

/-- How high on the body a segment runs. -/
inductive Upright where
  /-- All LEDs at one landmark. -/
  | anchor (mark : Landmark)
  /-- From one landmark to another. -/
  | span (first last : Landmark)
  /-- All LEDs at a distance from a landmark. -/
  | offset (mark : Landmark) (distance : Double)
  /-- At the waist; at the feet for a vertical wipe that runs backward. -/
  | pocket
  deriving DecidableEq

/-- A run of LEDs on one part of the body. -/
structure Segment where
  /-- The name of the part. -/
  part : String
  /-- The index of the last LED. -/
  last : UInt16
  /-- The horizontal rule. -/
  x : Across
  /-- The vertical rule. -/
  y : Upright
  deriving DecidableEq

/-- The place of an LED within a segment. -/
structure Placement where
  /-- The segment. -/
  segment : Segment
  /-- The number of LEDs of the segment before this one. -/
  step : Nat
  /-- The number of LEDs of the segment before its last one. -/
  span : Nat
  deriving DecidableEq

/-- How much of the segment lies before the LED; nothing for a segment of one LED. -/
def Placement.fraction (p : Placement) : Float :=
  if p.span = 0 then 0.0 else Float.ofNat p.step / Float.ofNat p.span

/-! ### Layouts -/

/-- The segments of a suit, in the order of its data line. The first one begins with LED 0, every
    other one after the last LED of the segment before it. -/
structure Layout where
  /-- The segments. -/
  segments : List Segment
  deriving DecidableEq

namespace Layout

/-- The coordinate of an LED that is in no segment. -/
def neutral : Float := 0.5

/-- The first of these segments that reaches as far as an LED, if the first LED of the first one is
    `first`. -/
def locateFrom (led : UInt16) (first : Nat) : List Segment → Option Placement
  | [] => none
  | segment :: rest =>
    if led ≤ segment.last then
      some ⟨segment, led.toNat - first, segment.last.toNat - first⟩
    else locateFrom led (segment.last.toNat + 1) rest

/-- The segment of an LED. -/
def locate (layout : Layout) (led : UInt16) : Option Placement := locateFrom led 0 layout.segments

/-- The name of the part that an LED sits on. -/
def partAt (layout : Layout) (led : UInt16) : Option String :=
  (layout.locate led).map (·.segment.part)

/-- How far to the right an LED sits. -/
def x (layout : Layout) (led : UInt16) : Float :=
  match layout.locate led with
  | none => neutral
  | some p =>
    match p.segment.x with
    | .fixed x => x.toFloat
    | .ramp start delta => start.toFloat + p.fraction * delta.toFloat

/-- How far below the top of the head an LED sits, as a sweep of the given kind sees it. -/
def y (layout : Layout) (led : UInt16) (pose : Pose) (direction : Direction)
    (kind : EffectKind) : Float :=
  match layout.locate led with
  | none => neutral
  | some p =>
    match p.segment.y with
    | .anchor mark => mark.height pose
    | .span first last =>
      first.height pose + p.fraction * (last.height pose - first.height pose)
    | .offset mark distance => mark.height pose + distance.toFloat
    | .pocket =>
      if kind = .bodyWipe ∧ direction = .backward then Landmark.feet.height pose
      else Landmark.waist.height pose

/-- Where a preview draws an LED. -/
def position (layout : Layout) (led : UInt16) (pose : Pose) : Float × Float :=
  (layout.x led, layout.y led pose .forward .bodyFill)

/-- The number of LEDs, as far as sixteen bits can tell it. -/
def ledCount (layout : Layout) : UInt16 :=
  match layout.segments.getLast? with
  | none => 0
  | some segment => UInt16.ofNat (min (segment.last.toNat + 1) 65535)

/-- The segments with the index of their first LED. -/
def starts (layout : Layout) : List (Nat × Segment) :=
  (0 :: layout.segments.map (·.last.toNat + 1)).zip layout.segments

/-- The number of LEDs on every part; segments on one part count together. The numbers wrap around
    where a segment ends before it begins, which no checked layout has. -/
def partCounts (layout : Layout) : NameTable UInt32 :=
  layout.starts.foldl (fun table entry =>
    table.alter entry.2.part fun old =>
      old.getD 0 + (entry.2.last.toUInt32 + 1 - UInt32.ofNat entry.1)) .empty

end Layout

end LightShow
