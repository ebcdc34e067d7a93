import LightShow.Json.Decode
import LightShow.Json.Printer
import LightShow.Json.Reader
import LightShow.Layout.Check

namespace LightShow

/-!
# Layouts as JSON

* `Layout.toJson` and `Layout.ofJson?` — the tree of a layout, and the layout of a tree;
* `Layout.parse` — the layout of a text, if it has no fault.
-/

/-- The rule in JSON. -/
def Across.toJson : Across → Json
  | .fixed x => .record [("fixed", .double x)]
  | .ramp start delta =>
    .record [("ramp", .record [("start", .double start), ("delta", .double delta)])]

/-- The rule that a tree stands for. -/
def Across.ofJson? (j : Json) : Option Across :=
  match j.variant? with
  | some ("fixed", some x) => x.toDouble?.map .fixed
  | some ("ramp", some fields) => do
    let [start, delta] ← fields.fields? ["start", "delta"] | none
    return .ramp (← Json.required? Json.toDouble? start) (← Json.required? Json.toDouble? delta)
  | _ => none

/-- The landmark in JSON. -/
def Landmark.toJson (mark : Landmark) : Json := .text mark.name

/-- The landmark that a tree stands for. -/
def Landmark.ofJson? (j : Json) : Option Landmark := j.choice? all name

/-- The rule in JSON. -/
def Upright.toJson : Upright → Json
  | .anchor mark => .record [("anchor", mark.toJson)]
  | .span first last => .record [("span", .record [("from", first.toJson), ("to", last.toJson)])]
  | .offset mark distance =>
    .record [("offset", .record [("anchor", mark.toJson), ("offset", .double distance)])]
  | .pocket => .text "pocket"

/-- The rule that a tree stands for. -/
def Upright.ofJson? (j : Json) : Option Upright :=
  match j.variant? with
  | some ("anchor", some mark) => (Landmark.ofJson? mark).map .anchor
  | some ("span", some fields) => do
    let [first, last] ← fields.fields? ["from", "to"] | none
    return .span (← Json.required? Landmark.ofJson? first) (← Json.required? Landmark.ofJson? last)
  | some ("offset", some fields) => do
    let [mark, distance] ← fields.fields? ["anchor", "offset"] | none
    return .offset (← Json.required? Landmark.ofJson? mark)
      (← Json.required? Json.toDouble? distance)
  | some ("pocket", none) => some .pocket
  | some ("pocket", some .null) => some .pocket
  | _ => none

/-- The segment in JSON. -/
def Segment.toJson (s : Segment) : Json :=
  .record [("part", .text s.part), ("last", .nat s.last.toNat), ("x", s.x.toJson),
    ("y", s.y.toJson)]

/-- The segment that a tree stands for. -/
def Segment.ofJson? (j : Json) : Option Segment := do
  let [part, last, x, y] ← j.fields? ["part", "last", "x", "y"] | none
  return {
    part := ← Json.required? Json.toText? part
    last := ← Json.required? Json.toUInt16? last
    x := ← Json.required? Across.ofJson? x
    y := ← Json.required? Upright.ofJson? y }

namespace Layout

/-- The layout in JSON. -/
def toJson (layout : Layout) : Json :=
  .record [("segments", .array (layout.segments.map Segment.toJson))]

/-- The layout that a tree stands for, with or without faults. -/
def ofJson? (j : Json) : Option Layout := do
  let [segments] ← j.fields? ["segments"] | none
  return ⟨← Json.required? (Json.toList? Segment.ofJson?) segments⟩

/-- The layout of a text, with or without faults. -/
def parseUnchecked (text : String) : Except ShowError Layout :=
  match (Json.parse? text).bind ofJson? with
  | some layout => .ok layout
  | none => .error (.malformed "expected a layout")

/-- The layout of a text, if it has no fault. -/
def parse (text : String) : Except ShowError Layout := parseUnchecked text >>= check

end Layout

end LightShow
