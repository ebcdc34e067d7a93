import LightShow.Json.Decode
import LightShow.Json.Printer
import LightShow.Json.Reader
import LightShow.Project.Basic

namespace LightShow

/-!
# Projects as JSON

* `Project.toJson` and `Project.ofJson?` — the tree of a project, and the project of a tree;
* `Project.parse` — the project of a text.

Settings that a cue leaves out are not written. They are read as left out where they are missing or
`null`.
-/

/-- The color in JSON. -/
def Color.toJson (c : Color) : Json := .text c.hex

/-- The color that a tree stands for. -/
def Color.ofJson? (j : Json) : Option Color := j.toText?.bind ofHex?

/-- The members of a setting that may be left out. -/
def Json.setting {α : Type} (name : String) (write : α → Json) (value : Option α) :
    List (String × Json) :=
  (value.map fun v => (name, write v)).toList

/-! ### Cues -/

namespace Cue

/-- The names of the fields of a cue, in their order. -/
def fieldNames : List String :=
  ["id", "suitId", "startTime", "duration", "type", "color", "secondaryColor", "variant",
    "direction", "pose", "speed", "brightness", "ledRangeStart", "ledRangeEnd"]

/-- The cue in JSON. -/
def toJson (c : Cue) : Json :=
  .record (
    [("id", .text c.id), ("suitId", .nat c.suitId.toNat), ("startTime", .double c.startTime),
      ("duration", .double c.duration), ("type", .text c.kind.name), ("color", c.color.toJson)]
    ++ Json.setting "secondaryColor" Color.toJson c.secondaryColor
    ++ Json.setting "variant" (fun v => .text v.name) c.variant
    ++ Json.setting "direction" (fun d => .text d.name) c.direction
    ++ Json.setting "pose" (fun p => .text p.name) c.pose
    ++ Json.setting "speed" Json.double c.speed
    ++ Json.setting "brightness" Json.double c.brightness
    ++ [("ledRangeStart", .nat c.rangeStart.toNat), ("ledRangeEnd", .nat c.rangeEnd.toNat)])

/-- The cue that a tree stands for. -/
def ofJson? (j : Json) : Option Cue := do
  let [id, suitId, startTime, duration, kind, color, secondaryColor, variant, direction, pose,
    speed, brightness, rangeStart, rangeEnd] ← j.fields? fieldNames | none
  return {
    id := ← Json.required? Json.toText? id
    suitId := ← Json.required? Json.toUInt8? suitId
    startTime := ← Json.required? Json.toDouble? startTime
    duration := ← Json.required? Json.toDouble? duration
    kind := ← Json.required? (Json.choice? EffectKind.all EffectKind.name) kind
    color := ← Json.required? Color.ofJson? color
    secondaryColor := ← Json.optional? Color.ofJson? secondaryColor
    variant := ← Json.optional? (Json.choice? HueSpread.all HueSpread.name) variant
    direction := ← Json.optional? (Json.choice? Direction.all Direction.name) direction
    pose := ← Json.optional? (Json.choice? Pose.all Pose.name) pose
    speed := ← Json.optional? Json.toDouble? speed
    brightness := ← Json.optional? Json.toDouble? brightness
    rangeStart := ← Json.required? Json.toUInt16? rangeStart
    rangeEnd := ← Json.required? Json.toUInt16? rangeEnd }

end Cue

/-! ### Suits -/

namespace Suit

/-- The suit in JSON. -/
def toJson (s : Suit) : Json :=
  .record [("id", .nat s.id.toNat), ("name", .text s.name), ("ledCount", .nat s.ledCount.toNat),
    ("parts", .ofTable (fun n => .nat n.toNat) s.parts)]

/-- The suit that a tree stands for; without parts if they are missing. -/
def ofJson? (j : Json) : Option Suit := do
  let [id, name, ledCount, parts] ← j.fields? ["id", "name", "ledCount", "parts"] | none
  return {
    id := ← Json.required? Json.toUInt8? id
    name := ← Json.required? Json.toText? name
    ledCount := ← Json.required? Json.toUInt16? ledCount
    parts := ← Json.withDefault? .empty (Json.toTable? Json.toUInt32?) parts }

end Suit

/-! ### Projects -/

namespace Project

/-- The project in JSON. -/
def toJson (p : Project) : Json :=
  .record [("suits", .array (p.suits.map Suit.toJson)), ("cues", .array (p.cues.map Cue.toJson)),
    ("duration", .nat p.duration.toNat), ("version", .text p.version)]

/-- The project that a tree stands for; of the current version if that is missing. -/
def ofJson? (j : Json) : Option Project := do
  let [suits, cues, duration, version] ← j.fields? ["suits", "cues", "duration", "version"] | none
  return {
    suits := ← Json.required? (Json.toList? Suit.ofJson?) suits
    cues := ← Json.required? (Json.toList? Cue.ofJson?) cues
    duration := ← Json.required? Json.toUInt32? duration
    version := ← Json.withDefault? currentVersion Json.toText? version }

/-- The project of a text. -/
def parse (text : String) : Except ShowError Project :=
  match (Json.parse? text).bind ofJson? with
  | some p => .ok p
  | none => .error (.malformed "expected a project")

end Project

end LightShow
