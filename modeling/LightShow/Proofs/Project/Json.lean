import LightShow.Project.Json
import LightShow.Proofs.Color
import LightShow.Proofs.Json.Decoding
import LightShow.Proofs.Json.Reading

namespace LightShow

/-!
# Projects are read as they were written

* `Project.HasFiniteFloats` — every time, rate and brightness of the cues is finite;
* `Cue.ofJson?_toJson`, `Suit.ofJson?_toJson`, `Project.ofJson?_toJson` — the tree of a value stands
  for that value.

JSON has no infinite numbers and no NaN: such a number is written as `null`, which is read as a
missing setting or refused.
-/

/-! ### Named choices -/

theorem EffectKind.find?_name (k : EffectKind) : all.find? (name · == k.name) = some k := by
  cases k <;> decide

theorem HueSpread.find?_name (v : HueSpread) : all.find? (name · == v.name) = some v := by
  cases v <;> decide

theorem Direction.find?_name (d : Direction) : all.find? (name · == d.name) = some d := by
  cases d <;> decide

theorem Pose.find?_name (p : Pose) : all.find? (name · == p.name) = some p := by
  cases p <;> decide

/-- A color is read as it was written. -/
@[simp] theorem Color.ofJson?_toJson (c : Color) : Color.ofJson? c.toJson = some c := by
  rw [Color.ofJson?, Color.toJson, Json.toText?_text, Option.bind_some, Color.ofHex?_hex]

/-! ### Cues -/

namespace Cue

/-- All floats of a cue are finite. -/
structure HasFiniteFloats (c : Cue) : Prop where
  startTime : c.startTime.isFinite = true
  duration : c.duration.isFinite = true
  speed : ∀ x, c.speed = some x → x.isFinite = true
  brightness : ∀ x, c.brightness = some x → x.isFinite = true

/-- The values of the fields of a cue; settings that are left out have none. -/
def fieldValues (c : Cue) : List (Option Json) :=
  [some (.text c.id), some (.nat c.suitId.toNat), some (.double c.startTime),
    some (.double c.duration), some (.text c.kind.name), some c.color.toJson,
    c.secondaryColor.map Color.toJson, c.variant.map fun v => .text v.name,
    c.direction.map fun d => .text d.name, c.pose.map fun p => .text p.name,
    c.speed.map Json.double, c.brightness.map Json.double,
    some (.nat c.rangeStart.toNat), some (.nat c.rangeEnd.toNat)]

/-- A setting is written as a field that may be left out. -/
theorem written_map_cons {α : Type} (name : String) (write : α → Json) (value : Option α)
    (rest : List (String × Option Json)) :
    Json.written ((name, value.map write) :: rest)
      = Json.setting name write value ++ Json.written rest := by
  cases value <;> rfl

/-- The tree of a cue is the record of its fields. -/
theorem toJson_eq (c : Cue) : c.toJson = .record (Json.written (fieldNames.zip c.fieldValues)) := by
  unfold toJson fieldNames fieldValues
  simp only [List.zip_cons_cons, Json.written_cons_some, written_map_cons, List.cons_append,
    List.append_assoc, List.nil_append]
  rfl

/-- The values of a cue are found in its tree. -/
theorem fields?_toJson (c : Cue) : c.toJson.fields? fieldNames = some c.fieldValues := by
  rw [toJson_eq]
  exact Json.fields?_record (by decide) rfl

/-- A finite double that may be left out is read as it was written. -/
theorem optional?_double {value : Option Double}
    (h : ∀ x, value = some x → x.isFinite = true) :
    Json.optional? Json.toDouble? (value.map Json.double) = some value := by
  refine Json.optional?_map (fun x hx => ?_) fun x hx => Json.toDouble?_double (h x hx)
  rw [Json.double, if_pos (h x hx)]
  intro hnull
  cases hnull

/-- **Cues.** The tree of a cue stands for that cue. -/
theorem ofJson?_toJson {c : Cue} (h : c.HasFiniteFloats) : ofJson? c.toJson = some c := by
  have hcolor : Json.optional? Color.ofJson? (c.secondaryColor.map Color.toJson)
      = some c.secondaryColor := by
    refine Json.optional?_map (fun x _ => ?_) fun x _ => x.ofJson?_toJson
    intro hnull
    cases hnull
  have hvariant := Json.optional?_choice c.variant HueSpread.find?_name
  have hdirection := Json.optional?_choice c.direction Direction.find?_name
  have hpose := Json.optional?_choice c.pose Pose.find?_name
  unfold ofJson?
  rw [fields?_toJson, Option.bind_eq_bind, Option.bind_some]
  unfold fieldValues
  dsimp only
  simp only [Json.required?_some, Json.toText?_text, Json.toUInt8?_nat, Json.toUInt16?_nat,
    Json.toDouble?_double h.startTime, Json.toDouble?_double h.duration,
    Json.choice?_text c.kind.find?_name, Color.ofJson?_toJson, hcolor, hvariant, hdirection, hpose,
    optional?_double h.speed, optional?_double h.brightness]
  rfl

end Cue

/-! ### Suits -/

namespace Suit

/-- The values of the fields of a suit. -/
def fieldValues (s : Suit) : List (Option Json) :=
  [some (.nat s.id.toNat), some (.text s.name), some (.nat s.ledCount.toNat),
    some (.ofTable (fun n => .nat n.toNat) s.parts)]

/-- The values of a suit are found in its tree. -/
theorem fields?_toJson (s : Suit) :
    s.toJson.fields? ["id", "name", "ledCount", "parts"] = some s.fieldValues := by
  have hrecord : s.toJson
      = .record (Json.written (["id", "name", "ledCount", "parts"].zip s.fieldValues)) := rfl
  rw [hrecord]
  exact Json.fields?_record (by decide) rfl

/-- **Suits.** The tree of a suit stands for that suit. -/
theorem ofJson?_toJson (s : Suit) : ofJson? s.toJson = some s := by
  have hparts := Json.toTable?_ofTable s.parts Json.toUInt32?_nat
  unfold ofJson?
  rw [fields?_toJson, Option.bind_eq_bind, Option.bind_some]
  unfold fieldValues
  dsimp only
  simp only [Json.required?_some, Json.withDefault?_some, Json.toText?_text, Json.toUInt8?_nat,
    Json.toUInt16?_nat, hparts]
  rfl

end Suit

/-! ### Projects -/

namespace Project

/-- All floats of a project are finite. -/
def HasFiniteFloats (p : Project) : Prop := ∀ c ∈ p.cues, c.HasFiniteFloats

/-- The values of the fields of a project. -/
def fieldValues (p : Project) : List (Option Json) :=
  [some (.array (p.suits.map Suit.toJson)), some (.array (p.cues.map Cue.toJson)),
    some (.nat p.duration.toNat), some (.text p.version)]

/-- The values of a project are found in its tree. -/
theorem fields?_toJson (p : Project) :
    p.toJson.fields? ["suits", "cues", "duration", "version"] = some p.fieldValues := by
  have hrecord : p.toJson
      = .record (Json.written (["suits", "cues", "duration", "version"].zip p.fieldValues)) := rfl
  rw [hrecord]
  exact Json.fields?_record (by decide) rfl

/-- **Projects.** The tree of a project stands for that project. -/
theorem ofJson?_toJson {p : Project} (h : p.HasFiniteFloats) : ofJson? p.toJson = some p := by
  have hsuits := Json.toList?_map fun s (_ : s ∈ p.suits) => s.ofJson?_toJson
  have hcues := Json.toList?_map fun c (hc : c ∈ p.cues) => Cue.ofJson?_toJson (h c hc)
  unfold ofJson?
  rw [fields?_toJson, Option.bind_eq_bind, Option.bind_some]
  unfold fieldValues
  dsimp only
  simp only [Json.required?_some, Json.withDefault?_some, Json.toText?_text, Json.toUInt32?_nat,
    hsuits, hcues]
  rfl

end Project

end LightShow
