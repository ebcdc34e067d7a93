import LightShow.Color
import LightShow.Json.Decode
import LightShow.Json.Reader

namespace LightShow

/-!
# Events

* `Event` — at a time, an LED of a suit takes a color;
* `Event.toJson` and `Event.ofJson?` — events in JSON;
* `Event.bytes` and `Event.ofBytes` — records of ten bytes, low bytes first.
-/

/-- One LED takes a color. -/
structure Event where
  /-- When, in milliseconds. -/
  time : UInt32
  /-- The id of the suit. -/
  suit : UInt8
  /-- The index of the LED. -/
  led : UInt16
  /-- The color. -/
  color : Color
  deriving DecidableEq

namespace Event

/-! ### JSON -/

/-- The event in JSON. -/
def toJson (e : Event) : Json :=
  .record [("ms", .nat e.time.toNat), ("suit", .nat e.suit.toNat), ("led", .nat e.led.toNat),
    ("r", .nat e.color.red.toNat), ("g", .nat e.color.green.toNat),
    ("b", .nat e.color.blue.toNat)]

/-- The event that a tree stands for. -/
def ofJson? (j : Json) : Option Event := do
  let [time, suit, led, red, green, blue] ← j.fields? ["ms", "suit", "led", "r", "g", "b"] | none
  return {
    time := ← Json.required? Json.toUInt32? time
    suit := ← Json.required? Json.toUInt8? suit
    led := ← Json.required? Json.toUInt16? led
    color := ⟨← Json.required? Json.toUInt8? red, ← Json.required? Json.toUInt8? green,
      ← Json.required? Json.toUInt8? blue⟩ }

/-- The events of a text. -/
def parseList (text : String) : Except ShowError (List Event) :=
  match (Json.parse? text).bind (Json.toList? ofJson?) with
  | some events => .ok events
  | none => .error (.malformed "expected a list of events")

/-! ### Records -/

/-- The low bytes of a number, the lowest one first. -/
def lowBytes : Nat → Nat → List UInt8
  | 0, _ => []
  | count + 1, n => n.toUInt8 :: lowBytes count (n / 256)

/-- The number of the given bytes, the lowest one first. -/
def ofLowBytes (bytes : List UInt8) : Nat := bytes.foldr (fun b n => b.toNat + 256 * n) 0

/-- Low bytes spell the remainder of a number. -/
@[simp] theorem ofLowBytes_lowBytes (count n : Nat) :
    ofLowBytes (lowBytes count n) = n % Nat.pow 256 count := by
  induction count generalizing n with
  | zero => simp [lowBytes, ofLowBytes, Nat.mod_one]
  | succ count ih =>
    have step : ofLowBytes (lowBytes (count + 1) n)
        = n % 256 + 256 * ofLowBytes (lowBytes count (n / 256)) := by
      simp [lowBytes, ofLowBytes]
    have place : Nat.pow 256 (count + 1) = 256 * Nat.pow 256 count := Nat.mul_comm _ _
    rw [step, ih, place, Nat.mod_mul]

/-- The number of bytes of a record. -/
def recordLength : Nat := 10

/-- The record of an event: four bytes of time, one of suit, two of index, three of color. -/
def record (e : Event) : List UInt8 :=
  lowBytes 4 e.time.toNat ++ [e.suit] ++ lowBytes 2 e.led.toNat
    ++ [e.color.red, e.color.green, e.color.blue]

/-- The records of a list of events, one after another. -/
def bytes (events : List Event) : List UInt8 := events.flatMap record

/-- The events of a list of whole records. -/
def ofRecords? : List UInt8 → Option (List Event)
  | [] => some []
  | t₀ :: t₁ :: t₂ :: t₃ :: suit :: l₀ :: l₁ :: red :: green :: blue :: rest =>
    (ofRecords? rest).map
      (⟨UInt32.ofNat (ofLowBytes [t₀, t₁, t₂, t₃]), suit, UInt16.ofNat (ofLowBytes [l₀, l₁]),
        ⟨red, green, blue⟩⟩ :: ·)
  | _ => none

/-- The events of a record stream; refused if it ends inside of a record. -/
def ofBytes (stream : List UInt8) : Except ShowError (List Event) :=
  match ofRecords? stream with
  | some events => .ok events
  | none => .error (.invalid (.brokenRecord stream.length))

end Event

end LightShow
