import LightShow.Effect.Light
import LightShow.LedState
import LightShow.Project.Basic

namespace LightShow

/-!
# Mixing the light of several cues

* `activeCues` — the cues for a suit whose windows a time is in;
* `Cue.contribution` — the light of a cue on the LEDs of its range;
* `ledState` — what an LED shows under several cues: the sum of their light;
* `Suit.states` — what the LEDs of a suit show at a time.
-/

/-- The cues for a suit that are active at a time, in their order. -/
def activeCues (cues : List Cue) (suitId : UInt8) (time : Float) : List Cue :=
  cues.filter fun c => c.suitId == suitId && c.isActiveAt time

/-- The light of a cue on an LED; none outside of its range. -/
def Cue.contribution (c : Cue) (layout : Layout) (led : UInt16) (time : Float) : Color :=
  if c.coversLed led then c.light layout led time else .black

/-- What an LED shows if these cues are active. -/
def ledState (layout : Layout) (led : UInt16) (time : Float) (active : List Cue) : LedState :=
  ((active.filter (·.coversLed led)).foldl
    (fun sum c => sum.add (c.light layout led time)) LightSum.zero).state

/-- What the first `ledCount` LEDs show if these cues are active. -/
def ledStates (layout : Layout) (ledCount : UInt16) (time : Float) (active : List Cue) :
    List LedState :=
  if active.isEmpty then List.replicate ledCount.toNat .idle
  else (List.range ledCount.toNat).map fun led => ledState layout led.toUInt16 time active

/-- What the LEDs of a suit show at a time. -/
def Suit.states (suit : Suit) (layout : Layout) (cues : List Cue) (time : Float) :
    List LedState :=
  ledStates layout suit.ledCount time (activeCues cues suit.id time)

end LightShow
