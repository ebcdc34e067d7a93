import LightShow.Json.Decode
import LightShow.Project.Basic

namespace LightShow

/-!
# Lanes of a timeline

* `Lanes` — how many lanes a timeline shows, and the lane of every cue;
* `Lanes.place` — puts a cue into the lowest lane that is free at its start;
* `Lanes.assign` — places all cues in the order of their starts.
-/

/-- The lanes of a timeline. -/
structure Lanes where
  /-- When the last cue of every lane is over. -/
  ends : List Float
  /-- The lane of every cue, by the cue's id. -/
  laneById : NameTable Nat
  deriving DecidableEq

namespace Lanes

/-- The timeline without cues. -/
def empty : Lanes := ⟨[], .empty⟩

/-- The number of lanes. -/
def count (lanes : Lanes) : Nat := lanes.ends.length

/-- The lowest lane that is free at a time, or the number of a new one. -/
def freeLane (ends : List Float) (time : Float) : Nat := ends.findIdx (· ≤ time)

/-- The ends of the lanes after a cue in the given lane, which may be a new one. -/
def setEnd (ends : List Float) (lane : Nat) (time : Float) : List Float :=
  if lane < ends.length then ends.set lane time else ends ++ [time]

/-- Puts a cue into the lowest lane that is free at its start. A later cue of the same id takes the
    place of an earlier one in the table. -/
def place (lanes : Lanes) (c : Cue) : Lanes :=
  let lane := freeLane lanes.ends c.startTime.toFloat
  ⟨setEnd lanes.ends lane c.endTime, lanes.laneById.insert c.id lane⟩

/-- Cues in the order of their starts; those that start together stay in their order. -/
def byStart (cues : List Cue) : List Cue :=
  cues.mergeSort fun a b => decide (a.startTime.rank ≤ b.startTime.rank)

/-- The lanes of a list of cues. -/
def assign (cues : List Cue) : Lanes := (byStart cues).foldl place empty

/-- The lane of a cue; the lowest one for an unknown id. -/
def laneOf (lanes : Lanes) (id : String) : Nat := (lanes.laneById.find? id).getD 0

/-- Whether some cues had to be put beside each other. -/
def hasOverlaps (lanes : Lanes) : Bool := 1 < lanes.count

/-- The lanes in JSON. -/
def toJson (lanes : Lanes) : Json :=
  .record [("laneCount", .nat lanes.count), ("lanes", .ofTable .nat lanes.laneById)]

end Lanes

/-- The lanes of the cues for a suit. -/
def Project.lanesFor (p : Project) (suitId : UInt8) : Lanes := .assign (p.cuesFor suitId)

end LightShow
