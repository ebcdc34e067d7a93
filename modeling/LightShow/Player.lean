import LightShow.Show.Basic

namespace LightShow

/-!
# Playing a show

* `Lights` — the colors that the suits show at the moment;
* `Player` — the events still to come and the lights;
* `Player.advance`, `Player.advanceLooped`, `Player.restart` — let time go by.

A suit id has one row of lights, which is as long as the longest suit with that id. An event that
nobody can show is passed over.
-/

/-! ### Lights -/

/-- The colors of the LEDs by suit id, in ascending order of the ids. -/
structure Lights where
  rows : List (UInt8 × Array Color)
  deriving DecidableEq

namespace Lights

/-- The length of the longest suit with an id, if there is one. -/
def rowLength? (suits : List Suit) (id : UInt8) : Option Nat :=
  ((suits.filter (·.id == id)).map (·.ledCount.toNat)).max?

/-- Black lights for some suits. -/
def dark (suits : List Suit) : Lights :=
  ⟨(List.range UInt8.size).filterMap fun id =>
    (rowLength? suits id.toUInt8).map fun length =>
      (id.toUInt8, Array.replicate length Color.black)⟩

/-- The same lights, all black. -/
def darkened (lights : Lights) : Lights :=
  ⟨lights.rows.map fun row => (row.1, Array.replicate row.2.size .black)⟩

/-- The lights after an event. -/
def apply (lights : Lights) (e : Event) : Lights :=
  ⟨lights.rows.map fun (id, colors) =>
    (id, if id = e.suit then colors.setIfInBounds e.led.toNat e.color else colors)⟩

/-- The row of a suit id. -/
def row? (lights : Lights) (suit : UInt8) : Option (Array Color) := lights.rows.lookup suit

/-- The color of an LED. -/
def color? (lights : Lights) (suit : UInt8) (led : UInt16) : Option Color :=
  (lights.row? suit).bind (·[led.toNat]?)

end Lights

/-! ### Players -/

/-- A show being played. -/
structure Player where
  /-- All events of the show. -/
  events : List Event
  /-- The length of the show in milliseconds. -/
  duration : UInt32
  /-- The events that have not been played. -/
  pending : List Event
  /-- The number of events that have been played. -/
  cursor : Nat
  /-- The latest time reached. -/
  now : UInt32
  /-- What the suits show. -/
  lights : Lights
  deriving DecidableEq

namespace Player

/-- A player at time zero with all lights black. -/
def start (s : Show) : Player where
  events := s.events
  duration := s.totalDuration
  pending := s.events
  cursor := 0
  now := 0
  lights := .dark s.project.suits

/-- The events at the front that are due at a time. -/
def due (p : Player) (time : UInt32) : List Event := p.pending.takeWhile (·.time ≤ time)

/-- Plays the events at the front that are due at a time. -/
def advance (p : Player) (time : UInt32) : Player :=
  { p with
    pending := p.pending.dropWhile (·.time ≤ time)
    cursor := p.cursor + (p.due time).length
    now := max p.now time
    lights := (p.due time).foldl Lights.apply p.lights }

/-- Goes back to time zero with all lights black. -/
def restart (p : Player) : Player :=
  { p with pending := p.events, cursor := 0, now := 0, lights := p.lights.darkened }

/-- The time within the show on a clock that starts again after its end. -/
def loopTime (p : Player) (elapsed : Nat) : UInt32 :=
  UInt32.ofNat (elapsed % (p.duration.toNat + 1))

/-- The player from which a looping clock goes on: one that starts again if the clock did. -/
def rewound (p : Player) (time : UInt32) : Player := if time < p.now then p.restart else p

/-- Plays the events that are due on a clock that starts again after the end of the show. -/
def advanceLooped (p : Player) (elapsed : Nat) : Player :=
  (p.rewound (p.loopTime elapsed)).advance (p.loopTime elapsed)

/-- The number of events that `advanceLooped` plays. -/
def dueLooped (p : Player) (elapsed : Nat) : Nat :=
  ((p.rewound (p.loopTime elapsed)).due (p.loopTime elapsed)).length

/-- Whether all events have been played. -/
def finished (p : Player) : Bool := p.pending.isEmpty

end Player

end LightShow
