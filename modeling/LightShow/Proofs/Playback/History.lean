import LightShow.Proofs.Playback.Advance
import Mathlib.Data.List.Basic
import Mathlib.Data.List.Induction

namespace LightShow

/-!
# The state of a player after any calls

* `Player.Call`, `Player.run` — what a player is asked for, one call after another;
* `playedAfter` — the events that have been played, told from the stream and the calls alone;
* `lastColor` — the color in which events leave an LED that was black;
* `Player.run_start` — all calls before the last restart are forgotten;
* `Player.run_tracks` — the state of a player after any calls, over any stream.

The stream need not be one that a project was compiled into: its times may go back, and its events
may be for suits and LEDs that nobody has. An event that is not due holds up all events behind it.
-/

/-! ### Calls -/

namespace Player

/-- What a player can be asked for. -/
inductive Call where
  /-- Going to a time, which may be earlier than one before. -/
  | advance (time : UInt32)
  /-- Going back to the start. -/
  | restart
  deriving DecidableEq

/-- The player after a call. -/
def perform (player : Player) : Call → Player
  | .advance time => player.advance time
  | .restart => player.restart

/-- The player after some calls, one after another. -/
def run (player : Player) (calls : List Call) : Player := calls.foldl perform player

@[simp] theorem run_concat (player : Player) (calls : List Call) (call : Call) :
    player.run (calls ++ [call]) = (player.run calls).perform call := by
  unfold run
  rw [List.foldl_append]
  rfl

end Player

/-- The times to which calls have gone since the last restart. -/
def timesSinceRestart (calls : List Player.Call) : List UInt32 :=
  calls.foldl (fun times call =>
    match call with
    | .advance time => times ++ [time]
    | .restart => []) []

/-- A call with a time adds that time. -/
@[simp] theorem timesSinceRestart_concat_advance (calls : List Player.Call) (time : UInt32) :
    timesSinceRestart (calls ++ [.advance time]) = timesSinceRestart calls ++ [time] := by
  unfold timesSinceRestart
  rw [List.foldl_append]
  rfl

/-- A restart drops all times. -/
@[simp] theorem timesSinceRestart_concat_restart (calls : List Player.Call) :
    timesSinceRestart (calls ++ [.restart]) = [] := by
  unfold timesSinceRestart
  rw [List.foldl_append]
  rfl

/-! ### What has been played -/

/-- The events that have been played after some calls: the longest beginning of the stream in which
    nothing is later than the latest time since the last restart. -/
def playedAfter (events : List Event) (calls : List Player.Call) : List Event :=
  match (timesSinceRestart calls).max? with
  | none => []
  | some latest => events.takeWhile (·.time ≤ latest)

/-- The color in which events leave an LED that was black. -/
def lastColor (events : List Event) (suit : UInt8) (led : UInt16) : Color :=
  ((lastEvent? events suit led).map (·.color)).getD .black

/-! ### Going back to the start -/

namespace Lights

/-- An event does not change how many LEDs there are. -/
theorem darkened_apply (lights : Lights) (e : Event) :
    (lights.apply e).darkened = lights.darkened := by
  unfold apply darkened
  simp only [List.map_map, Lights.mk.injEq]
  apply List.map_congr_left
  rintro ⟨id, colors⟩ -
  dsimp only [Function.comp_apply]
  split
  · rw [Array.size_setIfInBounds]
  · rfl

/-- Events do not change which rows there are. -/
theorem darkened_foldl_apply (lights : Lights) (events : List Event) :
    (events.foldl apply lights).darkened = lights.darkened := by
  induction events generalizing lights with
  | nil => rfl
  | cons e rest ih => rw [List.foldl_cons, ih, darkened_apply]

/-- Black lights stay as they are. -/
theorem darkened_dark (suits : List Suit) : (dark suits).darkened = dark suits := by
  unfold dark darkened
  simp only [List.map_filterMap, Lights.mk.injEq]
  apply List.filterMap_congr
  intro id _
  cases rowLength? suits id.toUInt8 with
  | none => rfl
  | some length =>
    simp only [Option.map_some, Array.size_replicate]

end Lights

namespace Player

/-- A restart forgets what a call with a time has done. -/
theorem restart_advance (player : Player) (time : UInt32) :
    (player.advance time).restart = player.restart := by
  unfold restart advance
  simp only [Lights.darkened_foldl_apply]

/-- A restart forgets what calls with times have done. -/
theorem restart_foldl_advance (player : Player) (times : List UInt32) :
    (times.foldl advance player).restart = player.restart := by
  induction times generalizing player with
  | nil => rfl
  | cons time rest ih => rw [List.foldl_cons, ih, restart_advance]

theorem restart_start (s : Show) : (start s).restart = start s := by
  unfold restart start
  simp only [Lights.darkened_dark]

/-- **Calls before a restart** are forgotten: only the times since then count. -/
theorem run_start (s : Show) (calls : List Call) :
    (start s).run calls = (timesSinceRestart calls).foldl advance (start s) := by
  -- by the calls, with one more call at the end
  induction calls using List.reverseRecOn with
  | nil => rfl
  | append_singleton calls call ih =>
    rw [run_concat, ih]
    cases call with
    | advance time =>
      rw [timesSinceRestart_concat_advance, List.foldl_append]
      rfl
    | restart =>
      rw [timesSinceRestart_concat_restart]
      exact (restart_foldl_advance _ _).trans (restart_start s)

/-! ### The state after any calls -/

/-- A player of a show that has played the first events of the stream, and no others. -/
structure Tracks (player : Player) (s : Show) (played : List Event) : Prop where
  /-- The cursor counts the events that have been played. -/
  cursor : player.cursor = played.length
  /-- The other events of the stream are still to come. -/
  pending : played ++ player.pending = s.events
  /-- The LEDs below the length of the longest suit with an id have the color of the last event that
      was played for them, and are black without one. There are no other LEDs. -/
  color : ∀ (id : UInt8) (led : UInt16), player.lights.color? id led
    = if ∃ suit ∈ s.project.suits, suit.id = id ∧ led.toNat < suit.ledCount.toNat then
        some (lastColor played id led)
      else none

/-- A player tracks the stream if its lights are those that the events make of black ones. -/
theorem Tracks.of_lights {player : Player} {s : Show} {played : List Event}
    (hcursor : player.cursor = played.length) (hpending : played ++ player.pending = s.events)
    (hlights : player.lights = played.foldl Lights.apply (.dark s.project.suits)) :
    player.Tracks s played := by
  refine ⟨hcursor, hpending, fun id led => ?_⟩
  rw [hlights, Lights.color?_foldl_apply, Lights.color?_dark]
  split <;> rfl

/-- No more events can be played than there are. -/
theorem Tracks.cursor_le {player : Player} {s : Show} {played : List Event}
    (h : player.Tracks s played) : player.cursor ≤ s.events.length := by
  have hlength := congrArg List.length h.pending
  rw [List.length_append] at hlength
  rw [h.cursor]
  omega

/-- After some times, the events that are due at the latest of them have been played. -/
theorem tracks_foldl_advance (s : Show) (times : List UInt32) :
    (times.foldl advance (start s)).Tracks s
      (match times.max? with
        | none => []
        | some latest => s.events.takeWhile (·.time ≤ latest)) := by
  cases times with
  | nil => exact .of_lights rfl rfl rfl
  | cons time rest =>
    -- a run of times is going to the latest of them
    rw [List.foldl_cons, foldl_advance_advance, List.max?_cons']
    exact .of_lights (Nat.zero_add _) List.takeWhile_append_dropWhile rfl

/-- **The state after any calls.** Whatever the stream is and whatever was called, the events at its
    front have been played that are due at the latest time since the last restart. A call that goes
    to a time plays as many events as the cursor goes on by, and two such calls are one call for the
    later time. -/
theorem run_tracks (s : Show) (calls : List Call) :
    ((start s).run calls).Tracks s (playedAfter s.events calls)
      ∧ (∀ time, ((start s).run calls).cursor + (((start s).run calls).due time).length
          = ((start s).run (calls ++ [.advance time])).cursor)
      ∧ ∀ a b, (start s).run (calls ++ [.advance a] ++ [.advance b])
          = (start s).run (calls ++ [.advance (max a b)]) := by
  refine ⟨?_, fun time => ?_, fun a b => ?_⟩
  · rw [run_start]
    exact tracks_foldl_advance s (timesSinceRestart calls)
  · rw [run_concat]
    rfl
  · rw [run_concat, run_concat, run_concat]
    exact advance_advance _ a b

/-- An event that is not due holds up one that is. -/
example : playedAfter [⟨20, 0, 0, .black⟩, ⟨10, 0, 1, .black⟩] [.advance 15] = [] := by decide

end Player

end LightShow
