import LightShow.Proofs.Playback.History

namespace LightShow

/-!
# Playing in a loop

On a looping clock a player goes back to the start only when the clock falls behind the latest time
that the player has reached. Its state is nevertheless that of a new player.

* `Player.LoopCall`, `Player.runLooped` — what a looping player is asked for, one call after another;
* `Player.Settled` — the invariant: a player is where a new one would be that went straight to its
  time;
* `Player.settled_runLooped` — every player is settled, whatever was called;
* `Player.advanceLooped_runLooped` — a looping call forgets all calls before it.
-/

namespace Player

variable {player : Player} {s : Show}

/-! ### Calls on two clocks -/

/-- What a player can be asked for, with calls on a looping clock among the others. -/
inductive LoopCall where
  /-- A call on the clock of the show. -/
  | plain (call : Call)
  /-- Going to a time on a clock that starts again after the end of the show. -/
  | looped (elapsed : Nat)
  deriving DecidableEq

/-- The player after a call on one of the clocks. -/
def performLooped (player : Player) : LoopCall → Player
  | .plain call => player.perform call
  | .looped elapsed => player.advanceLooped elapsed

/-- The player after some calls on either clock, one after another. -/
def runLooped (player : Player) (calls : List LoopCall) : Player := calls.foldl performLooped player

/-! ### Settled players -/

/-- A player is a new one, or where a new one would be that went straight to its time. The first
    case is not part of the second one: a new player has not even played the events at time zero. -/
def Settled (player : Player) (s : Show) : Prop :=
  player = start s ∨ player = (start s).advance player.now

/-- After one call on a new player, its time is that of the call. -/
theorem now_advance_start (s : Show) (time : UInt32) : ((start s).advance time).now = time :=
  max_eq_right_of_le (UInt32.le_iff_toNat_le.mpr (Nat.zero_le time.toNat))

theorem settled_start (s : Show) : (start s).Settled s := .inl rfl

/-- One call settles a new player. -/
theorem settled_advance_start (s : Show) (time : UInt32) : ((start s).advance time).Settled s :=
  .inr (by rw [now_advance_start])

namespace Settled

/-- A settled player has the length of its show. -/
theorem duration_eq (h : player.Settled s) : player.duration = s.totalDuration := by
  rcases h with h | h <;> (rw [h]; rfl)

/-- Going back to the start leaves nothing of what was played. -/
theorem restart_eq (h : player.Settled s) : player.restart = start s := by
  rcases h with h | h
  · rw [h, restart_start]
  · rw [h, restart_advance, restart_start]

/-- A settled player goes on as a new one goes straight to the later time. -/
theorem advance_eq (h : player.Settled s) (time : UInt32) :
    player.advance time = (start s).advance (max player.now time) := by
  rcases h with h | h
  · rw [h]
    exact congrArg (start s).advance (now_advance_start s time).symm
  · calc player.advance time
        = ((start s).advance player.now).advance time := by rw [← h]
      _ = (start s).advance (max player.now time) := advance_advance _ _ _

/-- The state after a looping call is that of a new player at the time within the show. -/
theorem advanceLooped_eq (h : player.Settled s) (elapsed : Nat) :
    player.advanceLooped elapsed = (start s).advance ((start s).loopTime elapsed) := by
  have htime : player.loopTime elapsed = (start s).loopTime elapsed := by
    unfold loopTime
    rw [h.duration_eq]
    rfl
  unfold advanceLooped rewound
  rw [htime]
  by_cases hback : (start s).loopTime elapsed < player.now
  · -- the clock fell behind the player
    rw [if_pos hback, h.restart_eq]
  · rw [if_neg hback, h.advance_eq, max_eq_right_of_le (UInt32.not_lt.mp hback)]

/-- **One call.** A settled player stays settled. -/
theorem performLooped (h : player.Settled s) (call : LoopCall) :
    (player.performLooped call).Settled s := by
  cases call with
  | plain call =>
    cases call with
    | advance time =>
      show (player.advance time).Settled s
      rw [h.advance_eq]
      exact settled_advance_start s _
    | restart =>
      show player.restart.Settled s
      rw [h.restart_eq]
      exact settled_start s
  | looped elapsed =>
    show (player.advanceLooped elapsed).Settled s
    rw [h.advanceLooped_eq]
    exact settled_advance_start s _

/-- **All calls.** -/
theorem runLooped (h : player.Settled s) (calls : List LoopCall) :
    (player.runLooped calls).Settled s := by
  induction calls generalizing player with
  | nil => exact h
  | cons call rest ih => exact ih (h.performLooped call)

end Settled

/-- Whatever was called on either clock, a player is settled. -/
theorem settled_runLooped (s : Show) (calls : List LoopCall) :
    ((start s).runLooped calls).Settled s :=
  (settled_start s).runLooped calls

/-! ### Looping calls -/

/-- The time within the show is the remainder of the clock: thirty-two bits hold it. -/
theorem toNat_loopTime (player : Player) (elapsed : Nat) :
    (player.loopTime elapsed).toNat = elapsed % (player.duration.toNat + 1) := by
  have hremainder : elapsed % (player.duration.toNat + 1) < player.duration.toNat + 1 :=
    Nat.mod_lt elapsed (Nat.succ_pos _)
  have hduration := player.duration.toNat_lt
  unfold loopTime
  exact UInt32.toNat_ofNat_of_lt' (show _ < 2 ^ 32 by omega)

/-- **Looped playback has no memory.** Whatever the stream is and whatever was called on either
    clock, a looping call leaves the player in the state of a new one that went straight to the
    remainder of the clock: with its cursor, with its events to come and with all of its lights. -/
theorem advanceLooped_runLooped (s : Show) (calls : List LoopCall) (elapsed : Nat) :
    ∃ time : UInt32, time.toNat = elapsed % (s.totalDuration.toNat + 1)
      ∧ ((start s).runLooped calls).advanceLooped elapsed = (start s).advance time :=
  ⟨(start s).loopTime elapsed, toNat_loopTime (start s) elapsed,
    (settled_runLooped s calls).advanceLooped_eq elapsed⟩

/-- A player that has gone past the end of a show of 100 milliseconds starts again with the clock. -/
example :
    let s : Show := ⟨⟨[⟨0, "one", 1, .empty⟩], [], 100, "1.0.0"⟩,
      [⟨10, 0, 0, ⟨1, 1, 1⟩⟩, ⟨60, 0, 0, ⟨2, 2, 2⟩⟩], ⟨0, 0, 0, 0⟩⟩
    ((((start s).advance 500).advanceLooped 131).lights.color? 0 0) = some ⟨1, 1, 1⟩ := by decide

end Player

end LightShow
