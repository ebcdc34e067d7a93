import LightShow.Proofs.Compile.Frames
import Mathlib.Data.List.Perm.Basic

namespace LightShow

/-!
# What the light of an LED depends on

The light of several cues is added, channel by channel, and cut only once. The order of the cues
therefore does not count, and a cue does not count that an LED gets no light from.

* `Cue.targets`, `Cue.reaches` — a cue is for an LED, and gives it light at a time;
* `ledState_activeCues` — an LED shows the sum of the light of the cues that reach it;
* `ledState_perm`, `states_perm` — the order of the cues does not count;
* `colorAt_perm`, `colorAt_insertCue` — the same for colors; a new cue counts only for the LEDs and
  the times that it reaches.
-/

/-! ### Cues that reach an LED -/

/-- Whether an LED of a suit is one that a cue is for. -/
def Cue.targets (c : Cue) (suit : UInt8) (led : UInt16) : Bool := c.suitId == suit && c.coversLed led

/-- Whether a cue gives an LED light at a time. -/
def Cue.reaches (c : Cue) (suit : UInt8) (led : UInt16) (time : Float) : Bool :=
  c.targets suit led && c.isActiveAt time

/-- A cue for another suit, or for other LEDs, does not reach an LED. -/
theorem Cue.reaches_of_not_targets {c : Cue} {suit : UInt8} {led : UInt16}
    (h : c.targets suit led = false) (time : Float) : c.reaches suit led time = false := by
  unfold reaches
  rw [h, Bool.false_and]

/-- A cue that is not active reaches no LED. -/
theorem Cue.reaches_of_not_active {c : Cue} {time : Float} (h : c.isActiveAt time = false)
    (suit : UInt8) (led : UInt16) : c.reaches suit led time = false := by
  unfold reaches
  rw [h, Bool.and_false]

/-- Of the cues for a suit, those that are active and cover an LED are those that reach it. -/
theorem filter_activeCues (cues : List Cue) (suit : UInt8) (led : UInt16) (time : Float) :
    (activeCues cues suit time).filter (·.coversLed led)
      = cues.filter (·.reaches suit led time) := by
  unfold activeCues Cue.reaches Cue.targets
  rw [List.filter_filter]
  congr 1
  funext c
  rw [Bool.and_left_comm, Bool.and_assoc]

/-- The cues for one suit are all that the suit's light comes from. -/
theorem activeCues_cuesFor (p : Project) (suit : UInt8) (time : Float) :
    activeCues (p.cuesFor suit) suit time = activeCues p.cues suit time := by
  unfold activeCues Project.cuesFor
  rw [List.filter_filter]
  congr 1
  funext c
  rw [Bool.and_right_comm, Bool.and_self]

/-! ### Sums of light -/

/-- An LED shows the sum of the light of the cues that reach it. -/
theorem ledState_activeCues (layout : Layout) (cues : List Cue) (suit : UInt8) (led : UInt16)
    (time : Float) :
    ledState layout led time (activeCues cues suit time)
      = ((cues.filter (·.reaches suit led time)).foldl
          (fun sum c => sum.add (c.light layout led time)) LightSum.zero).state := by
  unfold ledState
  rw [filter_activeCues]

/-- Light may be added in any order. -/
theorem LightSum.add_right_comm (sum : LightSum) (c d : Color) :
    (sum.add c).add d = (sum.add d).add c := by
  have hswap : ∀ a b c : UInt32, a + b + c = a + c + b := by
    intro a b c
    rw [UInt32.add_assoc, UInt32.add_comm b, ← UInt32.add_assoc]
  unfold add
  simp only [hswap _ c.red.toUInt32, hswap _ c.green.toUInt32, hswap _ c.blue.toUInt32]

/-- The order of the cues does not count for an LED. -/
theorem ledState_perm {cues cues' : List Cue} (h : cues.Perm cues') (layout : Layout)
    (suit : UInt8) (led : UInt16) (time : Float) :
    ledState layout led time (activeCues cues suit time)
      = ledState layout led time (activeCues cues' suit time) := by
  rw [ledState_activeCues, ledState_activeCues]
  refine congrArg LightSum.state ((h.filter _).foldl_eq' ?_ _)
  intro c _ d _ sum
  exact sum.add_right_comm (c.light layout led time) (d.light layout led time)

/-- The order of the cues does not count for any LED of a suit. -/
theorem states_perm {cues cues' : List Cue} (h : cues.Perm cues') (suit : Suit) (layout : Layout)
    (time : Float) : suit.states layout cues time = suit.states layout cues' time := by
  rw [states_eq_map, states_eq_map]
  apply List.map_congr_left
  intro led _
  exact ledState_perm h layout suit.id led.toUInt16 time

/-! ### Colors in projects that differ by their cues -/

variable {p : Project} {layout : Layout}

/-- The color of an LED does not depend on the order of the cues. -/
theorem colorAt_perm {q : Project} (h : q.cues.Perm p.cues) (layout : Layout) (suit : UInt8)
    (led : UInt16) (time : UInt32) :
    q.colorAt layout suit led time = p.colorAt layout suit led time :=
  congrArg LedState.output (ledState_perm h layout suit led time.toFloat)

/-- A project with one more cue, in front of the cue at an index. -/
def Project.insertCue (p : Project) (index : Nat) (c : Cue) : Project :=
  { p with cues := p.cues.insertIdx index c }

/-- A new cue does not change the color of an LED at a time at which it does not reach it. -/
theorem colorAt_insertCue {index : Nat} (hindex : index ≤ p.cues.length) {c : Cue} {suit : UInt8}
    {led : UInt16} {time : UInt32} (h : c.reaches suit led time.toFloat = false) :
    (p.insertCue index c).colorAt layout suit led time = p.colorAt layout suit led time := by
  -- the place of the new cue does not count, so that it may be the first one
  have hperm : (p.insertCue index c).cues.Perm (c :: p.cues) := List.perm_insertIdx c p.cues hindex
  have hnone : (c :: p.cues).filter (·.reaches suit led time.toFloat)
      = p.cues.filter (·.reaches suit led time.toFloat) :=
    List.filter_cons_of_neg (by rw [h]; decide)
  unfold Project.colorAt
  rw [ledState_perm hperm, ledState_activeCues, hnone, ← ledState_activeCues]

end LightShow
