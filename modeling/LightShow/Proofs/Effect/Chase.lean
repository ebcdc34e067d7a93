import LightShow.Effect.Light
import LightShow.Layout.Standard

namespace LightShow

/-!
# The picture of a chase

The LEDs of a range are counted from 0 to the width. A chase goes around the first `width` of them;
the last LED of the range is not one of these.

* `trailOffset` — the offset behind the head, around the range;
* `Cue.ShowsChase` — one head, the trail behind it, and background everywhere else;
* `chaseRole_eq`, `chaseRole_width` — what the LEDs of the circle and the last LED are;
* `chaseRole_mirror` — backward, the range is seen in a mirror;
* `light_chase` — every chase gives this picture at every time.
-/

/-! ### Offsets -/

/-- The offset behind the head on the circle of the first `width` LEDs. -/
def trailOffset (width : Nat) (direction : Direction) (head : Nat) : Nat :=
  match direction with
  | .forward => (head + width - 1) % width
  | .backward => (head + 1) % width

/-- Forward, the trail leaves the range at its end as the head enters it at its start. -/
theorem trailOffset_forward {width head : Nat} (h : head < width) :
    trailOffset width .forward head = if head = 0 then width - 1 else head - 1 := by
  show (head + width - 1) % width = _
  split
  · next hzero => rw [hzero, Nat.zero_add, Nat.mod_eq_of_lt (by omega)]
  · next hne =>
    have hlap : head + width - 1 = head - 1 + width := by omega
    rw [hlap, Nat.add_mod_right, Nat.mod_eq_of_lt (by omega)]

/-- Backward, the trail leaves the range at its start as the head enters it at its end. -/
theorem trailOffset_backward {width head : Nat} (h : head < width) :
    trailOffset width .backward head = if head = width - 1 then 0 else head + 1 := by
  show (head + 1) % width = _
  split
  · next hlast =>
    have hlap : head + 1 = width := by omega
    rw [hlap, Nat.mod_self]
  · exact Nat.mod_eq_of_lt (by omega)

/-- On a circle of two LEDs or more, the trail is not the head. -/
theorem trailOffset_mem {width head : Nat} (direction : Direction) (h : head < width) :
    trailOffset width direction head < width
      ∧ (2 ≤ width → trailOffset width direction head ≠ head) := by
  cases direction with
  | forward =>
    rw [trailOffset_forward h]
    split <;> omega
  | backward =>
    rw [trailOffset_backward h]
    split <;> omega

namespace Cue

variable {c : Cue} {width offset : Nat}

/-- The LED at an offset from the first LED of the range. -/
def ledAt (c : Cue) (offset : Nat) : UInt16 := c.rangeStart + UInt16.ofNat offset

theorem toNat_ledAt (hwidth : c.width = width) (h : offset ≤ width) :
    (c.ledAt offset).toNat = c.rangeStart.toNat + offset := by
  have hend := c.rangeEnd.toNat_lt
  unfold Cue.width at hwidth
  unfold ledAt
  rw [UInt16.toNat_add, UInt16.toNat_ofNat', Nat.add_mod_mod, Nat.mod_eq_of_lt (by omega)]

theorem offset_ledAt (hwidth : c.width = width) (h : offset ≤ width) :
    c.offset (c.ledAt offset) = offset := by
  unfold Cue.offset
  rw [toNat_ledAt hwidth h]
  omega

/-- The last LED of the range is the one at the width. -/
theorem ledAt_width (hwidth : c.width = width) : c.ledAt width = c.rangeEnd := by
  rw [← UInt16.toNat_inj, toNat_ledAt hwidth (Nat.le_refl _)]
  unfold Cue.width at hwidth
  omega

end Cue

/-! ### What an LED is to a chase -/

/-- The head is on the circle, wherever the chase has travelled. -/
theorem chaseHead_mem {width : Int} (h : 0 < width) (direction : Direction) (travelled : Int) :
    0 ≤ chaseHead width direction travelled ∧ chaseHead width direction travelled < width := by
  have hlow : 0 ≤ travelled % width := Int.emod_nonneg _ (Int.ne_of_gt h)
  have hhigh : travelled % width < width := Int.emod_lt_of_pos _ h
  cases direction with
  | forward => exact ⟨hlow, hhigh⟩
  | backward =>
    show 0 ≤ width - 1 - travelled % width ∧ width - 1 - travelled % width < width
    omega

/-- On the circle, the LED behind the head is the trail, and all others are background. -/
theorem chaseRole_eq {width head offset : Nat} (direction : Direction) (hhead : head < width)
    (hoffset : offset < width) :
    chaseRole width direction head offset
      = if offset = head then .head
        else if offset = trailOffset width direction head then .trail
        else .background := by
  have hself : (offset : Int) = head ↔ offset = head := Int.ofNat_inj
  -- the trail is the neighbor of the head, and at the seam the LED at the other end of the circle
  cases direction with
  | forward =>
    have htrail : ((offset : Int) == head - 1 || ((head : Int) == 0 && (offset : Int) == width - 1))
        = decide (offset = trailOffset width .forward head) := by
      rw [trailOffset_forward hhead, Bool.eq_iff_iff]
      simp only [Bool.or_eq_true, Bool.and_eq_true, beq_iff_eq, decide_eq_true_eq]
      split <;> omega
    simp only [chaseRole, htrail, hself, decide_eq_true_eq]
  | backward =>
    have htrail :
        ((offset : Int) == head + 1 || ((head : Int) == width - 1 && (offset : Int) == 0))
          = decide (offset = trailOffset width .backward head) := by
      rw [trailOffset_backward hhead, Bool.eq_iff_iff]
      simp only [Bool.or_eq_true, Bool.and_eq_true, beq_iff_eq, decide_eq_true_eq]
      split <;> omega
    simp only [chaseRole, htrail, hself, decide_eq_true_eq]

/-- The last LED is outside of the circle. It is a second trail when a chase that runs backward has
    its head in front of it. -/
theorem chaseRole_width {width head : Nat} (direction : Direction) (hhead : head < width) :
    chaseRole width direction head width
      = if direction = .backward ∧ head = width - 1 then .trail else .background := by
  have hne : ¬ (width : Int) = head := by omega
  cases direction with
  | forward => simp [chaseRole, hne]; omega
  | backward =>
    have htrail : ((width : Int) == head + 1 || ((head : Int) == width - 1 && (width : Int) == 0))
        = decide (head = width - 1) := by
      rw [Bool.eq_iff_iff]
      simp only [Bool.or_eq_true, Bool.and_eq_true, beq_iff_eq, decide_eq_true_eq]
      omega
    simp only [chaseRole, htrail, if_neg hne, decide_eq_true_eq, true_and]

/-- Backward, the range is seen in a mirror. -/
theorem chaseRole_mirror (width travelled offset : Int) :
    chaseRole width .backward (chaseHead width .backward travelled) offset
      = chaseRole width .forward (chaseHead width .forward travelled) (width - 1 - offset) := by
  simp only [chaseHead]
  generalize travelled % width = head
  have hself : offset = width - 1 - head ↔ width - 1 - offset = head := by omega
  have htrail : (offset == width - 1 - head + 1
        || (width - 1 - head == width - 1 && offset == 0))
      = (width - 1 - offset == head - 1 || (head == 0 && width - 1 - offset == width - 1)) := by
    rw [Bool.eq_iff_iff]
    simp only [Bool.or_eq_true, Bool.and_eq_true, beq_iff_eq]
    omega
  simp only [chaseRole, hself, htrail]

/-! ### The light of a chase -/

namespace Cue

/-- How many LEDs a chase has gone on, which is negative for a negative speed. -/
def travelled (c : Cue) (elapsed : Float) : Int :=
  wholeSteps (elapsed / 1000.0 * (c.rate 20).toFloat)

/-- The color that a chase gives to what an LED is to it. -/
def chaseColor (c : Cue) : ChaseRole → Color
  | .head => c.color
  | .trail => c.color.dim 0.5
  | .background => c.otherColor

/-- The cue with an effect that travels in another direction. -/
def heading (c : Cue) (direction : Direction) : Cue := { c with direction := some direction }

/-- The picture of a chase over the offsets of a range: one head, the trail behind it, and
    background everywhere else. -/
structure ShowsChase (c : Cue) (width : Nat) (picture : Nat → Color) (head : Nat) : Prop where
  /-- The head is on the circle. -/
  inside : head < width
  /-- The head has the main color. -/
  atHead : picture head = c.color
  /-- The LED behind it has half of that color, unless the head is alone on the circle. -/
  behind : 2 ≤ width → picture (trailOffset width c.travel head) = c.color.dim 0.5
  /-- All others on the circle have the background color. -/
  elsewhere : ∀ offset < width, offset ≠ head → offset ≠ trailOffset width c.travel head →
    picture offset = c.otherColor
  /-- The last LED of the range has the background color too, but half of the main color when the
      head is next to it on its way back. -/
  atEnd : picture width = if c.travel = .backward ∧ head = width - 1 then c.color.dim 0.5
    else c.otherColor

variable {c : Cue} (hkind : c.kind = .chase) (hbrightness : c.brightness = none) {width : Nat}
  (hwidth : c.width = width) (hpos : 0 < width)
include hkind hbrightness hwidth hpos

/-- Without a brightness, a chase gives an LED the color of what the LED is to it. -/
theorem light_eq_chaseColor (layout : Layout) (led : UInt16) (time : Float) :
    c.light layout led time
      = c.chaseColor (chaseRole width c.travel
          (chaseHead width c.travel (c.travelled (time - c.startTime.toFloat))) (c.offset led)) := by
  have hwide : ¬ c.width ≤ 0 := by omega
  unfold light dimming? effectColor effect
  simp only [hbrightness, hkind, if_neg hwide]
  rw [hwidth]
  unfold chaseColor travelled
  cases chaseRole _ _ _ _ <;> rfl

/-- The light of a chase on the circle and at the end of the range. -/
theorem light_ledAt (layout : Layout) (time : Float) :
    ∃ head < width,
      (head : Int) = chaseHead width c.travel (c.travelled (time - c.startTime.toFloat))
      ∧ (∀ offset < width, c.light layout (c.ledAt offset) time
          = c.chaseColor (if offset = head then .head
              else if offset = trailOffset width c.travel head then .trail else .background))
      ∧ c.light layout (c.ledAt width) time
          = c.chaseColor (if c.travel = .backward ∧ head = width - 1 then .trail
              else .background) := by
  obtain ⟨hlow, hhigh⟩ := chaseHead_mem (Int.natCast_pos.mpr hpos) c.travel
    (c.travelled (time - c.startTime.toFloat))
  obtain ⟨head, hhead⟩ := Int.eq_ofNat_of_zero_le hlow
  have hin : head < width := by omega
  refine ⟨head, hin, hhead.symm, fun offset hoffset => ?_, ?_⟩
  · rw [light_eq_chaseColor hkind hbrightness hwidth hpos, hhead,
      offset_ledAt hwidth (Nat.le_of_lt hoffset), chaseRole_eq c.travel hin hoffset]
  · rw [light_eq_chaseColor hkind hbrightness hwidth hpos, hhead,
      offset_ledAt hwidth (Nat.le_refl _), chaseRole_width c.travel hin]

/-- A chase gives the picture of a chase, with the head where the chase has travelled. -/
theorem showsChase (layout : Layout) (time : Float) :
    ∃ head : Nat,
      (head : Int) = chaseHead width c.travel (c.travelled (time - c.startTime.toFloat))
      ∧ c.ShowsChase width (fun offset => c.light layout (c.ledAt offset) time) head := by
  obtain ⟨head, hin, hhead, hcircle, hend⟩ :=
    light_ledAt hkind hbrightness hwidth hpos layout time
  obtain ⟨htrail, hother⟩ := trailOffset_mem c.travel hin
  refine ⟨head, hhead, hin, ?_, fun htwo => ?_, fun offset hoffset hnot hnotTrail => ?_, ?_⟩
  · rw [hcircle head hin, if_pos rfl]
    rfl
  · rw [hcircle _ htrail, if_neg (hother htwo), if_pos rfl]
    rfl
  · rw [hcircle offset hoffset, if_neg hnot, if_neg hnotTrail]
    rfl
  · rw [hend]
    split <;> rfl

/-- Backward, the LED at an offset has the light that the LED at the mirrored offset has forward. -/
theorem light_mirror (layout : Layout) (time : Float) {offset : Nat} (h : offset < width) :
    (c.heading .backward).light layout (c.ledAt offset) time
      = (c.heading .forward).light layout (c.ledAt (width - 1 - offset)) time := by
  have hback := light_eq_chaseColor (c := c.heading .backward) hkind hbrightness hwidth hpos layout
    (c.ledAt offset) time
  have hforth := light_eq_chaseColor (c := c.heading .forward) hkind hbrightness hwidth hpos layout
    (c.ledAt (width - 1 - offset)) time
  have hmirror : ((width - 1 - offset : Nat) : Int) = width - 1 - offset := by omega
  have hoffset : (c.heading .backward).offset (c.ledAt offset) = offset :=
    offset_ledAt hwidth (Nat.le_of_lt h)
  have hoffset' : (c.heading .forward).offset (c.ledAt (width - 1 - offset))
      = (width : Int) - 1 - offset :=
    hmirror ▸ offset_ledAt hwidth (by omega)
  rw [hback, hforth, hoffset, hoffset']
  exact congrArg c.chaseColor (chaseRole_mirror width _ offset)

end Cue

/-- **The picture of a chase.** At every time and speed, a chase without a brightness shows one head
    with a trail behind it, and background everywhere else. Backward, it shows on the circle what it
    shows forward, mirrored. -/
theorem light_chase {c : Cue} (hkind : c.kind = .chase) (hbrightness : c.brightness = none)
    {width : Nat} (hwidth : c.width = width) (hpos : 1 ≤ width) (layout : Layout) (time : Float) :
    (∃ head : Nat,
      (head : Int) = chaseHead width c.travel (c.travelled (time - c.startTime.toFloat))
      ∧ c.ShowsChase width (fun offset => c.light layout (c.ledAt offset) time) head)
    ∧ ∀ offset < width, (c.heading .backward).light layout (c.ledAt offset) time
        = (c.heading .forward).light layout (c.ledAt (width - 1 - offset)) time :=
  ⟨Cue.showsChase hkind hbrightness hwidth hpos layout time,
    fun _ h => Cue.light_mirror hkind hbrightness hwidth hpos layout time h⟩

/-- A chase backward over five LEDs at the speed of minus infinity. -/
def Cue.stampede : Cue :=
  { Cue.plain "stampede" 1 .chase 0 1000 ⟨0xff, 0, 0⟩ 4 8 with
    secondaryColor := some ⟨0, 0, 0xff⟩, direction := some .backward,
    speed := some (.ofMagnitude true Double.infinity) }

/-- The head stands still in front of the last LED, where the steps are clamped. -/
theorem stampede_light_chase :
    Cue.stampede.kind = .chase ∧ Cue.stampede.brightness = none ∧ Cue.stampede.width = 4
    ∧ Cue.stampede.light .standard (Cue.stampede.ledAt 3) 500.0 = ⟨0xff, 0, 0⟩
    ∧ Cue.stampede.light .standard (Cue.stampede.ledAt 0) 500.0 = ⟨128, 0, 0⟩
    ∧ Cue.stampede.light .standard (Cue.stampede.ledAt 1) 500.0 = ⟨0, 0, 0xff⟩
    ∧ Cue.stampede.light .standard Cue.stampede.rangeEnd 500.0 = ⟨128, 0, 0⟩ := by
  have hwidth : Cue.stampede.width = (4 : Nat) := by decide
  have hdim : Cue.stampede.color.dim 0.5 = ⟨128, 0, 0⟩ := by decide +kernel
  obtain ⟨⟨head, hhead, hshows⟩, -⟩ :=
    light_chase (c := Cue.stampede) rfl rfl hwidth (by decide) .standard 500.0
  have hthree : chaseHead (4 : Nat) Cue.stampede.travel
      (Cue.stampede.travelled (500.0 - Cue.stampede.startTime.toFloat)) = (3 : Nat) := by
    decide +kernel
  obtain rfl : head = 3 := Int.ofNat_inj.mp (hhead.trans hthree)
  exact ⟨rfl, rfl, hwidth, hshows.atHead, (hshows.behind (by decide)).trans hdim,
    hshows.elsewhere 1 (by decide) (by decide) (by decide),
    Cue.ledAt_width hwidth ▸ hshows.atEnd.trans hdim⟩

end LightShow
