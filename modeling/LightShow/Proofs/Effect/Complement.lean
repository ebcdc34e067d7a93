import LightShow.Layout.Standard
import LightShow.Proofs.Double.Rank
import LightShow.Proofs.Effect.Reveal

namespace LightShow

/-!
# A fill and its wipe together

* `Cue.IsSharp` — no NaN is compared at an LED, and the fill and the wipe see the LED at one place;
* `isOn_wipe` — then the wipe has those LEDs on that the fill has not;
* `isOn_of_isOn_wipe` — a fill and its wipe never have an LED on together;
* `light_complement` — an LED under a fill and its wipe shows what it shows under a solid cue.
-/

/-! ### Heights -/

namespace Layout

/-- Whether an LED sits in a pocket, which a wipe that runs backward sees at the feet. -/
def inPocket (layout : Layout) (led : UInt16) : Bool :=
  (layout.locate led).any fun p => decide (p.segment.y = .pocket)

variable {layout : Layout} {led : UInt16} {direction : Direction}

/-- A fill and its wipe see an LED at one height, unless they run backward over a pocket. -/
theorem y_bodyWipe (h : direction = .backward → layout.inPocket led = false) (pose : Pose) :
    layout.y led pose direction .bodyWipe = layout.y led pose direction .bodyFill := by
  unfold inPocket at h
  unfold y
  cases hlocate : layout.locate led with
  | none => rfl
  | some p =>
    rw [hlocate] at h
    cases hy : p.segment.y with
    | pocket =>
      have hforward : direction ≠ .backward := fun hback => by simp [hy] at h; exact h hback
      simp [hforward]
    | _ => simp only [hy]

/-- In a pocket, a fill sees an LED at the waist, and a wipe that runs backward at the feet. -/
theorem y_of_inPocket (h : layout.inPocket led = true) (pose : Pose) :
    layout.y led pose .backward .bodyFill = Landmark.waist.height pose
      ∧ layout.y led pose .backward .bodyWipe = Landmark.feet.height pose := by
  unfold inPocket at h
  unfold y
  cases hlocate : layout.locate led with
  | none => simp [hlocate] at h
  | some p =>
    have hy : p.segment.y = .pocket := by simpa [hlocate] using h
    simp [hy]

end Layout

/-! ### Which LEDs are on -/

namespace Cue

/-- The place at which a fill over the body sees an LED. A fill along the range sees its index. -/
def sweepPlace? (c : Cue) (layout : Layout) (led : UInt16) : Option Float :=
  match c.kind with
  | .bodyFill => some (layout.y led c.armPose c.travel .bodyFill)
  | .bodyFillHorizontal => some (layout.x led)
  | _ => none

/-- A fill is sharp at an LED if it compares no NaN there and its wipe sees the LED at the same
    place. A fill along the range always is. -/
structure IsSharp (f : Cue) (layout : Layout) (led : UInt16) (elapsed : Float) : Prop where
  /-- Neither the place of the LED nor the edge of the sweep is a NaN. -/
  number : ∀ place ∈ f.sweepPlace? layout led,
    place.isNaN = false ∧ (f.edge elapsed).isNaN = false
  /-- The sweep does not run backward over a pocket from the feet to the head. -/
  pocket : f.kind = .bodyFill → f.travel = .backward → layout.inPocket led = false

variable {f : Cue} {wipeKind : EffectKind} {layout : Layout} {led : UInt16} {elapsed : Float}

theorem isSharp_of_fill (h : f.kind = .fill) : f.IsSharp layout led elapsed :=
  ⟨by rw [sweepPlace?, h]; nofun, by rw [h]; nofun⟩

/-- The fills are those kinds to which a wipe belongs. -/
theorem wipe?_eq_some_cases (h : f.kind.wipe? = some wipeKind) :
    (f.kind = .fill ∧ wipeKind = .wipe) ∨ (f.kind = .bodyFill ∧ wipeKind = .bodyWipe)
    ∨ (f.kind = .bodyFillHorizontal ∧ wipeKind = .bodyWipeHorizontal) := by
  revert h
  cases f.kind <;> simp [EffectKind.wipe?, eq_comm]

/-- A wipe has those LEDs on that its fill has not. -/
theorem isOn_wipe (hwipe : f.kind.wipe? = some wipeKind) (h : f.IsSharp layout led elapsed) :
    (f.withKind wipeKind).isOn layout led elapsed = !f.isOn layout led elapsed := by
  obtain ⟨hnumber, hpocket⟩ := h
  rcases wipe?_eq_some_cases hwipe with ⟨hkind, rfl⟩ | ⟨hkind, rfl⟩ | ⟨hkind, rfl⟩
  · unfold isOn
    rw [hkind]
    exact keeps_eq f.travel f.width (passed (f.progress elapsed) f.width) (f.offset led)
  · obtain ⟨hplace, hedge⟩ := hnumber _ (by rw [sweepPlace?, hkind]; rfl)
    unfold isOn
    rw [hkind]
    show sweepKeeps f.travel (f.edge elapsed) (layout.y led f.armPose f.travel .bodyWipe) = _
    rw [Layout.y_bodyWipe (hpocket hkind)]
    exact sweepKeeps_eq f.travel hedge hplace
  · obtain ⟨hplace, hedge⟩ := hnumber _ (by rw [sweepPlace?, hkind]; rfl)
    unfold isOn
    rw [hkind]
    exact sweepKeeps_eq f.travel hedge hplace

/-- A fill and its wipe never have an LED on together, whatever numbers they compare. -/
theorem isOn_of_isOn_wipe (hwipe : f.kind.wipe? = some wipeKind)
    (h : (f.withKind wipeKind).isOn layout led elapsed = true) :
    f.isOn layout led elapsed = false := by
  rcases wipe?_eq_some_cases hwipe with ⟨hkind, rfl⟩ | ⟨hkind, rfl⟩ | ⟨hkind, rfl⟩
  · simpa [isOn_wipe hwipe (isSharp_of_fill hkind)] using h
  · have hkeeps : sweepKeeps f.travel (f.edge elapsed)
        (layout.y led f.armPose f.travel .bodyWipe) = true := h
    unfold isOn
    rw [hkind]
    by_cases hpocket : f.travel = .backward → layout.inPocket led = false
    · rw [Layout.y_bodyWipe hpocket] at hkeeps
      exact not_sweepFills_of_sweepKeeps hkeeps
    · -- the wipe has passed the feet, so that the fill has not come up to the waist
      obtain ⟨hback, hin⟩ := Classical.not_imp.mp hpocket
      obtain ⟨hwaist, hfeet⟩ := Layout.y_of_inPocket (Bool.not_eq_false _ ▸ hin) f.armPose
      dsimp only
      rw [hback, hfeet] at hkeeps
      rw [hback, hwaist]
      have hbelow : 1.0 < f.edge elapsed := of_decide_eq_true hkeeps
      have hnot : ¬ f.edge elapsed ≤ 0.50 := fun hle =>
        absurd (Double.lt_of_lt_of_le hbelow hle) (by decide +kernel)
      exact decide_eq_false hnot
  · unfold isOn
    rw [hkind]
    exact not_sweepFills_of_sweepKeeps h

end Cue

/-! ### The light on an LED -/

theorem LightSum.add_black (sum : LightSum) : sum.add .black = sum := by
  simp [add, Color.black]

/-- A color is given by one of two colors, of which the other one is black. -/
def Color.SplitsInto (whole a b : Color) : Prop := (a = whole ∧ b = black) ∨ (a = black ∧ b = whole)

/-- Two cues in place of one make no difference to an LED if its light splits into theirs. All three
    have one range and one window. -/
theorem ledState_of_splitsInto (c : Cue) (kind wipeKind : EffectKind) {layout : Layout}
    {led : UInt16} {time : Float} (others : List Cue) (suit : UInt8)
    (h : ((c.withKind .solid).light layout led time).SplitsInto
      ((c.withKind kind).light layout led time) ((c.withKind wipeKind).light layout led time)) :
    ledState layout led time
        (activeCues (c.withKind kind :: c.withKind wipeKind :: others) suit time)
      = ledState layout led time (activeCues (c.withKind .solid :: others) suit time) := by
  have hreaches : ∀ k, (c.withKind k).reaches suit led time = c.reaches suit led time :=
    fun _ => rfl
  rw [ledState_activeCues, ledState_activeCues]
  simp only [List.filter_cons, hreaches]
  cases c.reaches suit led time with
  | false => rfl
  | true =>
    -- black adds nothing to the sum of the lights
    simp only [if_true, List.foldl_cons]
    rcases h with ⟨hfill, hblack⟩ | ⟨hblack, hlight⟩
    · rw [hfill, hblack, LightSum.add_black]
    · rw [hblack, hlight, LightSum.add_black]

/-- **Complements.** A fill and its wipe never light an LED together. Where the fill is sharp, one
    of them gives the light of a solid cue and the other none, so that an LED under both shows what
    it shows under the solid cue. -/
theorem light_complement {f : Cue} {wipeKind : EffectKind} (hwipe : f.kind.wipe? = some wipeKind)
    (layout : Layout) (led : UInt16) (time : Float) :
    (f.light layout led time = .black ∨ (f.withKind wipeKind).light layout led time = .black)
    ∧ (f.IsSharp layout led (time - f.startTime.toFloat) →
      ((f.withKind .solid).light layout led time).SplitsInto
        (f.light layout led time) ((f.withKind wipeKind).light layout led time)
      ∧ ∀ (cues others : List Cue) (suit : UInt8), cues.Perm (f :: f.withKind wipeKind :: others) →
        ledState layout led time (activeCues cues suit time)
          = ledState layout led time (activeCues (f.withKind .solid :: others) suit time)) := by
  -- both are reveals: each has the light of the solid cue where it is on, and none elsewhere
  have hkinds : f.kind.isReveal = true ∧ (f.withKind wipeKind).kind.isReveal = true := by
    rcases Cue.wipe?_eq_some_cases hwipe with ⟨hkind, rfl⟩ | ⟨hkind, rfl⟩ | ⟨hkind, rfl⟩ <;>
      exact ⟨by rw [hkind]; rfl, rfl⟩
  have hfill := Cue.light_eq_of_isReveal hkinds.1 layout led time
  have hrest : (f.withKind wipeKind).light layout led time
      = if (f.withKind wipeKind).isOn layout led (time - f.startTime.toFloat) then
          (f.withKind .solid).light layout led time
        else .black :=
    Cue.light_eq_of_isReveal hkinds.2 layout led time
  constructor
  · cases hon : (f.withKind wipeKind).isOn layout led (time - f.startTime.toFloat) with
    | true =>
      left
      rw [hfill, Cue.isOn_of_isOn_wipe hwipe hon, if_neg Bool.false_ne_true]
    | false =>
      right
      rw [hrest, hon, if_neg Bool.false_ne_true]
  · intro hsharp
    have hsplit : ((f.withKind .solid).light layout led time).SplitsInto
        (f.light layout led time) ((f.withKind wipeKind).light layout led time) := by
      rw [hfill, hrest, Cue.isOn_wipe hwipe hsharp]
      cases f.isOn layout led (time - f.startTime.toFloat) with
      | true => exact .inl ⟨rfl, rfl⟩
      | false => exact .inr ⟨rfl, rfl⟩
    refine ⟨hsplit, fun cues others suit hperm => ?_⟩
    rw [ledState_perm hperm]
    exact ledState_of_splitsInto f f.kind wipeKind others suit hsplit

/-- A fill from the feet to the head, at 40 percent, with the hands up. -/
def Cue.rising : Cue :=
  { Cue.plain "rise" 1 .bodyFill 250 1000 ⟨0xff, 0x80, 0⟩ 0 540 with
    direction := some .backward, pose := some .handsUp, brightness := some 40 }

/-- At a third of its time, the rise has not come up to the fingers, which its wipe has on. -/
theorem rising_light_complement :
    Cue.rising.kind.wipe? = some .bodyWipe
    ∧ Cue.rising.IsSharp .standard 100 (583.0 - Cue.rising.startTime.toFloat)
    ∧ (Cue.rising.withKind .bodyWipe).light .standard 100 583.0 = ⟨102, 51, 0⟩
    ∧ Cue.rising.light .standard 100 583.0 = .black
    ∧ ledState .standard 100 583.0
        (activeCues [Cue.rising.withKind .bodyWipe, Cue.rising] 1 583.0)
        = ledState .standard 100 583.0 (activeCues [Cue.rising.withKind .solid] 1 583.0) := by
  have hsharp : Cue.rising.IsSharp .standard 100 (583.0 - Cue.rising.startTime.toFloat) :=
    ⟨by decide +kernel, by decide +kernel⟩
  have hlit : (Cue.rising.withKind .bodyWipe).light .standard 100 583.0 = ⟨102, 51, 0⟩ := by
    decide +kernel
  obtain ⟨hnever, hsplit⟩ := light_complement (f := Cue.rising) rfl .standard 100 583.0
  refine ⟨rfl, hsharp, hlit, hnever.resolve_right (by rw [hlit]; decide), ?_⟩
  exact (hsplit hsharp).2 _ [] 1 (List.Perm.swap _ _ [])

end LightShow
