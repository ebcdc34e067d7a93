import LightShow.Layout.Standard
import LightShow.Proofs.Effect.Progress
import LightShow.Proofs.Effect.Reveal

namespace LightShow

/-!
# Reveals never go back

As time goes on, a fill only lights LEDs and a wipe only turns them off. The share of a cue that is
over grows with the time, and an LED is lit by comparing something that grows with it: the LEDs that
are passed, the edge of a sweep, or the share itself.

* `EffectKind.isFill`, `EffectKind.isWipe` — the seven kinds;
* `sweepFills_mono`, `sweepKeeps_anti`, `fills_mono` — what one more step of progress does;
* `sweep_before`, `sweep_after` — a sweep starts on one side of the body and ends on the other one;
* `revealPoint_le_one` — a scattered fill comes to every LED;
* `Cue.isLit`, `Cue.NeverGoesBack` — whether an LED is lit at a time, and what a reveal does to it;
* `reveal_neverGoesBack` — the end result about all seven kinds.
-/

open Double (le_trans lt_of_le_of_lt lt_of_lt_of_le le_self_of_le zero_le_one)

namespace EffectKind

/-- Whether a kind only lights LEDs as time goes on. -/
def isFill : EffectKind → Bool
  | .fill | .bodyFill | .bodyFillHorizontal | .randomFill => true
  | _ => false

/-- Whether a kind only turns LEDs off as time goes on. -/
def isWipe : EffectKind → Bool
  | .wipe | .bodyWipe | .bodyWipeHorizontal => true
  | _ => false

end EffectKind

/-! ### The numbers of the effects -/

/-- The length of a sweep, its multiples by zero and one, and the places where a sweep starts. -/
theorem isFinite_sweep : (0.0 : Float) ≤ 1.1 ∧ (Double.ofFloat 1.1).isFinite = true
    ∧ (Double.ofFloat (0.0 * 1.1)).isFinite = true ∧ (Double.ofFloat (1.0 * 1.1)).isFinite = true
    ∧ (Double.ofFloat (-0.05)).isFinite = true ∧ (Double.ofFloat 1.05).isFinite = true := by
  decide +kernel

/-- A sweep starts on one side of the body and ends on the other one. -/
theorem sweepEdge_ends :
    (sweepEdge .forward 0.0 < 0.0 ∧ 1.0 ≤ sweepEdge .forward 1.0)
    ∧ (1.0 < sweepEdge .backward 0.0 ∧ sweepEdge .backward 1.0 ≤ 0.0) := by
  decide +kernel

/-- Seeds of a scattered fill are divided by a positive number. -/
theorem seedCount_eq : Float.ofNat 233280 = 233280.0
    ∧ (Double.ofFloat 233280.0).isFinite = true ∧ (0.0 : Float) < 233280.0
    ∧ (233280.0 : Float) / 233280.0 ≤ 1.0 := by
  decide +kernel

/-! ### From one share to a larger one -/

section Range

variable {p q : Float} (hp : 0.0 ≤ p) (hpq : p ≤ q) (hq : q ≤ 1.0)
include hp hpq hq

/-- A sweep gets further and further from where it started, and not infinitely far. -/
theorem sweepSpan_mono : p * 1.1 ≤ q * 1.1
    ∧ (Double.ofFloat (p * 1.1)).isFinite = true ∧ (Double.ofFloat (q * 1.1)).isFinite = true := by
  have hpfinite := isFinite_of_mem hp (le_trans hpq hq)
  have hqfinite := isFinite_of_mem (le_trans hp hpq) hq
  have hzero := Double.isFinite_ofFloat_zero
  have hone := Double.isFinite_ofFloat_one
  obtain ⟨hnonneg, hspan, hfirst, hlast, -, -⟩ := isFinite_sweep
  -- both products are between those with zero and one
  have hlow : 0.0 * 1.1 ≤ p * 1.1 := Double.mul_le_mul_right hspan hzero hpfinite hnonneg hp
  have hmid : p * 1.1 ≤ q * 1.1 := Double.mul_le_mul_right hspan hpfinite hqfinite hnonneg hpq
  have hhigh : q * 1.1 ≤ 1.0 * 1.1 := Double.mul_le_mul_right hspan hqfinite hone hnonneg hq
  exact ⟨hmid, Double.isFinite_of_le_of_le hfirst hlast hlow (le_trans hmid hhigh),
    Double.isFinite_of_le_of_le hfirst hlast (le_trans hlow hmid) hhigh⟩

theorem sweepEdge_forward_mono : sweepEdge .forward p ≤ sweepEdge .forward q := by
  obtain ⟨hspan, hpfinite, hqfinite⟩ := sweepSpan_mono hp hpq hq
  exact Double.add_le_add_left isFinite_sweep.2.2.2.2.1 hpfinite hqfinite hspan

theorem sweepEdge_backward_anti : sweepEdge .backward q ≤ sweepEdge .backward p := by
  obtain ⟨hspan, hpfinite, hqfinite⟩ := sweepSpan_mono hp hpq hq
  exact Double.sub_le_sub_left isFinite_sweep.2.2.2.2.2 hpfinite hqfinite hspan

/-- A sweep that has come to a place stays behind it. -/
theorem sweepFills_mono {direction : Direction} {place : Float}
    (h : sweepFills direction (sweepEdge direction p) place = true) :
    sweepFills direction (sweepEdge direction q) place = true := by
  cases direction with
  | forward =>
    have hplace : place ≤ sweepEdge .forward p := of_decide_eq_true h
    exact decide_eq_true (le_trans hplace (sweepEdge_forward_mono hp hpq hq))
  | backward =>
    have hplace : sweepEdge .backward p ≤ place := of_decide_eq_true h
    exact decide_eq_true (le_trans (sweepEdge_backward_anti hp hpq hq) hplace)

/-- A place in front of a sweep has been in front of it before. -/
theorem sweepKeeps_anti {direction : Direction} {place : Float}
    (h : sweepKeeps direction (sweepEdge direction q) place = true) :
    sweepKeeps direction (sweepEdge direction p) place = true := by
  cases direction with
  | forward =>
    have hplace : sweepEdge .forward q < place := of_decide_eq_true h
    exact decide_eq_true (lt_of_le_of_lt (sweepEdge_forward_mono hp hpq hq) hplace)
  | backward =>
    have hplace : place < sweepEdge .backward q := of_decide_eq_true h
    exact decide_eq_true (lt_of_lt_of_le hplace (sweepEdge_backward_anti hp hpq hq))

end Range

/-- A fill along the range that has passed more LEDs has lit more of them. -/
theorem fills_mono {direction : Direction} {width before after offset : Int} (h : before ≤ after)
    (hfills : fills direction width before offset = true) :
    fills direction width after offset = true := by
  cases direction with
  | forward =>
    have hoffset : offset < before := of_decide_eq_true hfills
    exact decide_eq_true (Int.lt_of_lt_of_le hoffset h)
  | backward =>
    have hoffset : width - before ≤ offset := of_decide_eq_true hfills
    exact decide_eq_true (by omega)

/-! ### Both ends -/

section Ends

variable {p place : Float} (direction : Direction) (hfirst : 0.0 ≤ place) (hlast : place ≤ 1.0)
include hfirst hlast

/-- At the start, a sweep has come to no place on the body. -/
theorem sweep_before (hp : 0.0 ≤ p) (h : p ≤ 0.0) :
    sweepFills direction (sweepEdge direction p) place = false
      ∧ sweepKeeps direction (sweepEdge direction p) place = true := by
  have hkeeps : sweepKeeps direction (sweepEdge direction p) place = true := by
    cases direction with
    | forward =>
      have hfront := lt_of_le_of_lt (sweepEdge_forward_mono hp h zero_le_one) sweepEdge_ends.1.1
      exact decide_eq_true (lt_of_lt_of_le hfront hfirst)
    | backward =>
      have hfront := lt_of_lt_of_le sweepEdge_ends.2.1 (sweepEdge_backward_anti hp h zero_le_one)
      exact decide_eq_true (lt_of_le_of_lt hlast hfront)
  exact ⟨not_sweepFills_of_sweepKeeps hkeeps, hkeeps⟩

/-- In the end, a sweep has come to every place on the body. -/
theorem sweep_after (h : 1.0 ≤ p) (hp : p ≤ 1.0) :
    sweepFills direction (sweepEdge direction p) place = true
      ∧ sweepKeeps direction (sweepEdge direction p) place = false := by
  have hfills : sweepFills direction (sweepEdge direction p) place = true := by
    cases direction with
    | forward =>
      have hbehind := le_trans sweepEdge_ends.1.2 (sweepEdge_forward_mono zero_le_one h hp)
      exact decide_eq_true (le_trans hlast hbehind)
    | backward =>
      have hbehind := le_trans (sweepEdge_backward_anti zero_le_one h hp) sweepEdge_ends.2.2
      exact decide_eq_true (le_trans hbehind hfirst)
  refine ⟨hfills, Bool.eq_false_iff.mpr fun hkeeps => ?_⟩
  rw [not_sweepFills_of_sweepKeeps hkeeps] at hfills
  exact Bool.false_ne_true hfills

end Ends

/-- A scattered fill comes to every LED. -/
theorem revealPoint_le_one (led : UInt16) : revealPoint led ≤ 1.0 := by
  obtain ⟨hall, hnumber, hpos, hone⟩ := seedCount_eq
  have hseed : (led.toNat * 9301 + 49297) % 233280 ≤ 233280 :=
    Nat.le_of_lt (Nat.mod_lt _ (by decide))
  have hle := Double.ofNat_le_ofNat (by decide) hseed
  rw [hall] at hle
  exact le_trans (Double.div_le_div_right hnumber hpos hle) hone

/-! ### The light of a reveal -/

namespace Cue

/-- Whether a fill, a wipe or a scattered fill has an LED on at a time. -/
def isLit (c : Cue) (layout : Layout) (led : UInt16) (time : Float) : Bool :=
  let elapsed := time - c.startTime.toFloat
  match c.kind with
  | .randomFill => revealPoint led ≤ c.progress elapsed
  | _ => c.isOn layout led elapsed

/-- The place at which a sweep over the body sees an LED. -/
def placeOf? (c : Cue) (layout : Layout) (led : UInt16) : Option Float :=
  match c.kind with
  | .bodyFill => some (layout.y led c.armPose c.travel .bodyFill)
  | .bodyWipe => some (layout.y led c.armPose c.travel .bodyWipe)
  | .bodyFillHorizontal | .bodyWipeHorizontal => some (layout.x led)
  | _ => none

/-- What a reveal does to an LED: it goes on in one direction, from the start to the end. -/
structure NeverGoesBack (c : Cue) (layout : Layout) (led : UInt16) : Prop where
  /-- The effect gives the LED the main color while the LED is lit, and otherwise nothing. -/
  effect : ∀ time, c.effectColor layout led (time - c.startTime.toFloat)
    = c.onOff (c.isLit layout led time)
  /-- So the LED has the light of a solid cue while it is lit, and no light while it is not. -/
  light : ∀ time, c.light layout led time
    = if c.isLit layout led time then (c.withKind .solid).light layout led time else .black
  /-- What a fill has lit stays lit. -/
  fill : c.kind.isFill = true → ∀ earlier later, earlier ≤ later →
    c.isLit layout led earlier = true → c.isLit layout led later = true
  /-- What a wipe has turned off stays off. -/
  wipe : c.kind.isWipe = true → ∀ earlier later, earlier ≤ later →
    c.isLit layout led earlier = false → c.isLit layout led later = false
  /-- A sweep leaves every place on the body as it is while nothing of the cue is over. -/
  untouched : ∀ place ∈ c.placeOf? layout led, 0.0 ≤ place → place ≤ 1.0 → ∀ time,
    c.progress (time - c.startTime.toFloat) ≤ 0.0 → c.isLit layout led time = c.kind.isWipe
  /-- A sweep has come to every place on the body when all of the cue is over. -/
  done : ∀ place ∈ c.placeOf? layout led, 0.0 ≤ place → place ≤ 1.0 → ∀ time,
    1.0 ≤ c.progress (time - c.startTime.toFloat) → c.isLit layout led time = c.kind.isFill
  /-- A scattered fill has come to every LED then. -/
  scattered : c.kind = .randomFill → ∀ time,
    1.0 ≤ c.progress (time - c.startTime.toFloat) → c.isLit layout led time = true

variable {c : Cue} {layout : Layout} {led : UInt16}

/-- A reveal gives an LED the main color while the LED is lit, and otherwise nothing. -/
theorem effectColor_eq_onOff (hkind : c.kind.isFill = true ∨ c.kind.isWipe = true) (time : Float) :
    c.effectColor layout led (time - c.startTime.toFloat) = c.onOff (c.isLit layout led time) := by
  unfold effectColor effect isLit isOn edge
  cases h : c.kind <;> first | rfl | exact absurd hkind (by rw [h]; decide)

/-- A fill is one along the range, one over the body or a scattered one. -/
theorem isLit_fill_cases (layout : Layout) (led : UInt16) (h : c.kind.isFill = true) :
    (∀ time, c.isLit layout led time
      = fills c.travel c.width (passed (c.progress (time - c.startTime.toFloat)) c.width)
          (c.offset led))
    ∨ (∃ place, ∀ time, c.isLit layout led time
      = sweepFills c.travel (sweepEdge c.travel (c.progress (time - c.startTime.toFloat))) place)
    ∨ (∀ time, c.isLit layout led time
      = decide (revealPoint led ≤ c.progress (time - c.startTime.toFloat))) := by
  unfold isLit isOn edge
  cases hkind : c.kind with
  | fill => exact .inl fun _ => rfl
  | bodyFill => exact .inr (.inl ⟨_, fun _ => rfl⟩)
  | bodyFillHorizontal => exact .inr (.inl ⟨_, fun _ => rfl⟩)
  | randomFill => exact .inr (.inr fun _ => rfl)
  | _ => rw [hkind] at h; cases h

/-- A wipe is one along the range or one over the body. -/
theorem isLit_wipe_cases (layout : Layout) (led : UInt16) (h : c.kind.isWipe = true) :
    (∀ time, c.isLit layout led time
      = keeps c.travel c.width (passed (c.progress (time - c.startTime.toFloat)) c.width)
          (c.offset led))
    ∨ ∃ place, ∀ time, c.isLit layout led time
      = sweepKeeps c.travel (sweepEdge c.travel (c.progress (time - c.startTime.toFloat))) place := by
  unfold isLit isOn edge
  cases hkind : c.kind with
  | wipe => exact .inl fun _ => rfl
  | bodyWipe => exact .inr ⟨_, fun _ => rfl⟩
  | bodyWipeHorizontal => exact .inr ⟨_, fun _ => rfl⟩
  | _ => rw [hkind] at h; cases h

/-- A sweep over the body is a fill or a wipe, and not both. -/
theorem isLit_sweep_cases {place : Float} (h : c.placeOf? layout led = some place) :
    (c.kind.isFill = true ∧ c.kind.isWipe = false ∧ ∀ time, c.isLit layout led time
      = sweepFills c.travel (sweepEdge c.travel (c.progress (time - c.startTime.toFloat))) place)
    ∨ (c.kind.isFill = false ∧ c.kind.isWipe = true ∧ ∀ time, c.isLit layout led time
      = sweepKeeps c.travel (sweepEdge c.travel (c.progress (time - c.startTime.toFloat)))
          place) := by
  unfold placeOf? at h
  unfold isLit isOn edge
  cases hkind : c.kind with
  | bodyFill => rw [hkind] at h; cases h; exact .inl ⟨rfl, rfl, fun _ => rfl⟩
  | bodyFillHorizontal => rw [hkind] at h; cases h; exact .inl ⟨rfl, rfl, fun _ => rfl⟩
  | bodyWipe => rw [hkind] at h; cases h; exact .inr ⟨rfl, rfl, fun _ => rfl⟩
  | bodyWipeHorizontal => rw [hkind] at h; cases h; exact .inr ⟨rfl, rfl, fun _ => rfl⟩
  | _ => rw [hkind] at h; cases h

/-- The width of a range that does not end before it begins. -/
theorem exists_width_eq (h : c.rangeStart ≤ c.rangeEnd) :
    ∃ width : Nat, c.width = width ∧ width < 2 ^ 53 := by
  have hle := UInt16.le_iff_toNat_le.mp h
  have hend := c.rangeEnd.toNat_lt
  refine ⟨c.rangeEnd.toNat - c.rangeStart.toNat, ?_, by omega⟩
  unfold width
  omega

section Times

variable (hstart : c.startTime.isFinite = true) (hduration : c.duration.isFinite = true)
  {earlier later : Float} (h : earlier ≤ later) (hrange : c.rangeStart ≤ c.rangeEnd)
include hstart hduration h hrange

/-- What a fill has lit stays lit. -/
theorem isLit_of_isFill (hfill : c.kind.isFill = true) (hlit : c.isLit layout led earlier = true) :
    c.isLit layout led later = true := by
  obtain ⟨hlow, hmono, hhigh⟩ := progress_between hduration hstart h
  obtain ⟨width, hwidth, hbound⟩ := exists_width_eq hrange
  rcases isLit_fill_cases layout led hfill with hcase | ⟨place, hcase⟩ | hcase <;>
    rw [hcase] at hlit ⊢
  · rw [hwidth] at hlit ⊢
    exact fills_mono (passed_mono hlow hmono hhigh hbound) hlit
  · exact sweepFills_mono hlow hmono hhigh hlit
  · exact decide_eq_true (le_trans (of_decide_eq_true hlit) hmono)

/-- What a wipe has turned off stays off. -/
theorem not_isLit_of_isWipe (hwipe : c.kind.isWipe = true)
    (hdark : c.isLit layout led earlier = false) : c.isLit layout led later = false := by
  obtain ⟨hlow, hmono, hhigh⟩ := progress_between hduration hstart h
  obtain ⟨width, hwidth, hbound⟩ := exists_width_eq hrange
  rcases isLit_wipe_cases layout led hwipe with hcase | ⟨place, hcase⟩ <;> rw [hcase] at hdark ⊢
  · rw [hwidth, keeps_eq, Bool.not_eq_false'] at hdark ⊢
    exact fills_mono (passed_mono hlow hmono hhigh hbound) hdark
  · refine Bool.eq_false_iff.mpr fun hkeeps => ?_
    rw [sweepKeeps_anti hlow hmono hhigh hkeeps] at hdark
    cases hdark

end Times

/-- A sweep leaves a place on the body as it is while nothing of the cue is over, and has come to it
    when all of it is. -/
theorem isLit_of_place {place : Float} (hplace : c.placeOf? layout led = some place)
    (hfirst : 0.0 ≤ place) (hlast : place ≤ 1.0) (time : Float) :
    (c.progress (time - c.startTime.toFloat) ≤ 0.0 → c.isLit layout led time = c.kind.isWipe)
    ∧ (1.0 ≤ c.progress (time - c.startTime.toFloat) →
      c.isLit layout led time = c.kind.isFill) := by
  rcases isLit_sweep_cases hplace with ⟨hfill, hwipe, hcase⟩ | ⟨hfill, hwipe, hcase⟩
  · rw [hfill, hwipe, hcase]
    exact ⟨fun h => (sweep_before _ hfirst hlast (progress_mem (le_self_of_le h).1).1 h).1,
      fun h => (sweep_after _ hfirst hlast h (progress_mem (le_self_of_le h).2).2).1⟩
  · rw [hfill, hwipe, hcase]
    exact ⟨fun h => (sweep_before _ hfirst hlast (progress_mem (le_self_of_le h).1).1 h).2,
      fun h => (sweep_after _ hfirst hlast h (progress_mem (le_self_of_le h).2).2).2⟩

end Cue

/-- **Reveals never go back.** Between two times, a fill only lights LEDs and a wipe only turns them
    off, whatever their order along the range, over the body or scattered is. A sweep begins with the
    whole body in front of it and ends with the whole body behind it, and a scattered fill ends with
    every LED lit. -/
theorem reveal_neverGoesBack {c : Cue} (hkind : c.kind.isFill = true ∨ c.kind.isWipe = true)
    (hstart : c.startTime.isFinite = true) (hduration : c.duration.isFinite = true)
    (hrange : c.rangeStart ≤ c.rangeEnd) (layout : Layout) (led : UInt16) :
    c.NeverGoesBack layout led where
  effect := Cue.effectColor_eq_onOff hkind
  light time := Cue.light_eq_of_onOff (Cue.effectColor_eq_onOff hkind time)
  fill hfill _ _ h := Cue.isLit_of_isFill hstart hduration h hrange hfill
  wipe hwipe _ _ h := Cue.not_isLit_of_isWipe hstart hduration h hrange hwipe
  untouched _ hplace hfirst hlast time := (Cue.isLit_of_place hplace hfirst hlast time).1
  done _ hplace hfirst hlast time := (Cue.isLit_of_place hplace hfirst hlast time).2
  scattered hrandom time h := by
    have hlit : c.isLit layout led time
        = decide (revealPoint led ≤ c.progress (time - c.startTime.toFloat)) := by
      unfold Cue.isLit
      rw [hrandom]
    rw [hlit]
    exact decide_eq_true (le_trans (revealPoint_le_one led) h)

/-- A wipe from the feet to the head for a second, at 40 percent and with the hands up. -/
def Cue.dusk : Cue :=
  { Cue.plain "dusk" 1 .bodyWipe 250 1000 ⟨0xff, 0x80, 0⟩ 0 540 with
    direction := some .backward, pose := some .handsUp, brightness := some 40 }

/-- A finger has light at the start, is dark after three quarters of the time, and stays dark. -/
theorem dusk_neverGoesBack :
    Cue.dusk.kind.isWipe = true ∧ Cue.dusk.startTime.isFinite = true
    ∧ Cue.dusk.duration.isFinite = true ∧ Cue.dusk.rangeStart ≤ Cue.dusk.rangeEnd
    ∧ Cue.dusk.light .standard 100 250.0 = ⟨102, 51, 0⟩
    ∧ Cue.dusk.light .standard 100 1000.5 = .black
    ∧ Cue.dusk.light .standard 100 1250.0 = .black := by
  obtain ⟨hstart, hduration⟩ :
      Cue.dusk.startTime.isFinite = true ∧ Cue.dusk.duration.isFinite = true := by decide +kernel
  obtain ⟨hfirst, hlast⟩ : 0.0 ≤ Layout.standard.y 100 .handsUp .backward .bodyWipe
      ∧ Layout.standard.y 100 .handsUp .backward .bodyWipe ≤ 1.0 := by decide +kernel
  obtain ⟨hbefore, hafter⟩ : Cue.dusk.progress (250.0 - Cue.dusk.startTime.toFloat) ≤ 0.0
      ∧ 1.0 ≤ Cue.dusk.progress (1250.0 - Cue.dusk.startTime.toFloat) := by decide +kernel
  obtain ⟨hlater, hdark⟩ : (1000.0 : Float) ≤ 1000.5
      ∧ Cue.dusk.isLit .standard 100 1000.0 = false := by decide +kernel
  have hsolid : (Cue.dusk.withKind .solid).light .standard 100 250.0 = ⟨102, 51, 0⟩ := by
    decide +kernel
  have hback := reveal_neverGoesBack (c := Cue.dusk) (.inr rfl) hstart hduration (by decide)
    .standard 100
  have hwipe : Cue.dusk.kind.isWipe = true := rfl
  have hfill : Cue.dusk.kind.isFill = false := rfl
  refine ⟨rfl, hstart, hduration, by decide, ?_, ?_, ?_⟩
  · rw [hback.light, hback.untouched _ rfl hfirst hlast 250.0 hbefore, hwipe, if_pos rfl, hsolid]
  · rw [hback.light, hback.wipe hwipe 1000.0 1000.5 hlater hdark, if_neg Bool.false_ne_true]
  · rw [hback.light, hback.done _ rfl hfirst hlast 1250.0 hafter, hfill,
      if_neg Bool.false_ne_true]

end LightShow
