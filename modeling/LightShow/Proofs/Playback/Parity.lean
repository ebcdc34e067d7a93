import LightShow.Project.Starter
import LightShow.Proofs.Compile.Changes
import LightShow.Proofs.Playback.Advance
import Mathlib.Data.List.TakeWhile

namespace LightShow

/-!
# A player shows what the compiler saw

* `Lights.Follow` — the lights agree with the frame in front of a sample;
* `follow_foldl_apply` — the events of a sample take lights that follow one sample to the next one;
* `takeWhile_encodeEvents` — the events that are due at a time are those of the samples up to it;
* `compile_replays` — after any run of times, a player of a compiled show has the colors of the last
  sample that it has passed.

Suits may share an id, and with it a row of lights. Their events agree on every LED, since the color
of an LED depends on the suit's id alone.
-/

variable {p : Project} {layout : Layout} {options : Options}

/-! ### Lights that follow the samples -/

/-- The events of a sample. -/
def Project.sampleEvents (p : Project) (layout : Layout) (options : Options) (sample : Nat) :
    List Event :=
  (p.sampleChanges layout options sample).map Change.toEvent

/-- The lights have the colors of the sample in front of a given one. -/
def Lights.Follow (lights : Lights) (p : Project) (layout : Layout) (options : Options)
    (sample : Nat) : Prop :=
  ∀ suit ∈ p.suits, ∀ led : UInt16, led.toNat < suit.ledCount.toNat →
    lights.color? suit.id led = some (p.colorBefore layout options suit.id led sample)

/-- All events of a sample for one LED have its color at the sample. -/
theorem color_of_mem_sampleEvents {sample : Nat} {e : Event}
    (h : e ∈ p.sampleEvents layout options sample) :
    e.color = p.colorAt layout e.suit e.led (sampleTime options sample) := by
  obtain ⟨c, hc, rfl⟩ := List.mem_map.mp h
  obtain ⟨suit, -, -, hchange⟩ := mem_sampleChanges.mp hc
  obtain ⟨-, heq⟩ := ledChange?_eq_some_iff.mp hchange
  show c.color = p.colorAt layout c.suit c.led.toUInt16 (sampleTime options sample)
  rw [heq]

/-- There is an event for every LED whose color is a new one. -/
theorem exists_mem_sampleEvents {sample : Nat} {suit : Suit} {led : UInt16}
    (hsuit : suit ∈ p.suits) (hled : led.toNat < suit.ledCount.toNat)
    (hnew : p.colorAt layout suit.id led (sampleTime options sample)
      ≠ p.colorBefore layout options suit.id led sample) :
    ∃ e ∈ p.sampleEvents layout options sample, e.suit = suit.id ∧ e.led = led := by
  obtain ⟨position, hposition, hget⟩ := List.getElem_of_mem hsuit
  have hcast : led.toNat.toUInt16 = led := UInt16.ofNat_toNat
  let c : Change := ⟨sample * options.step.toNat, position, suit.id, led.toNat,
    p.colorAt layout suit.id led.toNat.toUInt16 (sampleTime options sample)⟩
  have hc : c ∈ p.sampleChanges layout options sample := by
    refine mem_sampleChanges.mpr ⟨suit, List.getElem?_eq_some_iff.mpr ⟨hposition, hget⟩, hled, ?_⟩
    refine ledChange?_eq_some_iff.mpr ⟨?_, rfl⟩
    show p.colorAt layout suit.id led.toNat.toUInt16 (sampleTime options sample) ≠ _
    rw [hcast]
    exact hnew
  exact ⟨c.toEvent, List.mem_map_of_mem hc, rfl, hcast⟩

/-- At the start, the lights follow the first sample: nothing is lit. -/
theorem follow_dark (p : Project) (layout : Layout) (options : Options) :
    (Lights.dark p.suits).Follow p layout options 0 := by
  intro suit hsuit led hled
  show _ = some Color.black
  rw [Lights.color?_dark, if_pos ⟨suit, hsuit, rfl, hled⟩]

/-- **One sample.** Its events take lights that follow it to lights that follow the next one. -/
theorem follow_foldl_apply {lights : Lights} {sample : Nat}
    (h : lights.Follow p layout options sample) :
    ((p.sampleEvents layout options sample).foldl Lights.apply lights).Follow p layout options
      (sample + 1) := by
  intro suit hsuit led hled
  have hbefore := h suit hsuit led hled
  show _ = some (p.colorAt layout suit.id led (sampleTime options sample))
  rw [Lights.color?_foldl_apply_of_agree (c := p.colorAt layout suit.id led (sampleTime options sample))]
  · split
    · rw [hbefore, Option.map_some]
    · next hnone =>
      -- without an event the color is the one from before
      rw [hbefore]
      refine congrArg some (Decidable.byContradiction fun hold => ?_)
      exact hnone (exists_mem_sampleEvents hsuit hled (Ne.symm hold))
  · intro e he hid hindex
    rw [color_of_mem_sampleEvents he, hid, hindex]

/-- **All samples.** The events of the first samples take the lights from the start to the next
    sample. -/
theorem follow_flatMap_sampleEvents (p : Project) (layout : Layout) (options : Options)
    (count : Nat) :
    (((List.range count).flatMap (p.sampleEvents layout options)).foldl Lights.apply
      (.dark p.suits)).Follow p layout options count := by
  induction count with
  | zero => exact follow_dark p layout options
  | succ count ih =>
    rw [List.range_succ, List.flatMap_append, List.flatMap_singleton, List.foldl_append]
    exact follow_foldl_apply ih

/-! ### The samples that are due -/

/-- The events of a project, sample by sample. -/
theorem encodeEvents_eq_flatMap (p : Project) (layout : Layout) (options : Options) :
    encodeEvents p layout options
      = (List.range (sampleCount p options)).flatMap (p.sampleEvents layout options) := by
  rw [encodeEvents_eq_map]
  exact List.map_flatMap

/-- Events have the time of their sample. -/
theorem toNat_time_of_mem_sampleEvents {sample : Nat} (hsample : sample < sampleCount p options)
    {e : Event} (h : e ∈ p.sampleEvents layout options sample) :
    e.time.toNat = sample * options.step.toNat := by
  obtain ⟨c, hc, rfl⟩ := List.mem_map.mp h
  have htold := congrArg Prod.fst (told_toEvent hsample hc)
  rw [← time_of_mem_sampleChanges hc]
  exact htold

/-- The last sample at or before a time, and no later than the end of the show. -/
def lastSample (p : Project) (options : Options) (time : UInt32) : Nat :=
  min time.toNat p.duration.toNat / options.step.toNat

theorem lastSample_lt_sampleCount (p : Project) (options : Options) (time : UInt32) :
    lastSample p options time < sampleCount p options :=
  Nat.lt_succ_of_le (Nat.div_le_div_right (Nat.min_le_right _ _))

/-- A sample is due at a time if it is no later than the last one before that time. -/
theorem le_lastSample_iff (hstep : options.step ≠ 0) {sample : Nat}
    (hsample : sample < sampleCount p options) {time : UInt32} :
    sample ≤ lastSample p options time ↔ sample * options.step.toNat ≤ time.toNat := by
  have hpos := Options.toNat_step_pos hstep
  have hend := sample_mul_step_le hsample
  unfold lastSample
  rw [Nat.le_div_iff_mul_le hpos]
  omega

/-- The events that are due at a time are those of the samples up to that time. -/
theorem takeWhile_encodeEvents (layout : Layout) (hstep : options.step ≠ 0) (time : UInt32) :
    (encodeEvents p layout options).takeWhile (·.time ≤ time)
      = (List.range (lastSample p options time + 1)).flatMap (p.sampleEvents layout options) := by
  have hlast := lastSample_lt_sampleCount p options time
  obtain ⟨later, hcount⟩ := Nat.exists_eq_add_of_le (Nat.succ_le_of_lt hlast)
  rw [encodeEvents_eq_flatMap, hcount, List.range_add, List.flatMap_append]
  apply takeWhile_append_of_forall
  · -- up to the last sample
    intro e he
    obtain ⟨sample, hsample, he⟩ := List.mem_flatMap.mp he
    have hle : sample ≤ lastSample p options time := by simpa [Nat.lt_succ_iff] using hsample
    have hin : sample < sampleCount p options := by omega
    rw [decide_eq_true_eq, UInt32.le_iff_toNat_le, toNat_time_of_mem_sampleEvents hin he]
    exact (le_lastSample_iff hstep hin).mp hle
  · -- after it
    intro e he
    obtain ⟨sample, hsample, he⟩ := List.mem_flatMap.mp he
    obtain ⟨offset, hoffset, rfl⟩ := List.mem_map.mp hsample
    have hin : lastSample p options time + 1 + offset < sampleCount p options := by
      have := List.mem_range.mp hoffset
      omega
    rw [decide_eq_false_iff_not, UInt32.le_iff_toNat_le, toNat_time_of_mem_sampleEvents hin he,
      ← le_lastSample_iff hstep hin]
    omega

/-- The last sample up to the time of a sample is that sample. -/
theorem lastSample_sampleTime (hstep : options.step ≠ 0) {sample : Nat}
    (hsample : sample < sampleCount p options) :
    lastSample p options (sampleTime options sample) = sample := by
  unfold lastSample
  rw [toNat_sampleTime hsample, Nat.min_eq_left (sample_mul_step_le hsample),
    Nat.mul_div_cancel _ (Options.toNat_step_pos hstep)]

/-- A player of a compiled show that goes to the time of a sample has the colors of the sample. -/
theorem follow_advance_start {s : Show} (hproject : s.project = p)
    (hevents : s.events = encodeEvents p layout options) (hstep : options.step ≠ 0) {sample : Nat}
    (hsample : sample < sampleCount p options) :
    ((Player.start s).advance (sampleTime options sample)).lights.Follow p layout options
      (sample + 1) := by
  show ((s.events.takeWhile (·.time ≤ sampleTime options sample)).foldl Lights.apply
    (.dark s.project.suits)).Follow p layout options (sample + 1)
  rw [hproject, hevents, takeWhile_encodeEvents layout hstep, lastSample_sampleTime hstep hsample]
  exact follow_flatMap_sampleEvents p layout options (sample + 1)

/-- No event is later than the end of the show. -/
theorem time_le_of_mem_encodeEvents {e : Event} (h : e ∈ encodeEvents p layout options) :
    e.time ≤ p.duration := by
  rw [encodeEvents_eq_flatMap, List.mem_flatMap] at h
  obtain ⟨sample, hsample, he⟩ := h
  have hin := List.mem_range.mp hsample
  rw [UInt32.le_iff_toNat_le, toNat_time_of_mem_sampleEvents hin he]
  exact sample_mul_step_le hin

/-! ### Parity -/

theorem toNat_min (a b : UInt32) : (min a b).toNat = min a.toNat b.toNat := by
  show (if a ≤ b then a else b).toNat = _
  split
  · next h => exact (Nat.min_eq_left (UInt32.le_iff_toNat_le.mp h)).symm
  · next h =>
    have hlt := UInt32.lt_iff_toNat_lt.mp (UInt32.not_le.mp h)
    omega

/-- The time of the last sample, computed with thirty-two bits. -/
theorem sampleTime_lastSample (p : Project) (options : Options) (time : UInt32) :
    sampleTime options (lastSample p options time)
      = min time p.duration / options.step * options.step := by
  have hlast := lastSample_lt_sampleCount p options time
  have hsample := toNat_sampleTime hlast
  have hbound := (sampleTime options (lastSample p options time)).toNat_lt
  apply UInt32.toNat_inj.mp
  rw [UInt32.toNat_mul, UInt32.toNat_div, toNat_min]
  show _ = lastSample p options time * options.step.toNat % 2 ^ 32
  rw [← hsample, Nat.mod_eq_of_lt hbound]

/-- A show that plays back a project. -/
structure Show.Replays (s : Show) (p : Project) (layout : Layout) (step : UInt32) : Prop where
  /-- After going to some times in any order, of which `m` is the latest, every LED of every suit id
      has the color that mixing gives for that id and LED at the last sample up to `m` and up to the
      end of the show. An id has the LEDs of all suits with that id, and the suits agree on those
      that they share. -/
  color : ∀ (times : List UInt32) (m : UInt32), m ∈ times → (∀ t ∈ times, t ≤ m) →
    ∀ (id : UInt8) (led : UInt16),
      (∃ suit ∈ p.suits, suit.id = id ∧ led.toNat < suit.ledCount.toNat) →
        ∃ state : LedState,
          (times.foldl Player.advance (.start s)).lights.color? id led = some state.output
          ∧ ∀ suit ∈ p.suits, suit.id = id → led.toNat < suit.ledCount.toNat →
              (suit.states layout p.cues (min m p.duration / step * step).toFloat)[led.toNat]?
                = some state
  /-- From the end of the show on, the player is finished. -/
  finished : ∀ (times : List UInt32) (m : UInt32), m ∈ times → (∀ t ∈ times, t ≤ m) →
    p.duration ≤ m → (times.foldl Player.advance (.start s)).finished = true

/-- **Replay parity.** With options that pass the check, a project is compiled into a show that
    plays it back. -/
theorem compile_replays (p : Project) (layout : Layout) (options : Options)
    (hvalid : options.fault? = none) :
    ∃ s, p.compile layout options = .ok s ∧ s.Replays p layout options.step := by
  have hstep := (Options.fault?_eq_none_iff.mp hvalid).1
  obtain ⟨s, hs, rfl, hevents⟩ := compile_eq_ok p layout hvalid
  refine ⟨s, hs, ?_, ?_⟩
  · rintro times m hmem hmax id led ⟨suit, hsuit, rfl, hled⟩
    rw [Player.foldl_advance hmem hmax, ← sampleTime_lastSample]
    let time := (sampleTime options (lastSample s.project options m)).toFloat
    refine ⟨ledState layout led time (activeCues s.project.cues suit.id time), ?_, ?_⟩
    · -- the events that are due are those of the samples up to the last one
      have hfollow := follow_flatMap_sampleEvents s.project layout options
        (lastSample s.project options m + 1) suit hsuit led hled
      rw [← takeWhile_encodeEvents layout hstep m, ← hevents] at hfollow
      exact hfollow
    · -- the color of an LED depends on the id of its suit, not on the suit
      intro twin _ htwin hin
      rw [getElem?_states layout s.project.cues time hin, htwin]
  · intro times m hmem hmax hend
    rw [Player.foldl_advance hmem hmax]
    show ((Player.start s).pending.dropWhile (·.time ≤ m)).isEmpty = true
    rw [List.isEmpty_iff, List.dropWhile_eq_nil_iff]
    intro e he
    have hevent : e ∈ encodeEvents s.project layout options := by
      rw [← hevents]
      exact he
    exact decide_eq_true (UInt32.le_trans (time_le_of_mem_encodeEvents hevent) hend)

/-- Two suits share an id, and the longer one has LEDs that the other one lacks. -/
def twins : Project where
  suits := [⟨3, "short", 2, .empty⟩, ⟨3, "long", 4, .empty⟩]
  cues := [.plain "red" 3 .solid 20 50 ⟨0xff, 0, 0⟩ 1 3]
  duration := 100
  version := Project.currentVersion

/-- Suits that share an id, with a step that does not divide the length of the show. -/
theorem compile_twins_replays :
    ∃ s, twins.compile .standard { step := 30, parallel := true } = .ok s
      ∧ s.Replays twins .standard 30 :=
  compile_replays twins .standard { step := 30, parallel := true } (by decide)

end LightShow
