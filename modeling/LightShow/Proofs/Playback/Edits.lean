import LightShow.Proofs.Compile.Influence
import LightShow.Proofs.Double.Order
import LightShow.Proofs.Playback.History
import LightShow.Proofs.Playback.Parity

namespace LightShow

/-!
# Editing a project in one place

A project is compared with the one that has one more cue, at any place among the others.

* `Cue.not_active_of_outside` — the times at which a cue is not active;
* `filter_encodeEvents_insertCue` — the events for LEDs that the new cue is not for stay the same;
* `color?_advance_start` — what a player of a compiled show has at the time of a sample;
* `compile_insertCue` — an edit shows on the LEDs and at the times of the new cue, and nowhere else.
-/

variable {p : Project} {layout : Layout} {options : Options}

/-! ### Times outside of a window -/

/-- A cue is not active before its start, from its end on, and if it never lasts. -/
theorem Cue.not_active_of_outside {c : Cue} {time : Float}
    (h : time < c.startTime.toFloat ∨ c.endTime ≤ time ∨ ¬ 0.0 < c.duration.toFloat) :
    c.isActiveAt time = false := by
  rw [Bool.eq_false_iff]
  intro hactive
  unfold isActiveAt at hactive
  simp only [Bool.and_eq_true, decide_eq_true_eq] at hactive
  obtain ⟨⟨hlasts, hstarted⟩, hgoing⟩ := hactive
  rcases h with hbefore | hafter | hnever
  · exact Double.not_le_of_lt hbefore hstarted
  · exact Double.not_le_of_lt hgoing hafter
  · exact hnever hlasts

/-! ### The events for other LEDs -/

/-- The events for LEDs that a new cue is not for are the same as without it. -/
theorem filter_encodeEvents_insertCue {index : Nat} (hindex : index ≤ p.cues.length) (c : Cue)
    (layout : Layout) (options : Options) :
    (encodeEvents (p.insertCue index c) layout options).filter
        (fun e => !c.targets e.suit e.led)
      = (encodeEvents p layout options).filter (fun e => !c.targets e.suit e.led) := by
  refine filter_encodeEvents_congr layout options (fun suit led => !c.targets suit led) rfl rfl ?_
  intro suit led hother time
  have hother : c.targets suit led = false := by simpa using hother
  exact colorAt_insertCue hindex (Cue.reaches_of_not_targets hother _)

/-! ### The colors at a sample -/

/-- A player of a compiled show that goes to the time of a sample has the colors of the sample on the
    LEDs of the project, and no other LEDs. -/
theorem color?_advance_start {s : Show} (hproject : s.project = p)
    (hevents : s.events = encodeEvents p layout options) (hstep : options.step ≠ 0) {sample : Nat}
    (hsample : sample < sampleCount p options) (id : UInt8) (led : UInt16) :
    ((Player.start s).advance (sampleTime options sample)).lights.color? id led
      = if ∃ suit ∈ p.suits, suit.id = id ∧ led.toNat < suit.ledCount.toNat then
          some (p.colorAt layout id led (sampleTime options sample))
        else none := by
  by_cases hin : ∃ suit ∈ p.suits, suit.id = id ∧ led.toNat < suit.ledCount.toNat
  · rw [if_pos hin]
    obtain ⟨suit, hsuit, rfl, hled⟩ := hin
    exact follow_advance_start hproject hevents hstep hsample suit hsuit led hled
  · rw [if_neg hin]
    show ((s.events.takeWhile (·.time ≤ sampleTime options sample)).foldl Lights.apply
      (.dark s.project.suits)).color? id led = none
    rw [Lights.color?_foldl_apply, Lights.color?_dark, hproject, if_neg hin, Option.map_none]

/-! ### One more cue -/

/-- Two shows of a project, with and without a cue, that agree but for the LEDs and the times of the
    cue. -/
structure Show.AgreesBut (t s : Show) (p : Project) (options : Options) (c : Cue) : Prop where
  /-- The events for LEDs that the cue is not for are the same, in the same order. -/
  events : t.events.filter (fun e => !c.targets e.suit e.led)
    = s.events.filter (fun e => !c.targets e.suit e.led)
  /-- At the time of a sample at which the cue is not active, players have the same colors on all
      LEDs, whatever times they went to before. -/
  color : ∀ sample < sampleCount p options,
    c.isActiveAt (sampleTime options sample).toFloat = false →
    ∀ times : List UInt32, sampleTime options sample ∈ times →
      (∀ time ∈ times, time ≤ sampleTime options sample) →
      ∀ (id : UInt8) (led : UInt16),
        (times.foldl Player.advance (.start t)).lights.color? id led
          = (times.foldl Player.advance (.start s)).lights.color? id led

/-- **Edits are local.** With options that pass the check, a project and the same project with one
    more cue, at any place among the others, are compiled into shows that agree but for the LEDs and
    the times of that cue. It is not active before its start, from its end on, and if it never
    lasts. -/
theorem compile_insertCue (p : Project) {index : Nat} (hindex : index ≤ p.cues.length) (c : Cue)
    (layout : Layout) (options : Options) (hvalid : options.fault? = none) :
    (∃ s t, p.compile layout options = .ok s
      ∧ (p.insertCue index c).compile layout options = .ok t ∧ t.AgreesBut s p options c)
    ∧ ∀ time : Float,
        time < c.startTime.toFloat ∨ c.endTime ≤ time ∨ ¬ 0.0 < c.duration.toFloat →
        c.isActiveAt time = false := by
  have hstep := (Options.fault?_eq_none_iff.mp hvalid).1
  obtain ⟨s, hs, hsProject, hsEvents⟩ := compile_eq_ok p layout hvalid
  obtain ⟨t, ht, htProject, htEvents⟩ := compile_eq_ok (p.insertCue index c) layout hvalid
  refine ⟨⟨s, t, hs, ht, ?_, ?_⟩, fun time h => Cue.not_active_of_outside h⟩
  · rw [hsEvents, htEvents]
    exact filter_encodeEvents_insertCue hindex c layout options
  · -- where the new cue rests, the sample has the colors that it has without that cue
    intro sample hsample hresting times hmem hmax id led
    have hcolor : (p.insertCue index c).colorAt layout id led (sampleTime options sample)
        = p.colorAt layout id led (sampleTime options sample) :=
      colorAt_insertCue hindex (Cue.reaches_of_not_active hresting id led)
    rw [Player.foldl_advance hmem hmax, Player.foldl_advance hmem hmax,
      color?_advance_start htProject htEvents hstep hsample,
      color?_advance_start hsProject hsEvents hstep hsample, hcolor]
    rfl

/-- A cue in the middle of others, over a part of their LEDs and of their time. -/
theorem compile_ensemble_insertCue :
    let c : Cue := .plain "white" 3 .solid 35 50 ⟨0xff, 0xff, 0xff⟩ 1 2
    let options : Options := { step := 30 }
    (∃ s t, ensemble.compile .standard options = .ok s
      ∧ (ensemble.insertCue 2 c).compile .standard options = .ok t
      ∧ t.AgreesBut s ensemble options c)
    ∧ ∀ time : Float,
        time < c.startTime.toFloat ∨ c.endTime ≤ time ∨ ¬ 0.0 < c.duration.toFloat →
        c.isActiveAt time = false :=
  compile_insertCue ensemble (by decide) _ .standard _ (by decide)

end LightShow
