import LightShow.Show.Basic

namespace LightShow

/-!
# Frames, LED by LED

The color of an LED in a frame depends on the id of its suit, on its index and on the time, and on
nothing else of the suit.

* `Project.colorAt` — the color that an LED shows at a time, `Project.colorBefore` at the sample in
  front of a given one;
* `states_eq_map` — what the LEDs of a suit show, as a map over their indices;
* `frameAt_eq_map`, `frameBefore_eq_map` — frames as maps over suits and indices.
-/

/-! ### One LED -/

/-- The color that an LED of the suits with an id shows at a time. -/
def Project.colorAt (p : Project) (layout : Layout) (suit : UInt8) (led : UInt16)
    (time : UInt32) : Color :=
  (ledState layout led time.toFloat (activeCues p.cues suit time.toFloat)).output

/-- The color that an LED shows at the sample in front of a given one; black in front of the first
    sample. -/
def Project.colorBefore (p : Project) (layout : Layout) (options : Options) (suit : UInt8)
    (led : UInt16) : Nat → Color
  | 0 => .black
  | sample + 1 => p.colorAt layout suit led (sampleTime options sample)

/-- An LED that no cue is active for is idle. -/
theorem ledState_nil (layout : Layout) (led : UInt16) (time : Float) :
    ledState layout led time [] = .idle := rfl

/-- What the first LEDs show is a map over their indices, also if no cue is active. -/
theorem ledStates_eq_map (layout : Layout) (ledCount : UInt16) (time : Float)
    (active : List Cue) :
    ledStates layout ledCount time active
      = (List.range ledCount.toNat).map fun led => ledState layout led.toUInt16 time active := by
  unfold ledStates
  cases active with
  | nil =>
    simp only [List.isEmpty_nil, if_true, ledState_nil]
    rw [List.map_const', List.length_range]
  | cons c rest => rfl

/-- What an LED of a suit shows depends on the suit's id alone. -/
theorem states_eq_map (suit : Suit) (layout : Layout) (cues : List Cue) (time : Float) :
    suit.states layout cues time
      = (List.range suit.ledCount.toNat).map fun led =>
          ledState layout led.toUInt16 time (activeCues cues suit.id time) :=
  ledStates_eq_map layout suit.ledCount time (activeCues cues suit.id time)

/-- What one LED shows among all LEDs of its suit. -/
theorem getElem?_states (layout : Layout) (cues : List Cue) (time : Float) {suit : Suit}
    {led : UInt16} (h : led.toNat < suit.ledCount.toNat) :
    (suit.states layout cues time)[led.toNat]?
      = some (ledState layout led time (activeCues cues suit.id time)) := by
  have hcast : led.toNat.toUInt16 = led := UInt16.ofNat_toNat
  rw [states_eq_map, List.getElem?_map, List.getElem?_range h, Option.map_some, hcast]

/-! ### All LEDs -/

/-- The frame in front of a sample. -/
def frameBefore (p : Project) (layout : Layout) (options : Options) : Nat → Frame
  | 0 => darkFrame p
  | sample + 1 => frameAt p layout (sampleTime options sample)

theorem frameAt_eq_map (p : Project) (layout : Layout) (time : UInt32) :
    frameAt p layout time
      = p.suits.map fun s =>
          (List.range s.ledCount.toNat).map fun led => p.colorAt layout s.id led.toUInt16 time := by
  unfold frameAt
  apply List.map_congr_left
  intro s _
  rw [states_eq_map, List.map_map]
  rfl

theorem frameBefore_eq_map (p : Project) (layout : Layout) (options : Options) (sample : Nat) :
    frameBefore p layout options sample
      = p.suits.map fun s => (List.range s.ledCount.toNat).map fun led =>
          p.colorBefore layout options s.id led.toUInt16 sample := by
  cases sample with
  | zero =>
    show darkFrame p = _
    unfold darkFrame
    apply List.map_congr_left
    intro s _
    show _ = (List.range s.ledCount.toNat).map fun _ => Color.black
    rw [List.map_const', List.length_range]
  | succ sample => exact frameAt_eq_map p layout (sampleTime options sample)

/-! ### The times of the samples -/

/-- A step that is not zero is at least a millisecond. -/
theorem Options.toNat_step_pos {options : Options} (h : options.step ≠ 0) :
    0 < options.step.toNat := by
  apply Nat.pos_of_ne_zero
  intro hzero
  exact h (UInt32.toNat_inj.mp hzero)

/-- A sample is no later than the end of the show. -/
theorem sample_mul_step_le {p : Project} {options : Options} {sample : Nat}
    (h : sample < sampleCount p options) :
    sample * options.step.toNat ≤ p.duration.toNat := by
  have hquotient : sample ≤ p.duration.toNat / options.step.toNat := by
    unfold sampleCount at h
    omega
  calc sample * options.step.toNat
      ≤ p.duration.toNat / options.step.toNat * options.step.toNat :=
        Nat.mul_le_mul_right _ hquotient
    _ ≤ p.duration.toNat := Nat.div_mul_le_self _ _

/-- Thirty-two bits hold the time of a sample. -/
theorem toNat_sampleTime {p : Project} {options : Options} {sample : Nat}
    (h : sample < sampleCount p options) :
    (sampleTime options sample).toNat = sample * options.step.toNat := by
  have hend := sample_mul_step_le h
  have hduration := p.duration.toNat_lt
  exact UInt32.toNat_ofNat_of_lt' (Nat.lt_of_le_of_lt hend hduration)

end LightShow
