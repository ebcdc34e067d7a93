import LightShow.Proofs.Compile.Changes
import Mathlib.Data.List.Basic

namespace LightShow

/-!
# Events of single LEDs

The events of a project can be told apart by the LEDs that they are for, and the events for an LED
depend on the color of that LED alone.

* `encodeEvents_eq_suitEvents` — the events of a project, sample by sample and suit by suit;
* `filter_encodeEvents_suits` — the events for some suits are those of a project with these suits
  only;
* `filter_encodeEvents_congr` — projects that agree on the colors of some LEDs agree on their events.
-/

variable {p q : Project} {layout : Layout} {options : Options} {sample : Nat}

/-- The event of an LED is for that LED. -/
theorem suit_led_of_ledEvent? {suit : UInt8} {led : UInt16} {e : Event}
    (h : p.ledEvent? layout options sample suit led = some e) : e.suit = suit ∧ e.led = led := by
  unfold Project.ledEvent? at h
  dsimp only at h
  split at h
  · cases h
  · cases h
    exact ⟨rfl, rfl⟩

theorem suit_of_mem_suitEvents {suit : Suit} {e : Event}
    (h : e ∈ p.suitEvents layout options sample suit) : e.suit = suit.id := by
  obtain ⟨led, -, hevent⟩ := List.mem_filterMap.mp h
  exact (suit_led_of_ledEvent? hevent).1

/-! ### The stream, suit by suit -/

/-- The events of a project, sample by sample, and suit by suit in a sample. -/
theorem encodeEvents_eq_suitEvents (p : Project) (layout : Layout) (options : Options) :
    encodeEvents p layout options
      = (List.range (sampleCount p options)).flatMap fun sample =>
          p.suits.flatMap (p.suitEvents layout options sample) := by
  rw [encodeEvents_eq_map]
  unfold Project.ledChanges
  rw [List.map_flatMap]
  simp only [map_toEvent_sampleChanges]
  rfl

/-! ### Some of the suits -/

/-- Keeping the events for some suits of a list is keeping these suits. -/
theorem filter_flatMap_suitEvents (p : Project) (layout : Layout) (options : Options)
    (sample : Nat) (keep : UInt8 → Bool) (suits : List Suit) :
    (suits.flatMap (p.suitEvents layout options sample)).filter (fun e => keep e.suit)
      = (suits.filter (fun s => keep s.id)).flatMap (p.suitEvents layout options sample) := by
  induction suits with
  | nil => rfl
  | cons suit rest ih =>
    rw [List.flatMap_cons, List.filter_append, ih]
    by_cases h : keep suit.id = true
    · -- all events of a suit have its id, so that they stay or go together
      have hall : (p.suitEvents layout options sample suit).filter (fun e => keep e.suit)
          = p.suitEvents layout options sample suit := by
        rw [List.filter_eq_self]
        intro e he
        rw [suit_of_mem_suitEvents he]
        exact h
      rw [hall, List.filter_cons_of_pos (by exact h), List.flatMap_cons]
    · have hnone : (p.suitEvents layout options sample suit).filter (fun e => keep e.suit) = [] := by
        rw [List.filter_eq_nil_iff]
        intro e he
        rw [suit_of_mem_suitEvents he]
        exact h
      rw [hnone, List.filter_cons_of_neg (by exact h), List.nil_append]

/-- **Some suits only.** The events for the suits with some ids are the events of the project that
    has only these suits. -/
theorem filter_encodeEvents_suits (p : Project) (layout : Layout) (options : Options)
    (keep : UInt8 → Bool) :
    (encodeEvents p layout options).filter (fun e => keep e.suit)
      = encodeEvents { p with suits := p.suits.filter fun s => keep s.id } layout options := by
  rw [encodeEvents_eq_suitEvents, encodeEvents_eq_suitEvents, List.filter_flatMap]
  apply List.flatMap_congr
  intro sample _
  exact filter_flatMap_suitEvents p layout options sample keep p.suits

/-! ### Some of the LEDs -/

/-- An LED that has the same color in two projects at all times has the same events in them. -/
theorem ledEvent?_congr {suit : UInt8} {led : UInt16}
    (h : ∀ time, q.colorAt layout suit led time = p.colorAt layout suit led time) :
    q.ledEvent? layout options sample suit led = p.ledEvent? layout options sample suit led := by
  have hbefore : q.colorBefore layout options suit led sample
      = p.colorBefore layout options suit led sample := by
    cases sample with
    | zero => rfl
    | succ sample => exact h (sampleTime options sample)
  unfold Project.ledEvent?
  rw [h, hbefore]

/-- **Some LEDs only.** Two projects with the same suits and the same length that agree on the colors
    of some LEDs have the same events for these LEDs, in the same order. -/
theorem filter_encodeEvents_congr (layout : Layout) (options : Options)
    (keep : UInt8 → UInt16 → Bool) (hsuits : q.suits = p.suits) (hduration : q.duration = p.duration)
    (hcolor : ∀ suit led, keep suit led = true → ∀ time,
      q.colorAt layout suit led time = p.colorAt layout suit led time) :
    (encodeEvents q layout options).filter (fun e => keep e.suit e.led)
      = (encodeEvents p layout options).filter (fun e => keep e.suit e.led) := by
  have hcount : sampleCount q options = sampleCount p options := by
    unfold sampleCount
    rw [hduration]
  rw [encodeEvents_eq_suitEvents, encodeEvents_eq_suitEvents, hcount, hsuits]
  simp only [List.filter_flatMap]
  apply List.flatMap_congr
  intro sample _
  apply List.flatMap_congr
  intro suit _
  unfold Project.suitEvents
  rw [List.filter_filterMap, List.filter_filterMap]
  apply List.filterMap_congr
  intro led _
  by_cases h : keep suit.id led.toUInt16 = true
  · rw [ledEvent?_congr (hcolor suit.id led.toUInt16 h)]
  · -- whatever the event of such an LED is, it is left out
    have hnone : ∀ r : Project, (r.ledEvent? layout options sample suit.id led.toUInt16).filter
        (fun e => keep e.suit e.led) = none := by
      intro r
      rw [Option.filter_eq_none_iff]
      intro e he
      obtain ⟨hsuit, hled⟩ := suit_led_of_ledEvent? he
      rw [hsuit, hled]
      exact h
    rw [hnone, hnone]

end LightShow
