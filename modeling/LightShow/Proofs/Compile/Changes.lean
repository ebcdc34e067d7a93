import LightShow.Proofs.Compile.Batches
import LightShow.Proofs.Compile.Frames

namespace LightShow

/-!
# The events of a show as changes between samples

The compiler keeps the frame sent last. Its events are the same as those that a comparison without
memory finds: each sample with the one in front of it, LED by LED.

* `Change` — a change of one LED, in numbers without bound;
* `Project.ledChanges` — all changes, by sample, then by the place of the suit in the project, then
  by LED;
* `Project.suitEvents` — the events of a suit at a sample, which tell of its changes;
* `encodeInTurn_range` — the loop invariant of the compiler;
* `encodeEvents_eq_map` — the events are the changes, in their order;
* `compile_tellsChanges` — the stream of a compiled show.
-/

/-! ### Changes -/

/-- A change of the color of one LED. -/
structure Change where
  /-- When, in milliseconds. -/
  time : Nat
  /-- The place of the suit in the project. -/
  position : Nat
  /-- The id of the suit. -/
  suit : UInt8
  /-- The index of the LED. -/
  led : Nat
  /-- The color after the change. -/
  color : Color
  deriving DecidableEq

namespace Change

/-- The event that tells of a change. -/
def toEvent (c : Change) : Event := ⟨UInt32.ofNat c.time, c.suit, c.led.toUInt16, c.color⟩

/-- What an event tells of a change. -/
def told (c : Change) : Nat × UInt8 × Nat × Color := (c.time, c.suit, c.led, c.color)

/-- One change comes before another one: by time, then by the place of the suit, then by LED. -/
def Precedes (a b : Change) : Prop :=
  a.time < b.time ∨ a.time = b.time ∧
    (a.position < b.position ∨ a.position = b.position ∧ a.led < b.led)

end Change

namespace Event

/-- What an event tells, in numbers without bound. -/
def told (e : Event) : Nat × UInt8 × Nat × Color := (e.time.toNat, e.suit, e.led.toNat, e.color)

/-- One event comes before another one: by time, then by the place of the first suit with the id in
    the project, then by LED. -/
def Precedes (p : Project) (a b : Event) : Prop :=
  let position (e : Event) : Nat := p.suits.findIdx (·.id == e.suit)
  a.time < b.time ∨ a.time = b.time ∧
    (position a < position b ∨ position a = position b ∧ a.led < b.led)

end Event

namespace Project

/-- The change of an LED at a sample, if its color differs from that at the sample in front. -/
def ledChange? (p : Project) (layout : Layout) (options : Options) (sample : Nat)
    (suit : Suit) (position led : Nat) : Option Change :=
  let color := p.colorAt layout suit.id led.toUInt16 (sampleTime options sample)
  if color = p.colorBefore layout options suit.id led.toUInt16 sample then none
  else some ⟨sample * options.step.toNat, position, suit.id, led, color⟩

/-- The changes at a sample. -/
def sampleChanges (p : Project) (layout : Layout) (options : Options) (sample : Nat) :
    List Change :=
  p.suits.zipIdx.flatMap fun suit =>
    (List.range suit.1.ledCount.toNat).filterMap
      (p.ledChange? layout options sample suit.1 suit.2)

/-- The changes at all samples, from zero to the duration divided by the step. -/
def ledChanges (p : Project) (layout : Layout) (options : Options) : List Change :=
  (List.range (p.duration.toNat / options.step.toNat + 1)).flatMap
    (p.sampleChanges layout options)

/-- The event of an LED at a sample, if its color differs from that at the sample in front. -/
def ledEvent? (p : Project) (layout : Layout) (options : Options) (sample : Nat) (suit : UInt8)
    (led : UInt16) : Option Event :=
  let color := p.colorAt layout suit led (sampleTime options sample)
  if color = p.colorBefore layout options suit led sample then none
  else some ⟨sampleTime options sample, suit, led, color⟩

/-- The events of a suit at a sample. -/
def suitEvents (p : Project) (layout : Layout) (options : Options) (sample : Nat) (suit : Suit) :
    List Event :=
  (List.range suit.ledCount.toNat).filterMap fun led =>
    p.ledEvent? layout options sample suit.id led.toUInt16

end Project

variable {p : Project} {layout : Layout} {options : Options}

/-- An LED changes at a sample exactly if its color there is a new one. -/
theorem ledChange?_eq_some_iff {sample position led : Nat} {suit : Suit} {c : Change} :
    p.ledChange? layout options sample suit position led = some c ↔
      p.colorAt layout suit.id led.toUInt16 (sampleTime options sample)
          ≠ p.colorBefore layout options suit.id led.toUInt16 sample
        ∧ c = ⟨sample * options.step.toNat, position, suit.id, led,
            p.colorAt layout suit.id led.toUInt16 (sampleTime options sample)⟩ := by
  unfold Project.ledChange?
  dsimp only
  split
  · next h => simp [h]
  · next h => simp [h, eq_comm]

/-- The changes at a sample are those of the LEDs of its suits. -/
theorem mem_sampleChanges {sample : Nat} {c : Change} :
    c ∈ p.sampleChanges layout options sample ↔
      ∃ suit, p.suits[c.position]? = some suit ∧ c.led < suit.ledCount.toNat
        ∧ p.ledChange? layout options sample suit c.position c.led = some c := by
  simp only [Project.sampleChanges, List.mem_flatMap, List.mem_filterMap, List.mem_range,
    List.mem_zipIdx_iff_getElem?]
  constructor
  · rintro ⟨⟨suit, position⟩, hsuit, led, hled, hchange⟩
    obtain ⟨-, rfl⟩ := ledChange?_eq_some_iff.mp hchange
    exact ⟨suit, hsuit, hled, hchange⟩
  · rintro ⟨suit, hsuit, hled, hchange⟩
    exact ⟨(suit, c.position), hsuit, c.led, hled, hchange⟩

/-- A change is one at some sample. -/
theorem mem_ledChanges {c : Change} :
    c ∈ p.ledChanges layout options ↔
      ∃ sample < sampleCount p options, c ∈ p.sampleChanges layout options sample := by
  unfold Project.ledChanges
  rw [List.mem_flatMap]
  simp only [List.mem_range]
  rfl

/-- The event of a change at a sample tells what the change is: no number is cut. -/
theorem told_toEvent {sample : Nat} {c : Change} (hsample : sample < sampleCount p options)
    (h : c ∈ p.sampleChanges layout options sample) : c.toEvent.told = c.told := by
  obtain ⟨suit, -, hled, hchange⟩ := mem_sampleChanges.mp h
  obtain ⟨-, hc⟩ := ledChange?_eq_some_iff.mp hchange
  have htime : c.time = sample * options.step.toNat := by rw [hc]
  -- a sample is not after the end of the show, and an LED not after the end of its suit
  have hend := sample_mul_step_le hsample
  have hduration := p.duration.toNat_lt
  have hcount := suit.ledCount.toNat_lt
  have htime' : (UInt32.ofNat c.time).toNat = c.time :=
    UInt32.toNat_ofNat_of_lt' (show c.time < 2 ^ 32 by omega)
  have hled' : c.led.toUInt16.toNat = c.led :=
    UInt16.toNat_ofNat_of_lt' (show c.led < 2 ^ 16 by omega)
  unfold Change.toEvent Event.told Change.told
  rw [htime', hled']

/-! ### The compiler finds the changes -/

/-- Two frames given suit by suit are compared suit by suit. -/
theorem changes_map (time : UInt32) (suits : List Suit) (before after : Suit → List Color) :
    changes time (suits.map (·.id)) (suits.map before) (suits.map after)
      = suits.flatMap fun s => suitChanges time s.id (before s) (after s) := by
  unfold changes
  induction suits with
  | nil => rfl
  | cons s rest ih =>
    simp only [List.map_cons, List.zip_cons_cons, List.flatMap_cons]
    rw [ih]

/-- Two rows of colors given LED by LED are compared LED by LED. -/
theorem suitChanges_map_range (time : UInt32) (suit : UInt8) (count : Nat)
    (before after : Nat → Color) :
    suitChanges time suit ((List.range count).map before) ((List.range count).map after)
      = (List.range count).filterMap fun led =>
          if after led = before led then none else some ⟨time, suit, led.toUInt16, after led⟩ := by
  unfold suitChanges
  -- zipped rows with indices are the LEDs themselves, each with its two colors
  have hrow : (((List.range count).map before).zip ((List.range count).map after)).zipIdx
      = (List.range count).map fun led => ((before led, after led), led) := by
    rw [List.zipIdx_eq_zip_range', List.length_zip, List.length_map, List.length_map,
      List.length_range, Nat.min_self, List.zip_map', List.range_eq_range', List.zip_eq_zipWith,
      List.zipWith_map_left, List.zipWith_self]
  rw [hrow, List.filter_map, List.map_map, ← List.filterMap_eq_map, List.filterMap_filter]
  congr 1
  funext led
  by_cases h : after led = before led
  · simp [h]
  · simp [h, Ne.symm h]

/-- The events of the changes at a sample, suit by suit. The places of the suits do not show in
    them. -/
theorem map_toEvent_sampleChanges (p : Project) (layout : Layout) (options : Options)
    (sample : Nat) :
    (p.sampleChanges layout options sample).map Change.toEvent
      = p.suits.flatMap (p.suitEvents layout options sample) := by
  have hsuits : p.suits = p.suits.zipIdx.map Prod.fst := (List.zipIdx_map_fst 0 p.suits).symm
  unfold Project.sampleChanges
  rw [List.map_flatMap]
  conv => rhs; rw [hsuits, List.flatMap_map]
  congr 1
  funext suit
  unfold Project.suitEvents
  rw [List.map_filterMap]
  congr 1
  funext led
  unfold Project.ledChange? Project.ledEvent?
  dsimp only
  split <;> rfl

/-- The events between a sample and the frame in front of it tell of the changes at the sample. -/
theorem changes_eq_map_sampleChanges (p : Project) (layout : Layout) (options : Options)
    (sample : Nat) :
    changes (sampleTime options sample) (p.suits.map (·.id))
        (frameBefore p layout options sample) (frameAt p layout (sampleTime options sample))
      = (p.sampleChanges layout options sample).map Change.toEvent := by
  rw [frameBefore_eq_map, frameAt_eq_map, changes_map, map_toEvent_sampleChanges]
  simp only [suitChanges_map_range]
  rfl

/-- **The loop invariant of the compiler.** After some samples, the frame sent last is the one in
    front of the next sample, and the events tell of all changes so far. -/
theorem encodeInTurn_range (p : Project) (layout : Layout) (options : Options) (count : Nat) :
    encodeInTurn p layout options (.start p) (List.range count)
      = ⟨frameBefore p layout options count,
          ((List.range count).flatMap fun sample =>
            (p.sampleChanges layout options sample).map Change.toEvent).toArray⟩ := by
  -- by the number of samples; one step is the frame of one more sample
  induction count with
  | zero => rfl
  | succ count ih =>
    have hstep : encodeInTurn p layout options (.start p) (List.range (count + 1))
        = (encodeInTurn p layout options (.start p) (List.range count)).push p
            (sampleTime options count) (frameAt p layout (sampleTime options count)) := by
      unfold encodeInTurn
      rw [List.range_succ, List.foldl_append]
      rfl
    rw [hstep, ih, Encoder.push]
    dsimp only
    rw [changes_eq_map_sampleChanges, List.range_succ, List.flatMap_append, List.flatMap_singleton,
      List.toArray_appendList]
    rfl

/-- The events are the changes, in their order. -/
theorem encodeEvents_eq_map (p : Project) (layout : Layout) (options : Options) :
    encodeEvents p layout options = (p.ledChanges layout options).map Change.toEvent := by
  rw [encodeEvents_eq, encodeInTurn_range]
  unfold Project.ledChanges
  rw [List.map_flatMap]
  rfl

/-! ### The order of the changes -/

/-- The suits are visited in the order of their places. -/
theorem pairwise_zipIdx {α : Type} (l : List α) : l.zipIdx.Pairwise fun a b => a.2 < b.2 := by
  have hplaces : (l.zipIdx.map Prod.snd).Pairwise (· < ·) := by
    rw [List.zipIdx_map_snd]
    exact List.pairwise_lt_range'
  exact List.pairwise_map.mp hplaces

/-- Changes at one sample come by suit, then by LED. -/
theorem pairwise_sampleChanges (p : Project) (layout : Layout) (options : Options) (sample : Nat) :
    (p.sampleChanges layout options sample).Pairwise Change.Precedes := by
  unfold Project.sampleChanges
  rw [List.pairwise_flatMap]
  constructor
  · -- within a suit
    rintro ⟨suit, position⟩ -
    rw [List.pairwise_filterMap]
    refine List.pairwise_lt_range.imp ?_
    intro led₁ led₂ hlt a ha b hb
    obtain ⟨-, rfl⟩ := ledChange?_eq_some_iff.mp ha
    obtain ⟨-, rfl⟩ := ledChange?_eq_some_iff.mp hb
    exact .inr ⟨rfl, .inr ⟨rfl, hlt⟩⟩
  · -- between suits
    refine (pairwise_zipIdx p.suits).imp ?_
    rintro suit₁ suit₂ hlt a ha b hb
    obtain ⟨led₁, -, ha⟩ := List.mem_filterMap.mp ha
    obtain ⟨led₂, -, hb⟩ := List.mem_filterMap.mp hb
    obtain ⟨-, rfl⟩ := ledChange?_eq_some_iff.mp ha
    obtain ⟨-, rfl⟩ := ledChange?_eq_some_iff.mp hb
    exact .inr ⟨rfl, .inl hlt⟩

/-- Changes at a sample have its time. -/
theorem time_of_mem_sampleChanges {sample : Nat} {c : Change}
    (h : c ∈ p.sampleChanges layout options sample) : c.time = sample * options.step.toNat := by
  obtain ⟨suit, -, -, hchange⟩ := mem_sampleChanges.mp h
  obtain ⟨-, hc⟩ := ledChange?_eq_some_iff.mp hchange
  rw [hc]

/-- All changes come by sample, then by suit, then by LED. -/
theorem pairwise_ledChanges (p : Project) (layout : Layout) (hstep : options.step ≠ 0) :
    (p.ledChanges layout options).Pairwise Change.Precedes := by
  have hpos := Options.toNat_step_pos hstep
  unfold Project.ledChanges
  rw [List.pairwise_flatMap]
  refine ⟨fun sample _ => pairwise_sampleChanges p layout options sample, ?_⟩
  refine List.pairwise_lt_range.imp ?_
  intro sample₁ sample₂ hlt a ha b hb
  rw [Change.Precedes, time_of_mem_sampleChanges ha, time_of_mem_sampleChanges hb]
  exact .inl (Nat.mul_lt_mul_of_pos_right hlt hpos)

/-- If no two suits have one id, the place of a change's suit is that of the first suit with the
    id. -/
theorem findIdx_of_mem_sampleChanges (hids : (p.suits.map (·.id)).Nodup) {sample : Nat}
    {c : Change} (h : c ∈ p.sampleChanges layout options sample) :
    p.suits.findIdx (·.id == c.suit) = c.position := by
  obtain ⟨suit, hsuit, -, hchange⟩ := mem_sampleChanges.mp h
  obtain ⟨-, hc⟩ := ledChange?_eq_some_iff.mp hchange
  have hid : c.suit = suit.id := by rw [hc]
  obtain ⟨hlt, hget⟩ := List.getElem?_eq_some_iff.mp hsuit
  rw [List.findIdx_eq hlt]
  constructor
  · rw [hget, hid]
    exact beq_self_eq_true _
  · -- an earlier suit with the id would be a second one
    intro j hj
    rw [beq_eq_false_iff_ne]
    intro hsame
    have hne := List.pairwise_iff_getElem.mp (List.pairwise_map.mp hids) j c.position
      (Nat.lt_trans hj hlt) hlt hj
    rw [hget, ← hid] at hne
    exact hne hsame

/-! ### The stream of a compiled show -/

/-- Events of changes come in the order of the changes, if no two suits have one id. -/
theorem precedes_toEvent (hids : (p.suits.map (·.id)).Nodup) {a b : Change}
    (ha : a ∈ p.ledChanges layout options) (hb : b ∈ p.ledChanges layout options)
    (h : a.Precedes b) : Event.Precedes p a.toEvent b.toEvent := by
  obtain ⟨sample₁, hs₁, ha⟩ := mem_ledChanges.mp ha
  obtain ⟨sample₂, hs₂, hb⟩ := mem_ledChanges.mp hb
  have hta := told_toEvent hs₁ ha
  have htb := told_toEvent hs₂ hb
  simp only [Event.told, Change.told, Prod.mk.injEq] at hta htb
  -- the events are compared by numbers that are those of the changes
  simp only [Event.Precedes, UInt32.lt_iff_toNat_lt, ← UInt32.toNat_inj, UInt16.lt_iff_toNat_lt,
    hta, htb]
  rw [findIdx_of_mem_sampleChanges hids ha, findIdx_of_mem_sampleChanges hids hb]
  exact h

/-- A show whose events are the changes of a project between samples. -/
structure Show.TellsChanges (s : Show) (p : Project) (layout : Layout) (options : Options) :
    Prop where
  /-- The events tell of all changes and of nothing else, in the order of the changes. -/
  told : s.events.map Event.told = (p.ledChanges layout options).map Change.told
  /-- The times at which the project is sampled are the multiples of the step. -/
  times : ∀ sample ≤ p.duration.toNat / options.step.toNat,
    (sampleTime options sample).toNat = sample * options.step.toNat
  /-- If no two suits have one id, the events come strictly by time, then by the place of the suit,
      then by LED. -/
  ordered : (p.suits.map (·.id)).Nodup → s.events.Pairwise (Event.Precedes p)

/-- **Exact content and order of the stream.** With options that pass the check, a project is
    compiled into a show whose events tell of the changes between samples. Times and indices are
    told as they are, for all of them fit into the fields of an event. -/
theorem compile_tellsChanges (p : Project) (layout : Layout) (options : Options)
    (hvalid : options.fault? = none) :
    ∃ s, p.compile layout options = .ok s ∧ s.TellsChanges p layout options := by
  obtain ⟨s, hs, -, hevents⟩ := compile_eq_ok p layout hvalid
  rw [encodeEvents_eq_map] at hevents
  refine ⟨s, hs, ?_, ?_, ?_⟩
  · rw [hevents, List.map_map]
    apply List.map_congr_left
    intro c hc
    obtain ⟨sample, hsample, hc⟩ := mem_ledChanges.mp hc
    exact told_toEvent hsample hc
  · intro sample hsample
    exact toNat_sampleTime (Nat.lt_succ_of_le hsample)
  · -- changes are found in their order, which their events inherit
    intro hids
    have hstep := (Options.fault?_eq_none_iff.mp hvalid).1
    rw [hevents, List.pairwise_map]
    refine (pairwise_ledChanges p layout hstep).imp_of_mem ?_
    intro a b ha hb h
    exact precedes_toEvent hids ha hb h

/-- The starter show with two cues, at a step that does not divide its length. -/
theorem compile_demo_tellsChanges :
    ∃ s, Project.demo.compile .standard { step := 70 } = .ok s
      ∧ s.TellsChanges Project.demo .standard { step := 70 } :=
  compile_tellsChanges Project.demo .standard { step := 70 } (by decide)

end LightShow
