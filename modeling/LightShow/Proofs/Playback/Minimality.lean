import LightShow.Proofs.Playback.History
import LightShow.Proofs.Playback.Parity
import Mathlib.Data.List.Perm.Subperm

namespace LightShow

/-!
# No shorter stream shows the same

* `Event.address` — the LED that an event is for;
* `length_sampleEvents_le` — events of any kind that take lights from one sample to the next are at
  least as many as those that the compiler sends for the sample;
* `Player.visit` — a player at one sample after another;
* `compile_minimal` — a stream that shows the same as a compiled one at all samples has at least as
  many events.

An event for an LED whose color changes has to be played between two samples, and one event is for
one LED. The compiler sends exactly one event for such an LED, provided that no two suits have one
id: it sends the same event for each of them otherwise.
-/

variable {p : Project} {layout : Layout} {options : Options}

/-! ### One sample -/

/-- The LED that an event is for. -/
def Event.address (e : Event) : UInt8 × UInt16 := (e.suit, e.led)

/-- The events of a sample are for LEDs whose colors change. -/
theorem exists_suit_of_mem_sampleEvents {sample : Nat} {e : Event}
    (h : e ∈ p.sampleEvents layout options sample) :
    ∃ suit ∈ p.suits, e.suit = suit.id ∧ e.led.toNat < suit.ledCount.toNat
      ∧ p.colorAt layout suit.id e.led (sampleTime options sample)
        ≠ p.colorBefore layout options suit.id e.led sample := by
  obtain ⟨c, hc, rfl⟩ := List.mem_map.mp h
  obtain ⟨suit, hsuit, hled, hchange⟩ := mem_sampleChanges.mp hc
  obtain ⟨hnew, heq⟩ := ledChange?_eq_some_iff.mp hchange
  have hcount := suit.ledCount.toNat_lt
  have hcast : c.led.toUInt16.toNat = c.led :=
    UInt16.toNat_ofNat_of_lt' (show c.led < 2 ^ 16 by omega)
  refine ⟨suit, List.mem_of_getElem? hsuit, ?_, ?_, hnew⟩
  · show c.suit = suit.id
    rw [heq]
  · show c.led.toUInt16.toNat < suit.ledCount.toNat
    rwa [hcast]

/-- If no two suits have one id, no two events of a sample are for one LED. -/
theorem nodup_address_sampleEvents (hids : (p.suits.map (·.id)).Nodup) {sample : Nat}
    (hsample : sample < sampleCount p options) :
    ((p.sampleEvents layout options sample).map Event.address).Nodup := by
  unfold Project.sampleEvents
  rw [List.map_map, List.Nodup, List.pairwise_map]
  refine (pairwise_sampleChanges p layout options sample).imp_of_mem ?_
  intro a b ha hb hbefore hsame
  -- of two events for one LED at one time, neither comes before the other
  have hevents : Event.Precedes p a.toEvent b.toEvent := precedes_toEvent hids
    (mem_ledChanges.mpr ⟨sample, hsample, ha⟩) (mem_ledChanges.mpr ⟨sample, hsample, hb⟩) hbefore
  have htime : a.toEvent.time = b.toEvent.time := by
    unfold Change.toEvent
    rw [time_of_mem_sampleChanges ha, time_of_mem_sampleChanges hb]
  obtain ⟨hsuit, hled⟩ := Prod.mk.injEq _ _ _ _ ▸ hsame
  unfold Event.Precedes at hevents
  simp only [htime, hsuit, hled] at hevents
  rcases hevents with hlt | ⟨-, hlt | ⟨-, hlt⟩⟩
  · exact UInt32.lt_irrefl _ hlt
  · exact Nat.lt_irrefl _ hlt
  · exact UInt16.lt_irrefl _ hlt

/-- Events for other LEDs leave an LED as it is. -/
theorem Lights.color?_foldl_apply_of_forall_ne (lights : Lights) {events : List Event}
    {suit : UInt8} {led : UInt16} (h : ∀ e ∈ events, e.address ≠ (suit, led)) :
    (events.foldl Lights.apply lights).color? suit led = lights.color? suit led := by
  have hnone : lastEvent? events suit led = none := by
    rw [lastEvent?_eq_none_iff]
    rintro e he ⟨rfl, rfl⟩
    exact h e he rfl
  rw [Lights.color?_foldl_apply, hnone]
  exact Option.map_id'

/-- **One sample.** Events that take lights from one sample to the next are at least as many as
    those that the compiler sends for the sample. -/
theorem length_sampleEvents_le (hids : (p.suits.map (·.id)).Nodup) {sample : Nat}
    (hsample : sample < sampleCount p options) {lights : Lights} {events : List Event}
    (hbefore : lights.Follow p layout options sample)
    (hafter : (events.foldl Lights.apply lights).Follow p layout options (sample + 1)) :
    (p.sampleEvents layout options sample).length ≤ events.length := by
  have hsubset : (p.sampleEvents layout options sample).map Event.address
      ⊆ events.map Event.address := by
    intro address haddress
    obtain ⟨e, he, rfl⟩ := List.mem_map.mp haddress
    obtain ⟨suit, hsuit, hid, hled, hnew⟩ := exists_suit_of_mem_sampleEvents he
    refine Decidable.byContradiction fun hnone => hnew ?_
    -- without an event for the LED, its color is the one from before
    have hsame : (events.foldl Lights.apply lights).color? suit.id e.led
        = lights.color? suit.id e.led := by
      apply Lights.color?_foldl_apply_of_forall_ne
      intro other hother heq
      refine hnone (List.mem_map.mpr ⟨other, hother, ?_⟩)
      rw [heq, Event.address, hid]
    rw [hafter suit hsuit e.led hled, hbefore suit hsuit e.led hled] at hsame
    exact Option.some.inj hsame
  have hlength := ((nodup_address_sampleEvents hids hsample).subperm hsubset).length_le
  rwa [List.length_map, List.length_map] at hlength

/-! ### All samples -/

/-- The player after going to the times of the first samples, one after another. -/
def Player.visit (player : Player) (options : Options) (count : Nat) : Player :=
  ((List.range count).map (sampleTime options)).foldl Player.advance player

theorem Player.visit_succ (player : Player) (options : Options) (count : Nat) :
    player.visit options (count + 1)
      = (player.visit options count).advance (sampleTime options count) := by
  unfold Player.visit
  rw [List.range_succ, List.map_append, List.foldl_append]
  rfl

/-- At one sample after another, a player of a compiled show has the colors of the samples. -/
theorem follow_visit {s : Show} (hproject : s.project = p)
    (hevents : s.events = encodeEvents p layout options) (hstep : options.step ≠ 0) {sample : Nat}
    (hsample : sample < sampleCount p options) :
    ((Player.start s).visit options (sample + 1)).lights.Follow p layout options (sample + 1) := by
  have hmem : sampleTime options sample ∈ (List.range (sample + 1)).map (sampleTime options) :=
    List.mem_map_of_mem (List.mem_range.mpr (Nat.lt_succ_self sample))
  have hmax : ∀ t ∈ (List.range (sample + 1)).map (sampleTime options),
      t ≤ sampleTime options sample := by
    intro t ht
    obtain ⟨earlier, hearlier, rfl⟩ := List.mem_map.mp ht
    have hle : earlier ≤ sample := Nat.le_of_lt_succ (List.mem_range.mp hearlier)
    rw [UInt32.le_iff_toNat_le, toNat_sampleTime hsample,
      toNat_sampleTime (Nat.lt_of_le_of_lt hle hsample)]
    exact Nat.mul_le_mul_right _ hle
  unfold Player.visit
  rw [Player.foldl_advance hmem hmax]
  exact follow_advance_start hproject hevents hstep hsample

/-- **All samples.** A player that has the colors of the samples, one after another, has played at
    least as many events as the compiler sends for these samples. -/
theorem length_flatMap_sampleEvents_le (hids : (p.suits.map (·.id)).Nodup) {s : Show}
    (hproject : s.project = p) {count : Nat} (hcount : count ≤ sampleCount p options)
    (hfollow : ∀ sample < count,
      ((Player.start s).visit options (sample + 1)).lights.Follow p layout options (sample + 1)) :
    ((List.range count).flatMap (p.sampleEvents layout options)).length
      ≤ ((Player.start s).visit options count).cursor := by
  induction count with
  | zero => exact Nat.zero_le _
  | succ count ih =>
    have hearlier := ih (Nat.le_of_succ_le hcount) fun sample h =>
      hfollow sample (Nat.lt_succ_of_lt h)
    have hbefore : ((Player.start s).visit options count).lights.Follow p layout options count := by
      -- nothing is lit in front of the first sample
      cases count with
      | zero => exact hproject ▸ follow_dark s.project layout options
      | succ sample => exact hfollow sample (Nat.lt_succ_of_lt (Nat.lt_succ_self sample))
    have hafter := hfollow count (Nat.lt_succ_self count)
    rw [Player.visit_succ] at hafter ⊢
    have hstep := length_sampleEvents_le hids (Nat.lt_of_succ_le hcount) hbefore hafter
    rw [List.range_succ, List.flatMap_append, List.flatMap_singleton, List.length_append]
    exact Nat.add_le_add hearlier hstep

/-- Two shows look the same at the first samples: players that go from one sample to the next have
    the same colors at each of them. -/
def Show.LooksLike (other s : Show) (options : Options) (count : Nat) : Prop :=
  ∀ sample < count, ∀ (id : UInt8) (led : UInt16),
    ((Player.start other).visit options (sample + 1)).lights.color? id led
      = ((Player.start s).visit options (sample + 1)).lights.color? id led

/-- **Minimality.** With options that pass the check, a project in which no two suits have one id is
    compiled into a show with the fewest events: any stream for the project with which it looks the
    same at all samples has at least as many, whatever its order and its events are. -/
theorem compile_minimal (p : Project) (layout : Layout) (options : Options)
    (hvalid : options.fault? = none) (hids : (p.suits.map (·.id)).Nodup) :
    ∃ s, p.compile layout options = .ok s
      ∧ ∀ other : Show, other.project = p → other.LooksLike s options (sampleCount p options) →
        s.events.length ≤ other.events.length := by
  have hstep := (Options.fault?_eq_none_iff.mp hvalid).1
  obtain ⟨s, hs, hproject, hevents⟩ := compile_eq_ok p layout hvalid
  refine ⟨s, hs, fun other hother hsame => ?_⟩
  -- a stream that looks the same shows the colors of the samples, too
  have hfollow : ∀ sample < sampleCount p options,
      ((Player.start other).visit options (sample + 1)).lights.Follow p layout options
        (sample + 1) := by
    intro sample hsample suit hsuit led hled
    rw [hsame sample hsample]
    exact follow_visit hproject hevents hstep hsample suit hsuit led hled
  calc s.events.length
      = ((List.range (sampleCount p options)).flatMap (p.sampleEvents layout options)).length := by
        rw [hevents, encodeEvents_eq_flatMap]
    _ ≤ ((Player.start other).visit options (sampleCount p options)).cursor :=
        length_flatMap_sampleEvents_le hids hother (Nat.le_refl _) hfollow
    _ ≤ other.events.length := (Player.tracks_foldl_advance other _).cursor_le

/-- The starter show with two cues, at a step that does not divide its length. -/
theorem compile_demo_minimal :
    let options : Options := { step := 70, parallel := true }
    ∃ s, Project.demo.compile .standard options = .ok s
      ∧ ∀ other : Show, other.project = Project.demo →
        other.LooksLike s options (sampleCount Project.demo options) →
        s.events.length ≤ other.events.length :=
  compile_minimal Project.demo .standard _ (by decide) (by decide)

end LightShow
