import LightShow.Proofs.Compile.Influence

namespace LightShow

/-!
# Longer shows

A longer show is sampled at the times of the shorter one, and then later. Its encoder passes through
the state in which the encoder of the shorter show ends, whether or not the step divides the lengths.

* `Project.lasting` — a project with another length;
* `lt_sampleCount_iff` — the samples of a show are those at or before its end;
* `encodeEvents_lasting` — the events of a longer show are those of the shorter one, and later ones;
* `compile_lasting` — what is compiled for a longer show begins with what is compiled for the shorter.
-/

variable {p : Project} {layout : Layout} {options : Options}

/-- The project with another length. -/
def Project.lasting (p : Project) (duration : UInt32) : Project := { p with duration := duration }

/-! ### Samples -/

/-- A sample is taken exactly if it is not after the end of the show. -/
theorem lt_sampleCount_iff (hstep : options.step ≠ 0) {sample : Nat} :
    sample < sampleCount p options ↔ sample * options.step.toNat ≤ p.duration.toNat := by
  have hpos := Options.toNat_step_pos hstep
  unfold sampleCount
  rw [Nat.lt_succ_iff, Nat.le_div_iff_mul_le hpos]

/-- A longer show has all samples of a shorter one. -/
theorem sampleCount_lasting_le {short long : UInt32} (h : short ≤ long) :
    sampleCount (p.lasting short) options ≤ sampleCount (p.lasting long) options :=
  Nat.succ_le_succ (Nat.div_le_div_right (UInt32.le_iff_toNat_le.mp h))

/-- The events of a suit at a sample have its time. -/
theorem time_of_mem_suitEvents {sample : Nat} {suit : Suit} {e : Event}
    (h : e ∈ p.suitEvents layout options sample suit) : e.time = sampleTime options sample := by
  obtain ⟨led, -, hevent⟩ := List.mem_filterMap.mp h
  unfold Project.ledEvent? at hevent
  dsimp only at hevent
  split at hevent
  · cases hevent
  · cases hevent
    rfl

/-! ### Events -/

/-- **One show in the other.** The events of a longer show are those of the shorter one, all of them
    up to its end, and then events after its end. -/
theorem encodeEvents_lasting (p : Project) (layout : Layout) {short long : UInt32}
    (hle : short ≤ long) (hstep : options.step ≠ 0) :
    ∃ later, encodeEvents (p.lasting long) layout options
        = encodeEvents (p.lasting short) layout options ++ later
      ∧ (∀ e ∈ encodeEvents (p.lasting short) layout options, e.time ≤ short)
      ∧ ∀ e ∈ later, short < e.time := by
  -- what is sent at a sample does not depend on the length
  let sent (sample : Nat) : List Event := p.suits.flatMap (p.suitEvents layout options sample)
  have hsent : ∀ duration, encodeEvents (p.lasting duration) layout options
      = (List.range (sampleCount (p.lasting duration) options)).flatMap sent :=
    fun duration => encodeEvents_eq_suitEvents (p.lasting duration) layout options
  have htime : ∀ sample < sampleCount (p.lasting long) options, ∀ e ∈ sent sample,
      e.time.toNat = sample * options.step.toNat := by
    intro sample hsample e he
    obtain ⟨suit, -, he⟩ := List.mem_flatMap.mp he
    rw [time_of_mem_suitEvents he, toNat_sampleTime hsample]
  have hcount : sampleCount (p.lasting short) options ≤ sampleCount (p.lasting long) options :=
    sampleCount_lasting_le hle
  obtain ⟨more, hmore⟩ := Nat.exists_eq_add_of_le hcount
  refine ⟨((List.range more).map (sampleCount (p.lasting short) options + ·)).flatMap sent,
    ?_, ?_, ?_⟩
  · rw [hsent, hsent, hmore, List.range_add, List.flatMap_append]
  · intro e he
    rw [hsent, List.mem_flatMap] at he
    obtain ⟨sample, hsample, he⟩ := he
    have hin : sample < sampleCount (p.lasting short) options := List.mem_range.mp hsample
    rw [UInt32.le_iff_toNat_le, htime sample (Nat.lt_of_lt_of_le hin hcount) e he]
    exact (lt_sampleCount_iff hstep).mp hin
  · intro e he
    obtain ⟨sample, hsample, he⟩ := List.mem_flatMap.mp he
    obtain ⟨index, hindex, rfl⟩ := List.mem_map.mp hsample
    have hin := List.mem_range.mp hindex
    -- the sample is none of the shorter show
    have hout : ¬ sampleCount (p.lasting short) options + index
        < sampleCount (p.lasting short) options := by omega
    rw [lt_sampleCount_iff hstep, Nat.not_le] at hout
    rwa [UInt32.lt_iff_toNat_lt, htime _ (by omega) e he]

/-- **Lengthening a show only appends.** With options that pass the check, a project is compiled at
    two lengths, and the events of the shorter show are a prefix of those of the longer one: the
    events up to the end of the shorter show. -/
theorem compile_lasting (p : Project) (layout : Layout) (options : Options) {short long : UInt32}
    (hle : short ≤ long) (hvalid : options.fault? = none) :
    ∃ s t, (p.lasting short).compile layout options = .ok s
      ∧ (p.lasting long).compile layout options = .ok t
      ∧ s.events <+: t.events
      ∧ s.events = t.events.filter (·.time ≤ short) := by
  have hstep := (Options.fault?_eq_none_iff.mp hvalid).1
  obtain ⟨s, hs, -, hshort⟩ := compile_eq_ok (p.lasting short) layout hvalid
  obtain ⟨t, ht, -, hlong⟩ := compile_eq_ok (p.lasting long) layout hvalid
  obtain ⟨later, happend, hupTo, hafter⟩ := encodeEvents_lasting p layout hle hstep
  rw [← hshort, ← hlong] at happend
  rw [← hshort] at hupTo
  refine ⟨s, t, hs, ht, ⟨later, happend.symm⟩, ?_⟩
  -- all events up to the shorter end are in the prefix, and none behind it
  have hall : s.events.filter (·.time ≤ short) = s.events :=
    List.filter_eq_self.mpr fun e he => decide_eq_true (hupTo e he)
  have hnone : later.filter (·.time ≤ short) = [] :=
    List.filter_eq_nil_iff.mpr fun e he => by simpa using hafter e he
  rw [happend, List.filter_append, hall, hnone, List.append_nil]

/-- The step divides neither length, and the show goes on after the end of its cues. -/
theorem compile_ensemble_lasting :
    (65 : UInt32) ≤ 200
    ∧ ∃ s t, (ensemble.lasting 65).compile .standard { step := 30, parallel := true } = .ok s
      ∧ (ensemble.lasting 200).compile .standard { step := 30, parallel := true } = .ok t
      ∧ s.events <+: t.events
      ∧ s.events = t.events.filter (·.time ≤ 65) :=
  ⟨by decide, compile_lasting ensemble .standard _ (by decide) (by decide)⟩

end LightShow
