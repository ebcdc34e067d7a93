import LightShow.Project.Starter
import LightShow.Show.Basic

namespace LightShow

/-!
# Batches of samples

A show may be compiled in batches: the samples of a batch are resolved at the same time, and one
encoder takes the frames of batch after batch.

* `flatMap_batchSamples` — the batches hold every sample once, in order, whatever their size is;
* `add_batchSize_lt` — the end of a batch is computed within a machine word;
* `encodeInBatches_eq` — batches leave the encoder in the state in which single samples leave it;
* `compile_parallel_eq_sequential` — the show does not depend on how it was compiled.
-/

variable {p : Project} {layout : Layout} {options : Options}

/-! ### The samples of all batches -/

theorem Options.batchSize_pos (options : Options) : 0 < options.batchSize := by
  unfold batchSize
  omega

theorem Options.batchEnd_le (options : Options) (count first : Nat) :
    options.batchEnd count first ≤ count :=
  Nat.min_le_right _ _

/-- A batch that begins before the last sample holds at least one sample. -/
theorem Options.lt_batchEnd {count first : Nat} (h : first < count) :
    first < options.batchEnd count first := by
  have hsize := options.batchSize_pos
  unfold batchEnd
  omega

/-- **Every sample once, in order.** One batch after another, the samples are all samples from the
    first batch on. -/
theorem Options.flatMap_batchSamples_from (options : Options) (count first : Nat) :
    (options.batchStarts count first).flatMap (options.batchSamples count)
      = List.range' first (count - first) := by
  fun_induction Options.batchStarts options count first with
  | case1 first hlt ih =>
    have hnext : first < options.batchEnd count first := lt_batchEnd hlt
    have hend := options.batchEnd_le count first
    rw [List.flatMap_cons, ih, batchSamples]
    -- the next batch begins where this one ends, so that the two ranges join
    calc List.range' first (options.batchEnd count first - first)
          ++ List.range' (options.batchEnd count first) (count - options.batchEnd count first)
        = List.range' first (options.batchEnd count first - first)
          ++ List.range' (first + (options.batchEnd count first - first))
            (count - options.batchEnd count first) := by
          rw [Nat.add_sub_cancel' (Nat.le_of_lt hnext)]
      _ = List.range' first (count - first) := by
          rw [List.range'_append_1]
          congr 1
          omega
  | case2 first hge =>
    have hnone : count - first = 0 := by omega
    rw [hnone]
    rfl

theorem Options.flatMap_batchSamples (options : Options) (count : Nat) :
    (options.batchStarts count 0).flatMap (options.batchSamples count) = List.range count := by
  rw [flatMap_batchSamples_from, Nat.sub_zero, List.range_eq_range']

/-! ### Bounds of the batches -/

/-- Batches begin at samples. -/
theorem Options.lt_of_mem_batchStarts {count first start : Nat}
    (h : start ∈ options.batchStarts count first) : start < count := by
  fun_induction Options.batchStarts options count first with
  | case1 first hlt ih =>
    rcases List.mem_cons.mp h with rfl | h
    · exact hlt
    · exact ih h
  | case2 => simp at h

/-- All batches but the first begin at least one full batch later. -/
theorem Options.batchSize_le_of_mem_batchStarts {count first start : Nat}
    (h : start ∈ options.batchStarts count first) :
    start = first ∨ first + options.batchSize ≤ start := by
  fun_induction Options.batchStarts options count first with
  | case1 first hlt ih =>
    rcases List.mem_cons.mp h with rfl | h
    · exact .inl rfl
    · -- a batch that is cut short by the last sample has no batch after it
      have hstart := lt_of_mem_batchStarts h
      have hfull : options.batchEnd count first = min (first + options.batchSize) count := rfl
      refine .inr ?_
      rcases ih h with rfl | hlater <;> omega
  | case2 => simp at h

/-- There is at least one sample for each batch. -/
theorem Options.length_batchStarts_le (options : Options) (count first : Nat) :
    (options.batchStarts count first).length ≤ count - first := by
  fun_induction Options.batchStarts options count first with
  | case1 first hlt ih =>
    have hnext : first < options.batchEnd count first := lt_batchEnd hlt
    rw [List.length_cons]
    omega
  | case2 => simp

/-- There are at most as many samples as thirty-two bits have values. -/
theorem sampleCount_le (p : Project) (options : Options) : sampleCount p options ≤ UInt32.size := by
  have hquotient : p.duration.toNat / options.step.toNat ≤ p.duration.toNat := Nat.div_le_self _ _
  have hduration := p.duration.toNat_lt
  unfold sampleCount
  show _ ≤ 2 ^ 32
  omega

/-- **No overflow.** Where a batch begins, its end before it is cut to the number of samples fits
    into a machine word if the size of a batch does. -/
theorem Options.add_batchSize_lt {start : Nat} (hword : options.batch < UInt64.size)
    (h : start ∈ options.batchStarts (sampleCount p options) 0) :
    start + options.batchSize < UInt64.size := by
  have hstart : start < sampleCount p options := lt_of_mem_batchStarts h
  have hcount := sampleCount_le p options
  have hsize : options.batchSize = max options.batch 1 := rfl
  have h32 : UInt32.size = 4294967296 := rfl
  have h64 : UInt64.size = 18446744073709551616 := rfl
  rcases batchSize_le_of_mem_batchStarts h with rfl | hlater <;> omega

/-! ### The encoder after all batches -/

/-- Resolving samples at the same time changes nothing, since their frames are sent in order. -/
theorem encodeTogether_eq_encodeInTurn (encoder : Encoder) (samples : List Nat) :
    encodeTogether p layout options encoder samples
      = encodeInTurn p layout options encoder samples := by
  unfold encodeTogether encodeInTurn
  rw [List.foldl_map]
  rfl

/-- Batch after batch, the encoder takes the frames of all samples in turn. -/
theorem encodeInBatches_eq (encoder : Encoder) (count : Nat) :
    encodeInBatches p layout options encoder count
      = encodeInTurn p layout options encoder (List.range count) := by
  rw [← options.flatMap_batchSamples count]
  unfold encodeInBatches
  simp only [encodeTogether_eq_encodeInTurn]
  unfold encodeInTurn
  rw [List.foldl_flatMap]

/-- The events are those of all samples in turn, with and without batches. -/
theorem encodeEvents_eq (p : Project) (layout : Layout) (options : Options) :
    encodeEvents p layout options
      = (encodeInTurn p layout options (.start p) (List.range (sampleCount p options))).sent.toList
    := by
  unfold encodeEvents
  cases options.parallel with
  | false => rfl
  | true =>
    show (encodeInBatches p layout options (.start p) (sampleCount p options)).sent.toList = _
    rw [encodeInBatches_eq]

/-! ### Options that pass the check -/

/-- The check passes exactly the options with a step and without a thread count of zero. -/
theorem Options.fault?_eq_none_iff :
    options.fault? = none ↔ options.step ≠ 0 ∧ options.threads ≠ some 0 := by
  unfold fault?
  split <;> simp_all

/-- With options that pass the check, a project is compiled. -/
theorem compile_eq_ok (p : Project) (layout : Layout) (h : options.fault? = none) :
    ∃ s, p.compile layout options = .ok s ∧ s.project = p
      ∧ s.events = encodeEvents p layout options := by
  unfold Project.compile
  rw [h]
  exact ⟨_, rfl, rfl, rfl⟩

/-- What is counted for a compiled show. -/
theorem stats_of_compile {s : Show} (h : p.compile layout options = .ok s) :
    s.stats = ⟨sampleCount p options, sampleCount p options * p.ledTotal, s.events.length,
      p.orphanCues⟩ := by
  unfold Project.compile at h
  split at h
  · cases h
  · cases h
    rfl

/-! ### Parallel and sequential compilation -/

/-- The events do not depend on the way in which samples are resolved. -/
theorem encodeEvents_parallel (p : Project) (layout : Layout) (options : Options) :
    encodeEvents p layout { options with parallel := true }
      = encodeEvents p layout { options with parallel := false } := by
  rw [encodeEvents_eq, encodeEvents_eq]
  rfl

/-- **Parallel compilation agrees with sequential.** With a step, and with a thread count that is
    left out or at least one, compiling in batches of any size that fits into a machine word gives
    a show, with the project, the events and the counts of compiling sample after sample. There are
    at most as many batches as samples, and the end of a batch never leaves the machine word. -/
theorem compile_parallel_eq_sequential (p : Project) (layout : Layout) (options : Options)
    (hstep : options.step ≠ 0) (hthreads : options.threads ≠ some 0)
    (hword : options.batch < UInt64.size) :
    (∃ s, p.compile layout { options with parallel := true } = .ok s
      ∧ p.compile layout { options with parallel := false } = .ok s)
    ∧ (options.batchStarts (sampleCount p options) 0).length ≤ sampleCount p options
    ∧ ∀ start ∈ options.batchStarts (sampleCount p options) 0,
        start + options.batchSize < UInt64.size := by
  refine ⟨?_, options.length_batchStarts_le _ 0, fun start h => Options.add_batchSize_lt hword h⟩
  have hvalid : ∀ parallel, Options.fault? { options with parallel } = none := by
    intro parallel
    exact Options.fault?_eq_none_iff.mpr ⟨hstep, hthreads⟩
  obtain ⟨s, hs, -, -⟩ := compile_eq_ok p layout (hvalid true)
  refine ⟨s, hs, ?_⟩
  rw [← hs]
  unfold Project.compile
  rw [hvalid true, hvalid false, encodeEvents_parallel]
  rfl

/-- The starter show with two cues, in one batch of the greatest size. -/
theorem compile_demo_in_one_batch :
    let options : Options := { threads := some 3, batch := 18446744073709551615 }
    (∃ s, Project.demo.compile .standard { options with parallel := true } = .ok s
      ∧ Project.demo.compile .standard { options with parallel := false } = .ok s)
    ∧ (options.batchStarts (sampleCount Project.demo options) 0).length
      ≤ sampleCount Project.demo options
    ∧ ∀ start ∈ options.batchStarts (sampleCount Project.demo options) 0,
        start + options.batchSize < UInt64.size :=
  compile_parallel_eq_sequential Project.demo .standard _ (by decide) (by decide) (by decide)

end LightShow
