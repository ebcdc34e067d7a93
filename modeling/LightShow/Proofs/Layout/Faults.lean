import LightShow.Proofs.Layout.Check

namespace LightShow

/-!
# The first fault of a layout

The check goes through the segments from the front, compares each with the one before it, and stops
at the first fault. Here that is compared with what is asked of a segment and all those before it.

* `Segment.Offends` — what is wrong with a segment behind others: its name, else its end, else its
  numbers;
* `lastEnd?_filter_eq_none_iff`, `Segment.fault?_eq_some_iff` — behind ascending ends, the one before
  tells for all;
* `Layout.OffendsAt` — what is wrong with the segment at an index;
* `Layout.exists_of_faultFrom?_eq_some`, `Layout.faultFrom?_eq_some_iff` — the first fault;
* `Layout.ofSegments_classified` — which segments make a layout, and the error of all others.
-/

/-! ### A segment behind others -/

/-- What is wrong with a segment that comes behind others. -/
inductive Segment.Offends (before : List Segment) (s : Segment) : Fault → Prop where
  /-- The part has no name. -/
  | blankPart (hblank : ¬ s.IsNamed) : Offends before s .blankPart
  /-- There is a name, but one of the segments before this one does not end before it. The fault
      tells where the last of them ends. -/
  | unordered {previous : Segment} (hnamed : s.IsNamed)
      (hprevious : before.getLast? = some previous) (hunordered : ∃ t ∈ before, s.last ≤ t.last) :
      Offends before s (.unordered s.part previous.last)
  /-- There is a name and the end is in order, but not all numbers are finite. -/
  | nonFinite (hnamed : s.IsNamed) (hordered : ∀ t ∈ before, t.last < s.last)
      (hinfinite : ¬ s.IsFinite) : Offends before s (.nonFinite s.part)

/-- The end of the last one of some segments, if there is any. -/
def lastEnd? (segments : List Segment) : Option UInt16 := segments.getLast?.map (·.last)

/-- Behind one more segment, the last end is that of the others, or its own if there are none. -/
theorem lastEnd?_cons (s : Segment) (rest : List Segment) (previous : Option UInt16) :
    (lastEnd? (s :: rest)).or previous = (lastEnd? rest).or (some s.last) := by
  cases hlast : rest.getLast? <;> simp [lastEnd?, List.getLast?_cons, hlast]

section Ascending

variable {before : List Segment} (hascending : before.Pairwise (·.last < ·.last))
include hascending

/-- An index is behind the last end if it is behind all ends. -/
theorem lastEnd?_filter_eq_none_iff {i : UInt16} :
    (lastEnd? before).filter (i ≤ ·) = none ↔ ∀ t ∈ before, t.last < i := by
  simp only [lastEnd?, Option.filter_eq_none_iff, Option.map_eq_some_iff, decide_eq_true_eq,
    UInt16.not_le]
  constructor
  · intro h t ht
    obtain ⟨previous, hprevious⟩ : ∃ previous, before.getLast? = some previous :=
      Option.isSome_iff_exists.mp (by simp [List.ne_nil_of_mem ht])
    exact UInt16.lt_of_le_of_lt (Layout.last_le_of_getLast? hascending hprevious t ht)
      (h previous.last ⟨previous, hprevious, rfl⟩)
  · rintro h _ ⟨previous, hprevious, rfl⟩
    exact h previous (List.mem_of_getLast? hprevious)

/-- An index is not behind the last end if there is one that it is not behind. -/
theorem lastEnd?_filter_eq_some_iff {i p : UInt16} :
    (lastEnd? before).filter (i ≤ ·) = some p
      ↔ (∃ previous, before.getLast? = some previous ∧ previous.last = p)
        ∧ ∃ t ∈ before, i ≤ t.last := by
  simp only [lastEnd?, Option.filter_eq_some_iff, Option.map_eq_some_iff, decide_eq_true_eq]
  constructor
  · rintro ⟨⟨previous, hprevious, rfl⟩, hle⟩
    exact ⟨⟨previous, hprevious, rfl⟩, previous, List.mem_of_getLast? hprevious, hle⟩
  · rintro ⟨⟨previous, hprevious, rfl⟩, t, ht, hle⟩
    exact ⟨⟨previous, hprevious, rfl⟩,
      UInt16.le_trans hle (Layout.last_le_of_getLast? hascending hprevious t ht)⟩

/-- Behind segments that end later and later, a segment has the fault by which it offends. -/
theorem Segment.fault?_eq_some_iff {s : Segment} {fault : Fault} :
    s.fault? (lastEnd? before) = some fault ↔ s.Offends before fault := by
  constructor
  · -- the three checks, one after another
    intro h
    unfold fault? at h
    split at h
    · next hblank =>
      obtain rfl := Option.some.inj h
      exact .blankPart fun hnamed => by simp [isNamed_iff.mp hnamed] at hblank
    · next hnot =>
      have hnamed : s.IsNamed := isNamed_iff.mpr (Bool.eq_false_iff.mpr hnot)
      split at h
      · next p hp =>
        obtain rfl := Option.some.inj h
        obtain ⟨⟨previous, hprevious, rfl⟩, hunordered⟩ :=
          (lastEnd?_filter_eq_some_iff hascending).mp hp
        exact .unordered hnamed hprevious hunordered
      · next hp =>
        split at h
        · cases h
        · next hinfinite =>
          obtain rfl := Option.some.inj h
          refine .nonFinite hnamed ((lastEnd?_filter_eq_none_iff hascending).mp hp) fun hfinite => ?_
          exact hinfinite (by simpa using isFinite_iff.mp hfinite)
  · intro h
    cases h with
    | blankPart hblank =>
      rw [isNamed_iff, Bool.not_eq_false] at hblank
      simp [fault?, hblank]
    | unordered hnamed hprevious hunordered =>
      have hlate := (lastEnd?_filter_eq_some_iff hascending).mpr
        ⟨⟨_, hprevious, rfl⟩, hunordered⟩
      simp [fault?, isNamed_iff.mp hnamed, hlate]
    | nonFinite hnamed hordered hinfinite =>
      have hnone := (lastEnd?_filter_eq_none_iff hascending).mpr hordered
      rw [isFinite_iff] at hinfinite
      simp [fault?, isNamed_iff.mp hnamed, hnone, hinfinite]

end Ascending

namespace Layout

/-! ### The first segment that offends -/

/-- What is wrong with the segment at an index. -/
def OffendsAt (segments : List Segment) (i : Nat) (fault : Fault) : Prop :=
  ∃ s, segments[i]? = some s ∧ s.Offends (segments.take i) fault

theorem OffendsAt.lt_length {segments : List Segment} {i : Nat} {fault : Fault}
    (h : OffendsAt segments i fault) : i < segments.length := by
  obtain ⟨s, hs, -⟩ := h
  exact (List.getElem?_eq_some_iff.mp hs).1

/-- Whether a segment offends depends on the segments up to it. -/
theorem offendsAt_append {front back : List Segment} {i : Nat} (h : i < front.length)
    (fault : Fault) : OffendsAt (front ++ back) i fault ↔ OffendsAt front i fault := by
  unfold OffendsAt
  rw [List.getElem?_append_left h, List.take_append_of_le_length (Nat.le_of_lt h)]

/-- No segment offends among sound ones. -/
theorem IsSound.not_offendsAt {segments : List Segment} (h : IsSound segments) (i : Nat)
    (fault : Fault) : ¬ OffendsAt segments i fault := by
  rintro ⟨s, hs, hoffends⟩
  have hmem : s ∈ segments := List.mem_of_getElem? hs
  cases hoffends with
  | blankPart hblank => exact hblank (h.named s hmem)
  | unordered _ _ hunordered =>
    obtain ⟨t, ht, hle⟩ := hunordered
    have hbehind : s ∈ segments.drop i := List.mem_of_getElem? (i := 0) (by simpa using hs)
    have hascending := h.ascending
    rw [← List.take_append_drop i segments, List.pairwise_append] at hascending
    exact UInt16.not_le.mpr (hascending.2.2 t ht s hbehind) hle
  | nonFinite _ _ hinfinite => exact hinfinite (h.finite s hmem)

/-- Of two lists of segments, the second one is looked at if the first one has no fault. -/
theorem faultFrom?_append (previous : Option UInt16) (front back : List Segment) :
    faultFrom? previous (front ++ back)
      = (faultFrom? previous front).or (faultFrom? ((lastEnd? front).or previous) back) := by
  induction front generalizing previous with
  | nil => rfl
  | cons s rest ih =>
    rw [List.cons_append, faultFrom?, faultFrom?, ih, Option.or_assoc, lastEnd?_cons]

/-- If there is a fault, then some segments are without one, and the next one has it. -/
theorem exists_of_faultFrom?_eq_some {previous : Option UInt16} {segments : List Segment}
    {fault : Fault} (h : faultFrom? previous segments = some fault) :
    ∃ front s back, segments = front ++ s :: back ∧ faultFrom? previous front = none
      ∧ s.fault? ((lastEnd? front).or previous) = some fault := by
  induction segments generalizing previous with
  | nil => cases h
  | cons s rest ih =>
    rw [faultFrom?] at h
    cases hs : s.fault? previous with
    | some first =>
      rw [hs, Option.some_or] at h
      exact ⟨[], s, rest, rfl, rfl, hs.trans h⟩
    | none =>
      -- the fault comes later, and this segment is one more in front of it
      rw [hs, Option.none_or] at h
      obtain ⟨front, t, back, rfl, hfront, ht⟩ := ih h
      refine ⟨s :: front, t, back, rfl, ?_, ?_⟩
      · rw [faultFrom?, hs, hfront, Option.none_or]
      · rwa [lastEnd?_cons]

/-- A fault is that of a segment that offends, and no segment before that one does. -/
theorem exists_offendsAt {segments : List Segment} {fault : Fault}
    (h : faultFrom? none segments = some fault) :
    ∃ i, OffendsAt segments i fault ∧ ∀ j < i, ∀ other, ¬ OffendsAt segments j other := by
  obtain ⟨front, s, back, rfl, hnone, hs⟩ := exists_of_faultFrom?_eq_some h
  have hsound := faultFrom?_none_eq_none_iff.mp hnone
  rw [Option.or_none, Segment.fault?_eq_some_iff hsound.ascending] at hs
  refine ⟨front.length, ⟨s, by simp, by simpa using hs⟩, fun j hj other => ?_⟩
  rw [offendsAt_append hj]
  exact hsound.not_offendsAt j other

/-- **First fault.** The fault of some segments is that of the first one that offends. -/
theorem faultFrom?_eq_some_iff {segments : List Segment} {fault : Fault} :
    faultFrom? none segments = some fault
      ↔ ∃ i, OffendsAt segments i fault ∧ ∀ j < i, ∀ other, ¬ OffendsAt segments j other := by
  refine ⟨exists_offendsAt, ?_⟩
  rintro ⟨i, ⟨s, hs, hoffends⟩, hbefore⟩
  obtain ⟨hlt, hget⟩ := List.getElem?_eq_some_iff.mp hs
  have hsplit : segments = segments.take i ++ s :: segments.drop (i + 1) := by
    rw [← hget, ← List.drop_eq_getElem_cons hlt, List.take_append_drop]
  have hnone : faultFrom? none (segments.take i) = none := by
    -- a fault in front of the segment would be that of an earlier one
    cases hfront : faultFrom? none (segments.take i) with
    | none => rfl
    | some other =>
      obtain ⟨j, hj, -⟩ := exists_offendsAt hfront
      have hji : j < i := Nat.lt_of_lt_of_le hj.lt_length (List.length_take_le i segments)
      have hoffends : OffendsAt segments j other := by
        rw [hsplit, offendsAt_append hj.lt_length]
        exact hj
      exact absurd hoffends (hbefore j hji other)
  have hascending := (faultFrom?_none_eq_none_iff.mp hnone).ascending
  have hfault := (Segment.fault?_eq_some_iff hascending).mpr hoffends
  rw [hsplit, faultFrom?_append, hnone, Option.none_or, Option.or_none, faultFrom?, hfault,
    Option.some_or]

/-! ### Layouts -/

theorem ofSegments_eq {segments : List Segment} (h : segments ≠ []) :
    ofSegments segments = match faultFrom? none segments with
      | none => .ok ⟨segments⟩
      | some fault => .error (.invalid fault) := by
  have hfault : fault? ⟨segments⟩ = faultFrom? none segments := by simp [fault?, h]
  cases hfirst : faultFrom? none segments with
  | none =>
    rw [hfirst] at hfault
    simp only [ofSegments, check, hfault]
  | some fault =>
    rw [hfirst] at hfault
    simp only [ofSegments, check, hfault]

/-- **Checking.** Segments make a layout exactly if there are any and they are sound. Otherwise the
    error is that of the first segment that offends. -/
theorem ofSegments_classified (segments : List Segment) :
    (∀ layout, ofSegments segments = .ok layout
      ↔ layout = ⟨segments⟩ ∧ segments ≠ [] ∧ IsSound segments)
    ∧ (segments = [] → ofSegments segments = .error (.invalid .noSegments))
    ∧ (segments ≠ [] → ∀ e, ofSegments segments = .error e
        ↔ ∃ fault, e = .invalid fault ∧ ∃ i, OffendsAt segments i fault
          ∧ ∀ j < i, ∀ other, ¬ OffendsAt segments j other) := by
  by_cases hempty : segments = []
  · subst hempty
    refine ⟨fun layout => ?_, fun _ => rfl, fun hne => absurd rfl hne⟩
    simp [ofSegments, check, fault?]
  · refine ⟨fun layout => ?_, fun hnil => absurd hnil hempty, fun _ e => ?_⟩
    · rw [ofSegments_eq hempty, ← faultFrom?_none_eq_none_iff]
      cases faultFrom? none segments with
      | none => simp [hempty, eq_comm]
      | some fault => simp
    · simp only [ofSegments_eq hempty, ← faultFrom?_eq_some_iff]
      cases faultFrom? none segments with
      | none => simp
      | some fault => simp [eq_comm]

/-- Two faults in the second segment, of which the end counts, and one in the third. -/
def tattered : List Segment :=
  [⟨"brim", 9, .fixed 0, .pocket⟩,
    ⟨"band", 9, .ramp 0 (.ofMagnitude false Double.infinity), .pocket⟩,
    ⟨" \t", 4, .fixed 0, .offset .waist 0⟩]

theorem tattered_ofSegments_classified :
    tattered ≠ [] ∧ ofSegments tattered = .error (.invalid (.unordered "band" 9))
    ∧ ∃ i, OffendsAt tattered i (.unordered "band" 9)
      ∧ ∀ j < i, ∀ other, ¬ OffendsAt tattered j other := by
  have hne : tattered ≠ [] := by decide
  have hfault : faultFrom? none tattered = some (.unordered "band" 9) := by decide +kernel
  have herror : ofSegments tattered = .error (.invalid (.unordered "band" 9)) := by
    rw [ofSegments_eq hne, hfault]
  obtain ⟨fault, heq, hfirst⟩ := ((ofSegments_classified tattered).2.2 hne _).mp herror
  obtain rfl := ShowError.invalid.inj heq
  exact ⟨hne, herror, hfirst⟩

end Layout

end LightShow
