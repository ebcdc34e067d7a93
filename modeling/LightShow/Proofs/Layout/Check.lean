import LightShow.Layout.Check

namespace LightShow

/-!
# What a checked layout keeps

* `Segment.IsNamed`, `Segment.IsFinite` — what is asked of one segment;
* `Layout.IsSound` — what is asked of all segments and of all pairs of them;
* `Segment.fault?_eq_none_iff` — a segment without a fault: a name, an end after the one before it,
  and finite numbers;
* `Layout.faultFrom?_eq_none_iff` — segments without a fault are the sound ones;
* `Layout.last_le_of_getLast?` — of ascending ends, that of the last segment is the greatest;
* `Layout.sound_of_check` — a checked layout has segments, and they are sound.
-/

/-! ### One segment -/

/-- The numbers that the rule holds. -/
def Across.numbers : Across → List Double
  | .fixed x => [x]
  | .ramp start delta => [start, delta]

@[inherit_doc Across.numbers] def Upright.numbers : Upright → List Double
  | .offset _ distance => [distance]
  | _ => []

namespace Segment

/-- The part of the segment has a name, which is not white space throughout. -/
def IsNamed (s : Segment) : Prop := ∃ c ∈ s.part.toList, isBlank c = false

/-- All numbers of the segment are finite. -/
def IsFinite (s : Segment) : Prop := ∀ x ∈ s.x.numbers ++ s.y.numbers, x.isFinite = true

/-- A segment is named if its part is not made of white space only. -/
theorem isNamed_iff {s : Segment} : s.IsNamed ↔ isAllBlank s.part.toList = false := by
  simp [IsNamed, isAllBlank]

theorem isFinite_iff {s : Segment} :
    s.IsFinite ↔ s.x.isFinite = true ∧ s.y.isFinite = true := by
  obtain ⟨part, last, x, y⟩ := s
  cases x <;> cases y <;>
    simp [IsFinite, Across.numbers, Upright.numbers, Across.isFinite, Upright.isFinite, and_assoc]

/-- A segment has no fault if its part has a name, if it ends after the segment before it, and if
    its numbers are finite. -/
theorem fault?_eq_none_iff {previous : Option UInt16} {s : Segment} :
    s.fault? previous = none
      ↔ s.IsNamed ∧ (∀ p ∈ previous, p < s.last) ∧ s.IsFinite := by
  have hlater : previous.filter (s.last ≤ ·) = none ↔ ∀ p ∈ previous, p < s.last := by
    simp [Option.filter_eq_none_iff, UInt16.not_le]
  rw [isNamed_iff, isFinite_iff, ← hlater]
  unfold fault?
  cases hblank : isAllBlank s.part.toList with
  | true => simp
  | false =>
    rw [if_neg Bool.false_ne_true]
    cases hprevious : previous.filter (s.last ≤ ·) with
    | some p => simp
    | none => simp

end Segment

namespace Layout

/-! ### All segments -/

/-- All segments have names, end later and later, and hold finite numbers only. -/
structure IsSound (segments : List Segment) : Prop where
  /-- No name is white space throughout. -/
  named : ∀ s ∈ segments, s.IsNamed
  /-- Each segment ends after all segments before it. -/
  ascending : segments.Pairwise (·.last < ·.last)
  /-- No number is an infinity or a NaN. -/
  finite : ∀ s ∈ segments, s.IsFinite

/-- The first segment of a sound table is sound by itself and ends before all others, which are
    sound too. -/
theorem isSound_cons {s : Segment} {rest : List Segment} :
    IsSound (s :: rest)
      ↔ s.IsNamed ∧ (∀ t ∈ rest, s.last < t.last) ∧ s.IsFinite ∧ IsSound rest := by
  constructor
  · intro h
    obtain ⟨hafter, hascending⟩ := List.pairwise_cons.mp h.ascending
    have hmem : ∀ t ∈ rest, t ∈ s :: rest := fun t ht => List.mem_cons_of_mem s ht
    exact ⟨h.named s List.mem_cons_self, hafter, h.finite s List.mem_cons_self,
      fun t ht => h.named t (hmem t ht), hascending, fun t ht => h.finite t (hmem t ht)⟩
  · rintro ⟨hnamed, hafter, hfinite, hrest⟩
    refine ⟨?_, .cons hafter hrest.ascending, ?_⟩
    · simpa using ⟨hnamed, hrest.named⟩
    · simpa using ⟨hfinite, hrest.finite⟩

/-- Segments have no fault exactly if they are sound and all end after what comes before them. -/
theorem faultFrom?_eq_none_iff {previous : Option UInt16} {segments : List Segment} :
    faultFrom? previous segments = none
      ↔ IsSound segments ∧ ∀ s ∈ segments, ∀ p ∈ previous, p < s.last := by
  induction segments generalizing previous with
  | nil => exact ⟨fun _ => ⟨⟨nofun, .nil, nofun⟩, nofun⟩, fun _ => rfl⟩
  | cons s rest ih =>
    rw [faultFrom?, Option.or_eq_none_iff, Segment.fault?_eq_none_iff, ih, isSound_cons]
    constructor
    · rintro ⟨⟨hnamed, hprevious, hfinite⟩, hrest, hnext⟩
      have hafter : ∀ t ∈ rest, s.last < t.last := fun t ht => hnext t ht s.last rfl
      refine ⟨⟨hnamed, hafter, hfinite, hrest⟩, fun t ht p hp => ?_⟩
      rcases List.mem_cons.mp ht with rfl | ht
      · exact hprevious p hp
      · exact UInt16.lt_trans (hprevious p hp) (hafter t ht)
    · rintro ⟨⟨hnamed, hafter, hfinite, hrest⟩, hprevious⟩
      refine ⟨⟨hnamed, hprevious s List.mem_cons_self, hfinite⟩, hrest, fun t ht p hp => ?_⟩
      rw [← Option.some.inj hp]
      exact hafter t ht

theorem faultFrom?_none_eq_none_iff {segments : List Segment} :
    faultFrom? none segments = none ↔ IsSound segments := by
  simp [faultFrom?_eq_none_iff]

/-- Of segments that end later and later, the last one ends last. -/
theorem last_le_of_getLast? {segments : List Segment} {previous : Segment}
    (hascending : segments.Pairwise (·.last < ·.last))
    (hprevious : segments.getLast? = some previous) : ∀ t ∈ segments, t.last ≤ previous.last := by
  obtain ⟨front, rfl⟩ := List.getLast?_eq_some_iff.mp hprevious
  rw [List.pairwise_append] at hascending
  intro t ht
  rcases List.mem_append.mp ht with hfront | hlast
  · exact UInt16.le_of_lt (hascending.2.2 t hfront previous List.mem_cons_self)
  · rw [List.mem_singleton.mp hlast]
    exact UInt16.le_refl _

/-- A layout passes the check if no fault is found. -/
theorem check_eq_ok_iff {layout : Layout} : layout.check = .ok layout ↔ layout.fault? = none := by
  unfold check
  cases layout.fault? with
  | none => simp
  | some fault => simp

/-- A checked layout has segments, and they are sound. -/
theorem sound_of_check {layout : Layout} (h : layout.check = .ok layout) :
    layout.segments ≠ [] ∧ IsSound layout.segments := by
  have hfault := check_eq_ok_iff.mp h
  unfold fault? at hfault
  split at hfault
  · cases hfault
  · next hne =>
    exact ⟨fun hnil => hne (List.isEmpty_iff.mpr hnil), faultFrom?_none_eq_none_iff.mp hfault⟩

end Layout

end LightShow
