import LightShow.Proofs.Lanes.Placement
import Mathlib

namespace LightShow.Lanes

/-!
# As many lanes as cues meet

Cues that are active at one time need different lanes, so no assignment gets along with fewer lanes
than the greatest number of cues that meet. Placing every cue in the lowest free lane needs no more:
a lane is only added when a cue meets the last cue of every other lane at its start.

* `depth` — how many cues meet at a time, counted in the list or by position (`depth_eq_card`);
* `Records.depth_le` — no more cues meet than there are lanes;
* `exists_count_le_depth` — at some time as many cues meet as there are lanes;
* `assign_optimal` — the number of lanes is the greatest number of cues that meet.
-/

/-- How many cues of a list are active at a time. -/
def depth (cues : List Cue) (time : Float) : Nat := cues.countP (·.isActiveAt time)

/-- Whether two cues of a list, which may be equal, are active at one time. -/
def Meets (cues : List Cue) (i j : Fin cues.length) : Prop :=
  ∃ time, (cues.get i).isActiveAt time = true ∧ (cues.get j).isActiveAt time = true

/-- Whether a cue is active at some time: it has a duration, and is over after its start. -/
def HasWindow (c : Cue) : Prop :=
  0.0 < c.duration.toFloat ∧ c.startTime.toFloat < c.endTime

/-- A cue that is active at some time is active from its start up to its end. -/
theorem isActiveAt_iff {c : Cue} (h : HasWindow c) (time : Float) :
    c.isActiveAt time = true ↔ c.startTime.toFloat ≤ time ∧ time < c.endTime := by
  simp [Cue.isActiveAt, h.1]

/-- In particular, it is active when it starts. -/
theorem isActiveAt_startTime {c : Cue} (h : HasWindow c) :
    c.isActiveAt c.startTime.toFloat = true :=
  (isActiveAt_iff h _).mpr ⟨Double.le_self_of_lt h.2, h.2⟩

/-! ### No more cues than lanes -/

variable {lanes : Lanes} {placed : List (Cue × Nat)}

/-- The lanes of the cues that are active at a time. -/
def lanesAt (placed : List (Cue × Nat)) (time : Float) : List Nat :=
  (placed.filter (·.1.isActiveAt time)).map (·.2)

/-- A lane is in use at a time if one of its cues is active. -/
theorem mem_lanesAt {time : Float} {lane : Nat} :
    lane ∈ lanesAt placed time ↔ ∃ e ∈ placed, e.1.isActiveAt time = true ∧ e.2 = lane := by
  simp only [lanesAt, List.mem_map, List.mem_filter, and_assoc]

/-- A lane is named for each cue that is active. -/
theorem length_lanesAt (placed : List (Cue × Nat)) (time : Float) :
    (lanesAt placed time).length = depth (placed.map (·.1)) time := by
  rw [lanesAt, depth, List.countP_map, List.length_map, List.countP_eq_length_filter]
  rfl

/-- Cues that are active at one time are in different lanes. -/
theorem Records.nodup_lanesAt (h : Records lanes placed) (time : Float) :
    (lanesAt placed time).Nodup := by
  rw [lanesAt, List.Nodup, List.pairwise_map]
  refine (h.separate.sublist List.filter_sublist).imp_of_mem fun {a b} ha hb hstop hlane => ?_
  exact not_active_of_endTime_le (hstop hlane) time
    ⟨(List.mem_filter.mp ha).2, (List.mem_filter.mp hb).2⟩

/-- No more cues are active at a time than there are lanes. -/
theorem Records.depth_le (h : Records lanes placed) (time : Float) :
    depth (placed.map (·.1)) time ≤ lanes.count := by
  have hsubset : lanesAt placed time ⊆ List.range lanes.count := by
    intro lane hlane
    obtain ⟨e, he, -, rfl⟩ := mem_lanesAt.mp hlane
    exact List.mem_range.mpr (h.lane_lt he)
  calc depth (placed.map (·.1)) time
      = (lanesAt placed time).length := (length_lanesAt placed time).symm
    _ ≤ (List.range lanes.count).length := ((h.nodup_lanesAt time).subperm hsubset).length_le
    _ = lanes.count := List.length_range

/-! ### As many cues as lanes -/

/-- A cue that finds no lane free meets the last cue of every lane when it starts. -/
theorem Records.count_le_depth (h : Records lanes placed) {c : Cue} (hc : HasWindow c)
    (hwindow : ∀ e ∈ placed, HasWindow e.1) (hstart : ∀ e ∈ placed, startsBefore e.1 c = true)
    (hfull : ∀ stop ∈ lanes.ends, ¬ stop ≤ c.startTime.toFloat) :
    lanes.count ≤ depth (placed.map (·.1)) c.startTime.toFloat := by
  -- every lane has a cue that is active at this start
  have hsubset : List.range lanes.count ⊆ lanesAt placed c.startTime.toFloat := by
    intro lane hlane
    obtain ⟨e, he, hlaneOf, hend⟩ := h.exists_mem (List.mem_range.mp hlane)
    have hafter : c.startTime.toFloat < e.1.endTime :=
      Double.lt_of_not_le (hwindow e he).2 hc.2 (hfull _ (List.mem_of_getElem? hend))
    have hbefore : e.1.startTime.toFloat ≤ c.startTime.toFloat :=
      Double.le_of_le_of_rank_le (Double.le_self_of_lt (hwindow e he).2)
        (Double.le_self_of_lt hc.2) (of_decide_eq_true (hstart e he))
    exact mem_lanesAt.mpr ⟨e, he, (isActiveAt_iff (hwindow e he) _).mpr ⟨hbefore, hafter⟩, hlaneOf⟩
  calc lanes.count
      = (List.range lanes.count).length := List.length_range.symm
    _ ≤ (lanesAt placed c.startTime.toFloat).length :=
        (List.nodup_range.subperm hsubset).length_le
    _ = depth (placed.map (·.1)) c.startTime.toFloat := length_lanesAt placed _

/-- One more cue adds to the depth where it is active. -/
theorem depth_concat (cues : List Cue) (c : Cue) (time : Float) :
    depth (cues ++ [c]) time = depth cues time + if c.isActiveAt time then 1 else 0 := by
  simp [depth, List.countP_append, List.countP_singleton]

/-- A cue takes a lane that is over, or a new one when none is over. -/
theorem count_place (lanes : Lanes) (c : Cue) :
    (lanes.place c).count = lanes.count
    ∨ ((lanes.place c).count = lanes.count + 1
        ∧ ∀ stop ∈ lanes.ends, ¬ stop ≤ c.startTime.toFloat) := by
  by_cases hfree : freeLane lanes.ends c.startTime.toFloat < lanes.ends.length
  · left
    simp [place, count, setEnd, hfree]
  · right
    refine ⟨by simp [place, count, setEnd, hfree], fun stop hstop hle => ?_⟩
    exact hfree (List.findIdx_lt_length_of_exists ⟨stop, hstop, decide_eq_true hle⟩)

/-- If every cue is active at some time, then as many cues are active at one time as there are
    lanes. -/
theorem exists_count_le_depth {cues : List Cue} (hwindow : ∀ c ∈ cues, HasWindow c)
    (h : cues.Pairwise fun a b => startsBefore a b = true) :
    ∃ time, (cues.foldl place empty).count ≤ depth cues time := by
  -- by the last cue, which may have opened the last lane
  induction cues using List.reverseRecOn with
  | nil => exact ⟨0.0, Nat.zero_le _⟩
  | append_singleton cues c ih =>
    obtain ⟨hcues, -, hlast⟩ := List.pairwise_append.mp h
    have hwindows : ∀ b ∈ cues, HasWindow b := fun b hb =>
      hwindow b (List.mem_append_left [c] hb)
    have hc : HasWindow c := hwindow c (List.mem_append_right cues List.mem_cons_self)
    rw [List.foldl_concat]
    rcases count_place (cues.foldl place empty) c with hcount | ⟨hcount, hfull⟩
    · obtain ⟨time, htime⟩ := ih hwindows hcues
      refine ⟨time, ?_⟩
      rw [hcount, depth_concat]
      exact Nat.le_add_right_of_le htime
    · -- a new lane: the cues of all other lanes are active at the start of this one
      obtain ⟨placed, rfl, hrecords⟩ := records_foldl_place hcues
      refine ⟨c.startTime.toFloat, ?_⟩
      rw [hcount, depth_concat, isActiveAt_startTime hc]
      refine Nat.succ_le_succ (hrecords.count_le_depth hc ?_ ?_ hfull)
      · exact fun e he => hwindows e.1 (List.mem_map_of_mem he)
      · exact fun e he => hlast e.1 (List.mem_map_of_mem he) c List.mem_cons_self

/-! ### Other assignments -/

theorem depth_perm {cues others : List Cue} (h : cues.Perm others) (time : Float) :
    depth cues time = depth others time :=
  h.countP_eq _

/-- The cues that are active at a time, by position. -/
theorem depth_eq_card (cues : List Cue) (time : Float) :
    depth cues time
      = (Finset.univ.filter fun i : Fin cues.length => (cues.get i).isActiveAt time = true).card := by
  unfold depth
  induction cues with
  | nil => rfl
  | cons c cues ih =>
    have hcard := Fin.card_filter_univ_succ
      fun i : Fin (cues.length + 1) => ((c :: cues).get i).isActiveAt time = true
    refine Eq.trans ?_ hcard.symm
    simp only [List.get_cons_zero, List.get_cons_succ']
    rw [List.countP_cons, ih]
    split <;> rfl

/-- An assignment that keeps cues that meet apart uses as many lanes as cues meet at any time. -/
theorem depth_le_card {cues : List Cue} {lane : Fin cues.length → Nat}
    (h : ∀ i j, i ≠ j → Meets cues i j → lane i ≠ lane j) (time : Float) :
    depth cues time ≤ (Finset.univ.image lane).card := by
  let met := Finset.univ.filter fun i : Fin cues.length => (cues.get i).isActiveAt time = true
  -- any two cues that are active at this time meet
  have hinj : Set.InjOn lane met := by
    intro i hi j hj hlane
    by_contra hne
    exact h i j hne ⟨time, (Finset.mem_filter.mp hi).2, (Finset.mem_filter.mp hj).2⟩ hlane
  calc depth cues time
      = met.card := depth_eq_card cues time
    _ = (met.image lane).card := (Finset.card_image_of_injOn hinj).symm
    _ ≤ (Finset.univ.image lane).card :=
        Finset.card_le_card (Finset.image_subset_image (Finset.filter_subset _ _))

/-- Two cues are active at one time exactly if two cues of the list meet. -/
theorem one_lt_depth_iff (cues : List Cue) :
    (∃ time, 1 < depth cues time) ↔ ∃ i j, i ≠ j ∧ Meets cues i j := by
  constructor
  · rintro ⟨time, htime⟩
    rw [depth_eq_card, Finset.one_lt_card_iff] at htime
    obtain ⟨i, j, hi, hj, hne⟩ := htime
    exact ⟨i, j, hne, time, (Finset.mem_filter.mp hi).2, (Finset.mem_filter.mp hj).2⟩
  · rintro ⟨i, j, hne, time, hi, hj⟩
    refine ⟨time, ?_⟩
    rw [depth_eq_card, Finset.one_lt_card_iff]
    exact ⟨i, j, Finset.mem_filter.mpr ⟨Finset.mem_univ i, hi⟩,
      Finset.mem_filter.mpr ⟨Finset.mem_univ j, hj⟩, hne⟩

/-- The number of lanes is the greatest depth. -/
theorem isGreatest_count {cues : List Cue} (h : ∀ c ∈ cues, HasWindow c) :
    IsGreatest (Set.range (depth cues)) (assign cues).count := by
  obtain ⟨placed, hplaced, hrecords⟩ := records_assign cues
  have hdepth : ∀ time, depth (byStart cues) time = depth cues time :=
    depth_perm (perm_byStart cues)
  have hle : ∀ time, depth cues time ≤ (assign cues).count := by
    intro time
    rw [← hdepth, ← hplaced]
    exact hrecords.depth_le time
  obtain ⟨time, htime⟩ := exists_count_le_depth
    (fun c hc => h c ((perm_byStart cues).mem_iff.mp hc)) (pairwise_byStart cues)
  constructor
  · exact ⟨time, Nat.le_antisymm (hle time) (hdepth time ▸ htime)⟩
  · rintro _ ⟨time, rfl⟩
    exact hle time

/-- **Depth.** If every cue of a list has a window, then the number of lanes is the greatest number of
    cues that are active at one time, no assignment that keeps cues apart that meet uses fewer lanes,
    and there are overlaps exactly if two cues of the list meet. -/
theorem assign_optimal {cues : List Cue}
    (h : ∀ c ∈ cues, 0.0 < c.duration.toFloat ∧ c.startTime.toFloat < c.endTime) :
    IsGreatest (Set.range fun time => cues.countP (·.isActiveAt time)) (assign cues).count
    ∧ (∀ lane : Fin cues.length → Nat, (∀ i j, i ≠ j → Meets cues i j → lane i ≠ lane j) →
        (assign cues).count ≤ (Finset.univ.image lane).card)
    ∧ ((assign cues).hasOverlaps = true ↔ ∃ i j, i ≠ j ∧ Meets cues i j) := by
  obtain ⟨⟨time, htime⟩, hbound⟩ := isGreatest_count h
  refine ⟨⟨⟨time, htime⟩, hbound⟩, fun lane hlane => ?_, ?_⟩
  · rw [← htime]
    exact depth_le_card hlane time
  · rw [← one_lt_depth_iff, hasOverlaps, decide_eq_true_eq]
    constructor
    · exact fun hlt => ⟨time, htime ▸ hlt⟩
    · exact fun ⟨other, hlt⟩ => Nat.lt_of_lt_of_le hlt (hbound ⟨other, rfl⟩)

/-- A cue from 0 to 100. -/
def dawn : Cue := .plain "dawn" 3 .solid 0 100 .black 0 0

/-- A cue from 50 to 150. -/
def noon : Cue := .plain "noon" 3 .solid 50 100 .black 0 0

/-- A cue that starts when the first one is over. -/
def dusk : Cue := .plain "dusk" 3 .solid 100 100 .black 0 0

/-- The cues above, the last one in front. -/
def banner : List Cue := [dusk, dawn, noon]

theorem byStart_banner : byStart banner = [dawn, noon, dusk] := by
  have hnoon : dawn.startTime.rank ≤ noon.startTime.rank := by decide +kernel
  have hdawn : ¬ dusk.startTime.rank ≤ dawn.startTime.rank := by decide +kernel
  have hdusk : ¬ dusk.startTime.rank ≤ noon.startTime.rank := by decide +kernel
  simp [byStart, banner, List.mergeSort, List.MergeSort.Internal.splitInTwo, hnoon, hdawn, hdusk]

/-- Two cues of the banner meet, and the outer two can share a lane. -/
theorem banner_assign_optimal :
    (∀ c ∈ banner, 0.0 < c.duration.toFloat ∧ c.startTime.toFloat < c.endTime)
    ∧ IsGreatest (Set.range fun time => banner.countP (·.isActiveAt time)) 2
    ∧ (∀ i j, i ≠ j → Meets banner i j → ![1, 1, 0] i ≠ ![1, 1, 0] j)
    ∧ 2 ≤ (Finset.univ.image ![1, 1, 0]).card
    ∧ (assign banner).hasOverlaps = true
    ∧ ∃ i j, i ≠ j ∧ Meets banner i j := by
  have hwindow : ∀ c ∈ banner, 0.0 < c.duration.toFloat ∧ c.startTime.toFloat < c.endTime := by
    decide +kernel
  have hcount : (assign banner).count = 2 := by
    rw [assign, byStart_banner]
    decide +kernel
  have hoverlaps : (assign banner).hasOverlaps = true := by
    rw [hasOverlaps, hcount]
    rfl
  -- one cue of the outer two starts when the other one is over
  have hshared : ∀ time, ¬ (dawn.isActiveAt time = true ∧ dusk.isActiveAt time = true) :=
    not_active_of_endTime_le (by decide +kernel)
  have hapart : ∀ i j : Fin 3, i ≠ j → Meets banner i j → ![1, 1, 0] i ≠ ![1, 1, 0] j := by
    have houter : ∀ i j : Fin 3, i ≠ j → ![1, 1, 0] i = ![1, 1, 0] j →
        (i = 0 ∧ j = 1) ∨ (i = 1 ∧ j = 0) := by decide
    rintro i j hne ⟨time, hi, hj⟩ hlane
    rcases houter i j hne hlane with ⟨rfl, rfl⟩ | ⟨rfl, rfl⟩
    · exact hshared time ⟨hj, hi⟩
    · exact hshared time ⟨hi, hj⟩
  obtain ⟨hgreatest, hleast, hmeet⟩ := assign_optimal hwindow
  rw [hcount] at hgreatest
  refine ⟨hwindow, hgreatest, hapart, ?_, hoverlaps, hmeet.mp hoverlaps⟩
  exact hcount ▸ hleast ![1, 1, 0] hapart

end LightShow.Lanes
