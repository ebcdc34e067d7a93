import LightShow.Lanes
import LightShow.Proofs.Double.Rank

namespace LightShow.Lanes

/-!
# Cues of one lane do not overlap

A lane only knows when its last cue is over. That this is enough for all cues of the lane is due to
the order in which they come: whatever was over when the last cue started is over when the next one
starts.

* `Records` — what a timeline keeps of the cues placed on it;
* `records_place`, `records_foldl_place` — one more cue, and all cues in the order of their starts;
* `assign_separates` — cues with the same lane follow each other, and the lanes in use are those
  below the number of lanes.
-/

/-- Whether a cue comes before another one in the total order of their starts. -/
def startsBefore (a b : Cue) : Bool := decide (a.startTime.rank ≤ b.startTime.rank)

/-! ### What a timeline keeps -/

/-- The last cue placed of those with a property, and its lane. -/
def lastPlaced? (p : Cue × Nat → Bool) (placed : List (Cue × Nat)) : Option (Cue × Nat) :=
  placed.reverse.find? p

/-- What a timeline keeps of the cues placed on it. They stand with their lanes, in the order in
    which they were placed. -/
structure Records (lanes : Lanes) (placed : List (Cue × Nat)) : Prop where
  /-- A lane is over when its last cue is. -/
  ends : ∀ lane, lanes.ends[lane]?
    = (lastPlaced? (·.2 == lane) placed).map (·.1.endTime)
  /-- A name stands for the lane of the last cue of that name. -/
  table : ∀ id, lanes.laneById.find? id = (lastPlaced? (·.1.id == id) placed).map (·.2)
  /-- Of two cues of one lane, the earlier one is over when the later one starts. -/
  separate : placed.Pairwise fun a b => a.2 = b.2 → a.1.endTime ≤ b.1.startTime.toFloat

theorem records_empty : Records empty [] where
  ends _ := rfl
  table _ := rfl
  separate := .nil

/-- The last cue that was placed decides, if it has the property. -/
theorem lastPlaced?_concat (p : Cue × Nat → Bool) (placed : List (Cue × Nat)) (e : Cue × Nat) :
    lastPlaced? p (placed ++ [e]) = if p e then some e else lastPlaced? p placed := by
  unfold lastPlaced?
  rw [List.reverse_concat, List.find?_cons]
  cases p e <;> rfl

/-- A lane is replaced or added at the end. -/
theorem getElem?_setEnd {ends : List Float} {lane : Nat} (h : lane ≤ ends.length) (time : Float)
    (other : Nat) :
    (setEnd ends lane time)[other]? = if lane = other then some time else ends[other]? := by
  unfold setEnd
  split
  · next hlt =>
    -- a lane that was there
    rw [List.getElem?_set]
    by_cases hother : lane = other
    · rw [if_pos hother, if_pos hother, if_pos (hother ▸ hlt)]
    · rw [if_neg hother, if_neg hother]
  · next hnlt =>
    -- the next lane, behind all others
    have hlast : lane = ends.length := Nat.le_antisymm h (Nat.not_lt.mp hnlt)
    rw [List.getElem?_append, List.getElem?_singleton]
    rcases Nat.lt_trichotomy other ends.length with hother | hother | hother
    · rw [if_pos hother, if_neg (by omega)]
    · rw [if_neg (by omega), if_pos (by omega), if_pos (by omega)]
    · rw [if_neg (by omega), if_neg (by omega), if_neg (by omega),
        List.getElem?_eq_none (by omega)]

/-- The first free lane is one of those that there are, or the next one. -/
theorem freeLane_le (ends : List Float) (time : Float) : freeLane ends time ≤ ends.length :=
  List.findIdx_le_length

/-- A lane that was there before is over. -/
theorem le_of_getElem?_freeLane {ends : List Float} {time stop : Float}
    (h : ends[freeLane ends time]? = some stop) : stop ≤ time := by
  obtain ⟨hlt, rfl⟩ := List.getElem?_eq_some_iff.mp h
  exact of_decide_eq_true (List.findIdx_getElem (w := hlt))

variable {lanes : Lanes} {placed : List (Cue × Nat)}

/-- The last cue with a property has it, and was placed. -/
theorem of_lastPlaced?_eq_some {p : Cue × Nat → Bool} {last : Cue × Nat}
    (h : lastPlaced? p placed = some last) : p last = true ∧ last ∈ placed :=
  ⟨List.find?_some h, List.mem_reverse.mp (List.mem_of_find?_eq_some h)⟩

/-- The last cue with a property comes behind all others that have it. -/
theorem sublist_of_lastPlaced? {p : Cue × Nat → Bool} {last e : Cue × Nat}
    (h : lastPlaced? p placed = some last) (he : e ∈ placed) (hp : p e = true) :
    e = last ∨ [e, last].Sublist placed := by
  -- the search goes from the last cue to the first one, so that `after` comes behind `last`
  obtain ⟨-, after, before, hsplit, hafter⟩ := List.find?_eq_some_iff_append.mp h
  have hmem : e ∈ after ++ last :: before := hsplit ▸ List.mem_reverse.mpr he
  rcases List.mem_append.mp hmem with hin | hin
  · have hnot := hafter e hin
    rw [hp] at hnot
    exact absurd hnot Bool.false_ne_true
  rcases List.mem_cons.mp hin with rfl | hin
  · exact .inl rfl
  · right
    have hpair : [last, e].Sublist (after ++ last :: before) :=
      ((List.singleton_sublist.mpr hin).cons_cons last).trans (List.sublist_append_right _ _)
    rw [← hsplit] at hpair
    exact List.reverse_sublist.mp (by simpa using hpair)

/-- If the last cue of a lane is over when a new one starts, then so are all cues of the lane. -/
theorem Records.endTime_le (h : Records lanes placed) {lane : Nat} {c : Cue}
    (hstop : ∀ stop, lanes.ends[lane]? = some stop → stop ≤ c.startTime.toFloat)
    (hstart : ∀ e ∈ placed, startsBefore e.1 c = true) {e : Cue × Nat} (he : e ∈ placed)
    (hlane : e.2 = lane) : e.1.endTime ≤ c.startTime.toFloat := by
  have hlast := h.ends lane
  cases hfind : lastPlaced? (·.2 == lane) placed with
  | none =>
    have hne := List.find?_eq_none.mp hfind e (List.mem_reverse.mpr he)
    exact absurd (beq_iff_eq.mpr hlane) hne
  | some last =>
    rw [hfind, Option.map_some] at hlast
    have hlastStop : last.1.endTime ≤ c.startTime.toFloat := hstop _ hlast
    obtain ⟨hlastLane, hmem⟩ := of_lastPlaced?_eq_some hfind
    rcases sublist_of_lastPlaced? hfind he (beq_iff_eq.mpr hlane) with rfl | hpair
    · exact hlastStop
    · -- what was over when the last cue started is over when a later one starts
      have hsame : e.2 = last.2 := hlane.trans (beq_iff_eq.mp hlastLane).symm
      have hlastStart : e.1.endTime ≤ last.1.startTime.toFloat :=
        List.rel_of_pairwise_cons (h.separate.sublist hpair) List.mem_cons_self hsame
      have hrank : last.1.startTime.rank ≤ c.startTime.rank := of_decide_eq_true (hstart last hmem)
      exact Double.le_of_le_of_rank_le hlastStart hlastStop hrank

/-- One more cue. It starts after all others in the total order, which is what its lane relies on. -/
theorem records_place (h : Records lanes placed) {c : Cue}
    (hstart : ∀ e ∈ placed, startsBefore e.1 c = true) :
    Records (lanes.place c) (placed ++ [(c, freeLane lanes.ends c.startTime.toFloat)]) where
  ends lane := by
    rw [lastPlaced?_concat, place, getElem?_setEnd (freeLane_le _ _), h.ends]
    by_cases hlane : freeLane lanes.ends c.startTime.toFloat = lane
    · rw [if_pos hlane, if_pos (beq_iff_eq.mpr hlane)]
      rfl
    · rw [if_neg hlane, if_neg (mt beq_iff_eq.mp hlane)]
  table id := by
    rw [lastPlaced?_concat, place, NameTable.find?_insert, h.table]
    by_cases hid : id = c.id
    · rw [if_pos hid, if_pos (beq_iff_eq.mpr hid.symm)]
      rfl
    · rw [if_neg hid, if_neg (mt beq_iff_eq.mp fun heq => hid heq.symm)]
  separate := by
    -- only the new cue comes behind others that were not checked before
    rw [List.pairwise_append]
    refine ⟨h.separate, List.pairwise_singleton _ _, ?_⟩
    intro e he new hnew hlane
    obtain rfl := List.mem_singleton.mp hnew
    exact h.endTime_le (fun stop => le_of_getElem?_freeLane) hstart he hlane

/-- Cues that come in the order of their starts are all kept, each with its lane. -/
theorem records_foldl_place {cues : List Cue}
    (h : cues.Pairwise fun a b => startsBefore a b = true) :
    ∃ placed, placed.map (·.1) = cues ∧ Records (cues.foldl place empty) placed := by
  -- by the last cue: all others are placed before it
  induction cues using List.reverseRecOn with
  | nil => exact ⟨[], rfl, records_empty⟩
  | append_singleton cues c ih =>
    obtain ⟨hcues, -, hlast⟩ := List.pairwise_append.mp h
    obtain ⟨placed, hplaced, hrecords⟩ := ih hcues
    have hstart : ∀ e ∈ placed, startsBefore e.1 c = true := fun e he =>
      hlast e.1 (hplaced ▸ List.mem_map_of_mem he) c List.mem_cons_self
    have hnext := records_place hrecords hstart
    have hfold : (cues ++ [c]).foldl place empty = (cues.foldl place empty).place c :=
      List.foldl_concat place empty c cues
    refine ⟨_, ?_, hfold ▸ hnext⟩
    rw [List.map_append, hplaced]
    rfl

/-! ### The order of placing -/

theorem startsBefore_trans (a b c : Cue) (hab : startsBefore a b = true)
    (hbc : startsBefore b c = true) : startsBefore a c = true :=
  decide_eq_true (Int.le_trans (of_decide_eq_true hab) (of_decide_eq_true hbc))

/-- Of two starts, one comes before the other one, even if they are no numbers. -/
theorem startsBefore_total (a b : Cue) : (startsBefore a b || startsBefore b a) = true := by
  unfold startsBefore
  rw [Bool.or_eq_true, decide_eq_true_eq, decide_eq_true_eq]
  exact Int.le_total _ _

/-- Cues are visited in the order of their starts. -/
theorem pairwise_byStart (cues : List Cue) :
    (byStart cues).Pairwise fun a b => startsBefore a b = true :=
  List.pairwise_mergeSort startsBefore_trans startsBefore_total cues

/-- All cues are visited, each one once. -/
theorem perm_byStart (cues : List Cue) : (byStart cues).Perm cues := List.mergeSort_perm cues _

/-- The timeline of a list of cues keeps what it must of them. -/
theorem records_assign (cues : List Cue) :
    ∃ placed, placed.map (·.1) = byStart cues ∧ Records (assign cues) placed :=
  records_foldl_place (pairwise_byStart cues)

/-- Two members of a list stand there in one order or the other. -/
theorem pair_sublist_or {α : Type} {a b : α} {l : List α} (ha : a ∈ l) (hb : b ∈ l) (hne : a ≠ b) :
    [a, b].Sublist l ∨ [b, a].Sublist l := by
  obtain ⟨before, after, rfl⟩ := List.append_of_mem ha
  rcases List.mem_append.mp hb with hin | hin
  · exact .inr ((List.singleton_sublist.mpr hin).append
      (List.singleton_sublist.mpr List.mem_cons_self))
  · have hin : b ∈ after := (List.mem_cons.mp hin).resolve_left hne.symm
    exact .inl (((List.singleton_sublist.mpr hin).cons_cons a).trans
      (List.sublist_append_right _ _))

/-- The members at two places of a list stand there in the order of their places. -/
theorem pair_sublist_of_lt {α : Type} {l : List α} {i j : Fin l.length} (h : i < j) :
    [l[i], l[j]].Sublist l := by
  have hmem : l[j] ∈ l.drop (i + 1) :=
    List.mem_drop_iff_getElem.mpr ⟨j - (i + 1), by omega, by
      simp only [Fin.getElem_fin]
      congr 1
      omega⟩
  have hpair : [l[i], l[j]].Sublist (l.drop i) := by
    rw [List.drop_eq_getElem_cons i.isLt]
    exact (List.singleton_sublist.mpr hmem).cons_cons _
  exact hpair.trans (List.drop_sublist _ _)

/-- A cue of a list is placed before another one: it starts earlier in the total order, or at the
    same time and stands in front of the other one. -/
def placedBefore (cues : List Cue) (i j : Fin cues.length) : Prop :=
  cues[i].startTime.rank < cues[j].startTime.rank
    ∨ (cues[i].startTime.rank = cues[j].startTime.rank ∧ i < j)

/-- A cue that is placed before another one is visited before it. -/
theorem sublist_byStart {cues : List Cue} {i j : Fin cues.length} (h : placedBefore cues i j) :
    [cues[i], cues[j]].Sublist (byStart cues) := by
  rcases h with hlt | ⟨heq, hij⟩
  · -- the other order would have the later start in front
    have hmem : ∀ k : Fin cues.length, cues[k] ∈ byStart cues := fun k =>
      (perm_byStart cues).mem_iff.mpr (List.getElem_mem k.isLt)
    have hne : cues[i] ≠ cues[j] := fun h => by rw [h] at hlt; omega
    refine (pair_sublist_or (hmem i) (hmem j) hne).resolve_right fun hpair => ?_
    have hle : startsBefore cues[j] cues[i] = true :=
      List.rel_of_pairwise_cons ((pairwise_byStart cues).sublist hpair) List.mem_cons_self
    exact absurd (of_decide_eq_true hle) (by omega)
  · -- cues that start together stay in their order
    exact List.pair_sublist_mergeSort startsBefore_trans startsBefore_total
      (decide_eq_true (Int.le_of_eq heq)) (pair_sublist_of_lt hij)

/-! ### Lanes of cues -/

/-- A cue is on one of the lanes that there are. -/
theorem Records.lane_lt (h : Records lanes placed) {e : Cue × Nat} (he : e ∈ placed) :
    e.2 < lanes.count := by
  by_contra hge
  have hnone : lanes.ends[e.2]? = none := List.getElem?_eq_none (Nat.not_lt.mp hge)
  rw [h.ends, Option.map_eq_none_iff] at hnone
  have hne := List.find?_eq_none.mp hnone e (List.mem_reverse.mpr he)
  exact hne (beq_self_eq_true e.2)

/-- Every lane has a cue on it, and is over when that cue is. -/
theorem Records.exists_mem (h : Records lanes placed) {lane : Nat} (hlane : lane < lanes.count) :
    ∃ e ∈ placed, e.2 = lane ∧ lanes.ends[lane]? = some e.1.endTime := by
  have hsome : lanes.ends[lane]? = some lanes.ends[lane] := List.getElem?_eq_getElem hlane
  rw [h.ends, Option.map_eq_some_iff] at hsome
  obtain ⟨e, hfind, -⟩ := hsome
  obtain ⟨heq, hmem⟩ := of_lastPlaced?_eq_some hfind
  exact ⟨e, hmem, beq_iff_eq.mp heq, by rw [h.ends, hfind, Option.map_some]⟩

/-- If no two cues have one name, every cue has the lane on which it was placed. -/
theorem Records.find?_id (h : Records lanes placed) (hids : (placed.map (·.1.id)).Nodup)
    {e : Cue × Nat} (he : e ∈ placed) : lanes.laneById.find? e.1.id = some e.2 := by
  rw [h.table]
  cases hfind : lastPlaced? (·.1.id == e.1.id) placed with
  | none =>
    have hne := List.find?_eq_none.mp hfind e (List.mem_reverse.mpr he)
    exact absurd (beq_self_eq_true e.1.id) hne
  | some last =>
    obtain ⟨hid, hmem⟩ := of_lastPlaced?_eq_some hfind
    rw [List.inj_on_of_nodup_map hids hmem he (beq_iff_eq.mp hid)]
    rfl

/-- A cue that is over when another one starts is not active at one time with it. -/
theorem not_active_of_endTime_le {a b : Cue} (h : a.endTime ≤ b.startTime.toFloat) (t : Float) :
    ¬ (a.isActiveAt t = true ∧ b.isActiveAt t = true) := by
  rintro ⟨ha, hb⟩
  unfold Cue.isActiveAt at ha hb
  simp only [Bool.and_eq_true, decide_eq_true_eq] at ha hb
  exact Double.not_le_of_lt (Double.lt_of_lt_of_le ha.2 h) hb.1.2

/-- **Lanes.** If no two cues have one name, then of two cues with the same lane the one that is
    placed first is over when the other one starts, whatever the starts and durations are: they may
    be zero, negative, infinite or no numbers. Every name has a lane below the number of lanes, and
    every one of these lanes is the lane of a cue. -/
theorem assign_separates {cues : List Cue} (hids : (cues.map (·.id)).Nodup) :
    (∀ i j, placedBefore cues i j →
      (assign cues).laneOf cues[i].id = (assign cues).laneOf cues[j].id →
        cues[i].endTime ≤ cues[j].startTime.toFloat
        ∧ ∀ t, ¬ (cues[i].isActiveAt t = true ∧ cues[j].isActiveAt t = true))
    ∧ (∀ c ∈ cues, ∃ lane < (assign cues).count,
        (assign cues).laneById.find? c.id = some lane)
    ∧ ∀ lane < (assign cues).count, ∃ c ∈ cues,
        (assign cues).laneById.find? c.id = some lane := by
  obtain ⟨placed, hplaced, hrecords⟩ := records_assign cues
  -- sorting changes neither the cues nor their names
  have hmem : ∀ c, c ∈ cues ↔ ∃ e ∈ placed, e.1 = c := by
    intro c
    rw [← (perm_byStart cues).mem_iff, ← hplaced, List.mem_map]
  have hplacedIds : (placed.map (·.1.id)).Nodup := by
    have hsplit : placed.map (·.1.id) = (byStart cues).map (·.id) := by
      rw [← hplaced, List.map_map]
      rfl
    exact hsplit ▸ ((perm_byStart cues).map (·.id)).nodup_iff.mpr hids
  -- so the table has the lanes on which the cues were placed
  have hlane : ∀ e ∈ placed, (assign cues).laneById.find? e.1.id = some e.2 := fun e he =>
    hrecords.find?_id hplacedIds he
  refine ⟨fun i j hbefore hsame => ?_, fun c hc => ?_, fun lane hlt => ?_⟩
  · have hseparate : (byStart cues).Pairwise fun a b =>
        (assign cues).laneOf a.id = (assign cues).laneOf b.id →
          a.endTime ≤ b.startTime.toFloat := by
      rw [← hplaced, List.pairwise_map]
      refine hrecords.separate.imp_of_mem fun {a b} ha hb hstop heq => hstop ?_
      unfold laneOf at heq
      rwa [hlane a ha, hlane b hb] at heq
    have hstop : cues[i].endTime ≤ cues[j].startTime.toFloat :=
      List.rel_of_pairwise_cons (hseparate.sublist (sublist_byStart hbefore)) List.mem_cons_self
        hsame
    exact ⟨hstop, not_active_of_endTime_le hstop⟩
  · obtain ⟨e, he, rfl⟩ := (hmem c).mp hc
    exact ⟨e.2, hrecords.lane_lt he, hlane e he⟩
  · obtain ⟨e, he, rfl, -⟩ := hrecords.exists_mem hlt
    exact ⟨e.1, (hmem e.1).mpr ⟨e, he, rfl⟩, hlane e he⟩

/-- A cue that starts at 200 and is over at -100. -/
def back : Cue := .plain "back" 3 .solid 200 (.ofFloat (-300)) .black 0 0

/-- Another cue that starts at 200. -/
def stay : Cue := .plain "stay" 3 .solid 200 50 .black 0 0

/-- A cue that starts at no number. -/
def lost : Cue := .plain "lost" 3 .solid (.ofFloat (0.0 / 0.0)) 5 .black 0 0

/-- A cue that starts at zero. -/
def start : Cue := .plain "start" 3 .solid 0 100 .black 0 0

/-- A cue that starts at the zero with a sign, and for no time. -/
def spark : Cue := .plain "spark" 3 .solid (.ofFloat (-0.0)) 0 .black 0 0

/-- The cues above, not in the order of their starts. -/
def ribbon : List Cue := [back, stay, lost, start, spark]

theorem byStart_ribbon : byStart ribbon = [spark, start, back, stay, lost] := by
  have hstay : back.startTime.rank ≤ stay.startTime.rank := by decide +kernel
  have hlost : back.startTime.rank ≤ lost.startTime.rank := by decide +kernel
  have hlost' : stay.startTime.rank ≤ lost.startTime.rank := by decide +kernel
  have hstart : ¬ back.startTime.rank ≤ start.startTime.rank := by decide +kernel
  have hspark : ¬ back.startTime.rank ≤ spark.startTime.rank := by decide +kernel
  have hspark' : ¬ start.startTime.rank ≤ spark.startTime.rank := by decide +kernel
  simp [byStart, ribbon, List.mergeSort, List.MergeSort.Internal.splitInTwo, hstay, hlost,
    hlost', hstart, hspark, hspark']

theorem assign_ribbon : assign ribbon = [spark, start, back, stay, lost].foldl place empty := by
  rw [assign, byStart_ribbon]

/-- What starts at no number stands alone, all others follow each other. Of the two cues that start
    at 200, the one in front is over before it starts. -/
theorem ribbon_assign_separates :
    (ribbon.map (·.id)).Nodup
    ∧ placedBefore ribbon ⟨4, by decide⟩ ⟨3, by decide⟩
    ∧ placedBefore ribbon ⟨0, by decide⟩ ⟨1, by decide⟩
    ∧ (∀ id ∈ ["spark", "start", "back", "stay"], (assign ribbon).laneOf id = 0)
    ∧ spark.endTime ≤ start.startTime.toFloat ∧ back.endTime ≤ stay.startTime.toFloat
    ∧ (∀ t, ¬ (back.isActiveAt t = true ∧ stay.isActiveAt t = true))
    ∧ (assign ribbon).count = 2
    ∧ (∃ c ∈ ribbon, (assign ribbon).laneById.find? c.id = some 1)
    ∧ (assign ribbon).laneOf "lost" = 1 := by
  have hids : (ribbon.map (·.id)).Nodup := by decide
  have hspark : placedBefore ribbon ⟨4, by decide⟩ ⟨3, by decide⟩ := .inl (by decide +kernel)
  have hback : placedBefore ribbon ⟨0, by decide⟩ ⟨1, by decide⟩ :=
    .inr ⟨by decide +kernel, by decide⟩
  have hlanes : ∀ id ∈ ["spark", "start", "back", "stay"], (assign ribbon).laneOf id = 0 := by
    rw [assign_ribbon]
    decide +kernel
  have hlost : (assign ribbon).laneOf "lost" = 1 := by
    rw [assign_ribbon]
    decide +kernel
  have hcount : (assign ribbon).count = 2 := by
    rw [assign_ribbon]
    decide +kernel
  obtain ⟨hseparate, -, hused⟩ := assign_separates hids
  have hfirst := hseparate _ _ hspark
    ((hlanes "spark" (by decide)).trans (hlanes "start" (by decide)).symm)
  have hlast := hseparate _ _ hback
    ((hlanes "back" (by decide)).trans (hlanes "stay" (by decide)).symm)
  exact ⟨hids, hspark, hback, hlanes, hfirst.1, hlast.1, hlast.2, hcount,
    hused 1 (by rw [hcount]; decide), hlost⟩

end LightShow.Lanes
