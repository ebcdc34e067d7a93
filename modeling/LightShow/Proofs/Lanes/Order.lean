import LightShow.Proofs.Double.Bits
import LightShow.Proofs.Lanes.Placement

namespace LightShow

/-!
# Lanes do not depend on the order of the list

Cues are placed in the order of their starts. Where no two cues start together, there is only one
such order, so that a list and its rearrangements are placed in the same way. This also decides
which of several cues of one name is placed last and gives the name its lane.

* `Double.rank_injective` — the total order tells all bit patterns apart;
* `Lanes.byStart_eq` — a rearrangement in which the starts ascend is the order of placing;
* `Lanes.assign_perm` — the lanes of a rearranged list.
-/

/-- The sign and the magnitude of a number can be read off its place in the total order. -/
theorem Double.rank_injective : Function.Injective rank := by
  intro a b h
  unfold rank at h
  have hparts : a.negative = b.negative ∧ a.magnitude = b.magnitude := by
    cases ha : a.negative <;> cases hb : b.negative <;>
      simp only [ha, hb, if_true, if_false, Bool.false_eq_true] at h
    · exact ⟨rfl, by omega⟩
    · omega
    · omega
    · exact ⟨rfl, by omega⟩
  rw [← ofMagnitude_magnitude a, ← ofMagnitude_magnitude b, hparts.1, hparts.2]

namespace Lanes

/-- Whether the starts of the cues ascend, so that no two of them are equal. -/
def Ascends (cues : List Cue) : Prop :=
  cues.Pairwise fun a b => a.startTime.rank < b.startTime.rank

instance (cues : List Cue) : Decidable (Ascends cues) :=
  inferInstanceAs (Decidable (cues.Pairwise _))

variable {cues others visited : List Cue}

/-- Cues of different starts are placed in ascending order. -/
theorem ascends_byStart (hstarts : (cues.map (·.startTime)).Nodup) : Ascends (byStart cues) := by
  have hnodup : ((byStart cues).map (·.startTime)).Nodup :=
    ((perm_byStart cues).map (·.startTime)).nodup_iff.mpr hstarts
  -- no cue starts later than one behind it, and none starts with it
  refine ((pairwise_byStart cues).and (List.pairwise_map.mp hnodup)).imp ?_
  intro a b ⟨hle, hne⟩
  have hrank : a.startTime.rank ≠ b.startTime.rank := fun heq => hne (Double.rank_injective heq)
  exact lt_of_le_of_ne (of_decide_eq_true hle) hrank

/-- Cues can be arranged in ascending order in one way only. -/
theorem byStart_eq (hperm : visited.Perm cues) (hascends : Ascends visited) :
    byStart cues = visited := by
  have hsorted : visited.Pairwise fun a b => startsBefore a b = true :=
    hascends.imp fun hlt => decide_eq_true (Int.le_of_lt hlt)
  have hnodup : (visited.map (·.startTime.rank)).Nodup :=
    List.pairwise_map.mpr (hascends.imp fun hlt => Int.ne_of_lt hlt)
  -- cues of one start are one cue
  have hantisymm : ∀ a b, a ∈ byStart cues → b ∈ visited → startsBefore a b = true →
      startsBefore b a = true → a = b := by
    intro a b ha hb hab hba
    have hrank : a.startTime.rank = b.startTime.rank :=
      Int.le_antisymm (of_decide_eq_true hab) (of_decide_eq_true hba)
    have hmem : a ∈ visited := hperm.mem_iff.mpr ((perm_byStart cues).mem_iff.mp ha)
    exact List.inj_on_of_nodup_map hnodup hmem hb hrank
  exact List.Perm.eq_of_pairwise hantisymm (pairwise_byStart cues) hsorted
    ((perm_byStart cues).trans hperm.symm)

theorem assign_eq_foldl (hperm : visited.Perm cues) (hascends : Ascends visited) :
    assign cues = visited.foldl place empty := by
  rw [assign, byStart_eq hperm hascends]

/-- **Order of the list.** If no two cues start together, a rearranged list gets the same lanes: as
    many of them, and the same one for every name, whether names are repeated or not. The cues are
    placed in the one order in which their starts ascend. -/
theorem assign_perm (hstarts : (cues.map (·.startTime)).Nodup) (hperm : others.Perm cues) :
    assign others = assign cues
    ∧ ∃ visited, visited.Perm cues ∧ Ascends visited
      ∧ assign others = visited.foldl place empty := by
  have hvisited := ascends_byStart hstarts
  have hothers : assign others = (byStart cues).foldl place empty :=
    assign_eq_foldl ((perm_byStart cues).trans hperm.symm) hvisited
  exact ⟨hothers, byStart cues, perm_byStart cues, hvisited, hothers⟩

/-- A cue that starts at 200. -/
def bow : Cue := .plain "bow" 3 .solid 200 50 .black 0 0

/-- A cue that starts at the zero with a sign. -/
def tie : Cue := .plain "tie" 3 .solid (.ofFloat (-0.0)) 300 .black 0 0

/-- Another cue of the same name, which starts at zero. -/
def tieAgain : Cue := .plain "tie" 3 .solid 0 100 .black 0 0

/-- A cue that starts at no number. -/
def knot : Cue := .plain "knot" 3 .solid (.ofFloat (0.0 / 0.0)) 1 .black 0 0

/-- The cues above, not in the order of their starts. -/
def garland : List Cue := [bow, tieAgain, knot, tie]

/-- Turned round, the list still has the cue at zero placed behind the one at the zero with a sign,
    beside which its name stands. -/
theorem garland_assign_perm :
    (garland.map (·.startTime)).Nodup ∧ garland.reverse.Perm garland
    ∧ assign garland.reverse = assign garland
    ∧ (assign garland.reverse).count = 3 ∧ (assign garland.reverse).laneOf "tie" = 1 := by
  have hstarts : (garland.map (·.startTime)).Nodup := by decide +kernel
  have hperm : garland.reverse.Perm garland := List.reverse_perm garland
  have hvisited : [tie, tieAgain, bow, knot].Perm garland := by decide +kernel
  have hplaced : assign garland = [tie, tieAgain, bow, knot].foldl place empty :=
    assign_eq_foldl hvisited (by decide +kernel)
  obtain ⟨hsame, -⟩ := assign_perm hstarts hperm
  refine ⟨hstarts, hperm, hsame, ?_, ?_⟩
  · rw [hsame, hplaced]
    decide +kernel
  · rw [hsame, hplaced]
    decide +kernel

end Lanes

end LightShow
