import LightShow.Proofs.Compile.Addresses
import LightShow.Proofs.Mixing

namespace LightShow

/-!
# What the events of a project depend on

* `Project.only` — the part of a project that has to do with the suits with an id;
* `filter_encodeEvents_only` — what these suits are sent is what that part alone is compiled into;
* `compile_only` — suits do not disturb each other;
* `compile_perm` — the order of the cues does not count.
-/

variable {p : Project} {layout : Layout} {options : Options}

/-! ### Suits apart from each other -/

/-- The part of a project that has to do with the suits with an id: these suits and the cues for
    them, in their orders. -/
def Project.only (p : Project) (id : UInt8) : Project :=
  { p with suits := p.suits.filter (·.id == id), cues := p.cuesFor id }

/-- The events for the suits with an id are those of their part of the project. -/
theorem filter_encodeEvents_only (p : Project) (layout : Layout) (options : Options)
    (id : UInt8) :
    (encodeEvents p layout options).filter (·.suit == id)
      = encodeEvents (p.only id) layout options := by
  -- first without the cues for other suits, then without the other suits
  let q : Project := { p with cues := p.cuesFor id }
  have hcolor : ∀ (suit : UInt8) (led : UInt16), (suit == id) = true → ∀ time,
      q.colorAt layout suit led time = p.colorAt layout suit led time := by
    intro suit led hsuit time
    rw [beq_iff_eq.mp hsuit]
    unfold Project.colorAt
    rw [activeCues_cuesFor]
  calc (encodeEvents p layout options).filter (·.suit == id)
      = (encodeEvents q layout options).filter (·.suit == id) :=
        (filter_encodeEvents_congr (p := p) (q := q) layout options (fun suit _ => suit == id) rfl rfl
          hcolor).symm
    _ = encodeEvents (p.only id) layout options :=
        filter_encodeEvents_suits q layout options (· == id)

/-- **Suits do not disturb each other.** With options that pass the check, the events for the suits
    with an id are, in the same order, the events of the show that their part of the project is
    compiled into. Projects with the same part for an id, whatever their other suits and cues are,
    send the same events to the suits with that id. -/
theorem compile_only (p : Project) (layout : Layout) (options : Options) (id : UInt8)
    (hvalid : options.fault? = none) :
    ∃ s, p.compile layout options = .ok s
      ∧ (∃ part, (p.only id).compile layout options = .ok part
          ∧ s.events.filter (·.suit == id) = part.events)
      ∧ ∀ q : Project, q.only id = p.only id →
          ∃ t, q.compile layout options = .ok t
            ∧ t.events.filter (·.suit == id) = s.events.filter (·.suit == id) := by
  obtain ⟨s, hs, -, hevents⟩ := compile_eq_ok p layout hvalid
  obtain ⟨part, hpart, -, hpartEvents⟩ := compile_eq_ok (p.only id) layout hvalid
  refine ⟨s, hs, ⟨part, hpart, ?_⟩, fun q hq => ?_⟩
  · rw [hevents, hpartEvents, filter_encodeEvents_only]
  · obtain ⟨t, ht, -, hothers⟩ := compile_eq_ok q layout hvalid
    refine ⟨t, ht, ?_⟩
    rw [hevents, hothers, filter_encodeEvents_only, filter_encodeEvents_only, hq]

/-- Two suits share an id, with another suit between them; one cue is for a suit that is missing. -/
def ensemble : Project where
  suits := [⟨3, "left", 2, .empty⟩, ⟨8, "middle", 5, .empty⟩, ⟨3, "right", 4, .empty⟩]
  cues := [.plain "red" 3 .solid 20 50 ⟨0xff, 0, 0⟩ 1 3, .plain "green" 8 .solid 0 70 ⟨0, 0xff, 0⟩ 0 4,
    .plain "blue" 3 .strobe 40 60 ⟨0, 0, 0xff⟩ 0 2, .plain "lost" 9 .solid 0 90 ⟨9, 9, 9⟩ 0 9]
  duration := 100
  version := Project.currentVersion

/-- The suits that share an id, apart from the suit between them. -/
theorem compile_ensemble_only :
    let options : Options := { step := 30, parallel := true }
    ∃ s, ensemble.compile .standard options = .ok s
      ∧ (∃ part, (ensemble.only 3).compile .standard options = .ok part
          ∧ s.events.filter (·.suit == 3) = part.events)
      ∧ ∀ q : Project, q.only 3 = ensemble.only 3 →
          ∃ t, q.compile .standard options = .ok t
            ∧ t.events.filter (·.suit == 3) = s.events.filter (·.suit == 3) :=
  compile_only ensemble .standard _ 3 (by decide)

/-! ### The order of the cues -/

/-- As many cues lack a suit, in whatever order they come. -/
theorem orphanCues_perm {cues : List Cue} (h : cues.Perm p.cues) :
    Project.orphanCues { p with cues := cues } = p.orphanCues :=
  h.countP_eq _

/-- The events of a project do not depend on the order of its cues. -/
theorem encodeEvents_perm {cues : List Cue} (h : cues.Perm p.cues) (layout : Layout)
    (options : Options) :
    encodeEvents { p with cues := cues } layout options = encodeEvents p layout options := by
  have hall := filter_encodeEvents_congr (p := p) (q := { p with cues := cues }) layout options
    (fun _ _ => true) rfl rfl fun suit led _ time => colorAt_perm h layout suit led time
  rwa [List.filter_true, List.filter_true] at hall

/-- **The order of the cues does not count.** With options that pass the check, a project is compiled
    into the same events and the same counts in whatever order its cues come, and every suit shows
    the same at every time. -/
theorem compile_perm (p : Project) {cues : List Cue} (hperm : cues.Perm p.cues) (layout : Layout)
    (options : Options) (hvalid : options.fault? = none) :
    (∃ s t, p.compile layout options = .ok s
      ∧ Project.compile { p with cues := cues } layout options = .ok t
      ∧ t.events = s.events ∧ t.stats = s.stats)
    ∧ ∀ (suit : Suit) (time : Float),
        suit.states layout cues time = suit.states layout p.cues time := by
  obtain ⟨s, hs, -, hsEvents⟩ := compile_eq_ok p layout hvalid
  obtain ⟨t, ht, -, htEvents⟩ := compile_eq_ok { p with cues := cues } layout hvalid
  have hevents : t.events = s.events := by rw [htEvents, hsEvents, encodeEvents_perm hperm]
  refine ⟨⟨s, t, hs, ht, hevents, ?_⟩, fun suit time => states_perm hperm suit layout time⟩
  rw [stats_of_compile hs, stats_of_compile ht, hevents, orphanCues_perm hperm]
  rfl

/-- The cues of a project the other way round. -/
theorem compile_ensemble_perm :
    let cues := ensemble.cues.reverse
    let options : Options := { step := 30 }
    (∃ s t, ensemble.compile .standard options = .ok s
      ∧ Project.compile { ensemble with cues := cues } .standard options = .ok t
      ∧ t.events = s.events ∧ t.stats = s.stats)
    ∧ ∀ (suit : Suit) (time : Float),
        suit.states .standard cues time = suit.states .standard ensemble.cues time :=
  compile_perm ensemble (List.reverse_perm _) .standard _ (by decide)

end LightShow
