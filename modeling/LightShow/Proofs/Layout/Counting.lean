import LightShow.Project.Starter
import LightShow.Proofs.Layout.Check
import Mathlib

namespace LightShow

/-!
# The number of LEDs of a layout

A checked layout cuts the indices from 0 up to its last end into runs, one for each segment. The
number of LEDs, the numbers of LEDs on the parts and the look-up of an LED's part all come from the
same ends; here they are shown to agree.

* `NameTable.total` — the sum of the numbers in a table;
* `Layout.countBelow` — how many LEDs below an index sit on a part, counted one by one;
* `Layout.Counted` — what the table of a layout's parts holds up to an index;
* `Layout.counted_addRun`, `Layout.counted_partCounts` — one more run, and all runs;
* `Layout.sizes_agree`, `Layout.find?_partCounts` — the sizes agree, in all and part by part.
-/

/-! ### Sums over a table -/

namespace NameTable

/-- The sum of the numbers in a table. -/
def total (table : NameTable UInt32) : Nat := (table.entries.map (·.2.toNat)).sum

theorem sum_put {entries : List (String × UInt32)} (h : entries.Pairwise (fun a b => a.1 < b.1))
    (name : String) (value : UInt32) :
    ((put name value entries).map (·.2.toNat)).sum + ((entries.lookup name).getD 0).toNat
      = (entries.map (·.2.toNat)).sum + value.toNat := by
  induction entries with
  | nil => simp [put]
  | cons entry rest ih =>
    obtain ⟨key, old⟩ := entry
    obtain ⟨hfirst, hrest⟩ := List.pairwise_cons.mp h
    simp only [put]
    split
    · next hlt =>
      -- the name comes before all others, so that it has no value yet
      have hne : (name == key) = false := beq_eq_false_iff_ne.mpr (String.ne_of_lt hlt)
      have hnone : rest.lookup name = none := by
        rw [List.lookup_eq_none_iff]
        intro e he
        exact bne_iff_ne.mpr (String.ne_of_lt (String.lt_trans hlt (hfirst e he)))
      rw [List.lookup_cons, hne, hnone]
      simp
      omega
    · split
      · next heq =>
        have heq : name = key := heq
        rw [List.lookup_cons, heq, beq_self_eq_true]
        simp
        omega
      · next hne =>
        have hne : name ≠ key := hne
        have hput := ih hrest
        rw [List.lookup_cons, beq_eq_false_iff_ne.mpr hne]
        simp only [List.map_cons, List.sum_cons]
        omega

/-- A new number takes the place of the old one in the sum. -/
theorem total_alter (table : NameTable UInt32) (name : String) (f : Option UInt32 → UInt32) :
    (table.alter name f).total + ((table.find? name).getD 0).toNat
      = table.total + (f (table.find? name)).toNat :=
  sum_put table.ascending name _

end NameTable

namespace Layout

/-! ### Runs -/

variable {layout : Layout}

/-- How many of the LEDs below an index sit on a part. -/
def countBelow (layout : Layout) (name : String) (stop : Nat) : Nat :=
  (List.range stop).countP fun led => layout.partAt led.toUInt16 = some name

/-- How many LEDs sit on a part, among all that sixteen bits can name. -/
def countOn (layout : Layout) (name : String) : Nat := layout.countBelow name 65536

/-- A run of LEDs of one part, counted at once. -/
theorem countBelow_add {part : Option String} {start n : Nat}
    (h : ∀ led, start ≤ led → led < start + n → layout.partAt led.toUInt16 = part)
    (name : String) :
    layout.countBelow name (start + n)
      = layout.countBelow name start + if part = some name then n else 0 := by
  have hrun : ∀ k ∈ List.range n,
      (decide (layout.partAt (start + k).toUInt16 = some name)) = decide (part = some name) := by
    intro k hk
    rw [h (start + k) (Nat.le_add_right _ _) (by have := List.mem_range.mp hk; omega)]
  unfold countBelow
  rw [List.range_add, List.countP_append, List.countP_map]
  refine congrArg _ ?_
  rw [Function.comp_def, List.countP_congr (fun k hk => by rw [hrun k hk])]
  by_cases hpart : part = some name
  · simp [hpart]
  · simp [hpart]

/-- What the table of the parts holds of the LEDs below an index. -/
structure Counted (layout : Layout) (table : NameTable UInt32) (stop : Nat) : Prop where
  /-- A part has its number of LEDs, if it has any. -/
  find? : ∀ name, table.find? name
    = if layout.countBelow name stop = 0 then none
      else some (UInt32.ofNat (layout.countBelow name stop))
  /-- Every LED is on one part. -/
  total : table.total = stop

theorem countBelow_le (layout : Layout) (name : String) (stop : Nat) :
    layout.countBelow name stop ≤ stop := by
  have h : layout.countBelow name stop ≤ (List.range stop).length := List.countP_le_length
  rwa [List.length_range] at h

/-- The number that the table gives for a part, zero if it gives none. -/
theorem Counted.getD_find? {table : NameTable UInt32} {stop : Nat}
    (h : layout.Counted table stop) (name : String) :
    (table.find? name).getD 0 = UInt32.ofNat (layout.countBelow name stop) := by
  rw [h.find?]
  split
  · next hzero => rw [hzero]; rfl
  · rfl

/-- Counts one more run. -/
def addRun (table : NameTable UInt32) (entry : Nat × Segment) : NameTable UInt32 :=
  table.alter entry.2.part fun old =>
    old.getD 0 + (entry.2.last.toUInt32 + 1 - UInt32.ofNat entry.1)

/-- The length of a run that does not end before it begins. -/
theorem runLength_eq {first : Nat} {last : UInt16} (h : first ≤ last.toNat) :
    last.toUInt32 + 1 - UInt32.ofNat first = UInt32.ofNat (last.toNat + 1 - first) := by
  have hstop : UInt32.ofNat (last.toNat + 1) = last.toUInt32 + 1 := by
    rw [UInt32.ofNat_add, UInt32.ofNat_uInt16ToNat]
    rfl
  rw [← hstop, UInt32.ofNat_sub (Nat.le_succ_of_le h)]

/-- **One run.** A segment whose LEDs all sit on its part is counted right. -/
theorem counted_addRun {table : NameTable UInt32} {first : Nat} {s : Segment}
    (h : layout.Counted table first) (hfirst : first ≤ s.last.toNat)
    (hrun : ∀ led, first ≤ led → led ≤ s.last.toNat → layout.partAt led.toUInt16 = some s.part) :
    layout.Counted (addRun table (first, s)) (s.last.toNat + 1) := by
  have hlast : s.last.toNat < 65536 := s.last.toNat_lt
  have hlength : first + (s.last.toNat + 1 - first) = s.last.toNat + 1 := by omega
  have hcount : ∀ name, layout.countBelow name (s.last.toNat + 1)
      = layout.countBelow name first
        + if some s.part = some name then s.last.toNat + 1 - first else 0 := by
    intro name
    have hadd := countBelow_add (fun led hled hlt => hrun led hled (by omega)) name
      (n := s.last.toNat + 1 - first)
    rwa [hlength] at hadd
  have hnew : (table.find? s.part).getD 0 + (s.last.toUInt32 + 1 - UInt32.ofNat first)
      = UInt32.ofNat (layout.countBelow s.part (s.last.toNat + 1)) := by
    rw [h.getD_find?, runLength_eq hfirst, hcount, if_pos rfl, UInt32.ofNat_add]
  constructor
  · intro name
    unfold addRun NameTable.alter
    rw [NameTable.find?_insert]
    by_cases hname : name = s.part
    · subst hname
      have hpos : layout.countBelow s.part (s.last.toNat + 1) ≠ 0 := by
        rw [hcount, if_pos rfl]
        omega
      rw [if_pos rfl, if_neg hpos]
      exact congrArg some hnew
    · have hother : ¬ some s.part = some name := fun heq => hname (Option.some.inj heq).symm
      rw [if_neg hname, h.find?, hcount, if_neg hother, Nat.add_zero]
  · -- no number overflows, since a part has at most as many LEDs as there are below the index
    have hold := countBelow_le layout s.part first
    have hall := countBelow_le layout s.part (s.last.toNat + 1)
    have hsum := NameTable.total_alter table s.part
      fun old => old.getD 0 + (s.last.toUInt32 + 1 - UInt32.ofNat first)
    rw [hnew, h.getD_find?, UInt32.toNat_ofNat_of_lt' (by show _ < 4294967296; omega),
      UInt32.toNat_ofNat_of_lt' (by show _ < 4294967296; omega), hcount, if_pos rfl,
      h.total] at hsum
    show (addRun table (first, s)).total = _
    unfold addRun
    dsimp only at hsum ⊢
    omega

/-! ### All runs -/

/-- Segments with the index of their first LED, from some segment on. -/
def startsFrom (first : Nat) (segments : List Segment) : List (Nat × Segment) :=
  (first :: segments.map (·.last.toNat + 1)).zip segments

/-- The parts are counted run by run. -/
theorem partCounts_eq (layout : Layout) :
    layout.partCounts = (startsFrom 0 layout.segments).foldl addRun .empty := rfl

/-- The index behind the last LED of some segments. -/
def stopOf (first : Nat) (segments : List Segment) : Nat :=
  (segments.getLast?.map (·.last.toNat + 1)).getD first

theorem stopOf_cons (first : Nat) (s : Segment) (rest : List Segment) :
    stopOf first (s :: rest) = stopOf (s.last.toNat + 1) rest := by
  unfold stopOf
  rw [List.getLast?_cons]
  cases rest.getLast? <;> rfl

/-- **All runs.** If the segments from some index on are looked up one after another, then they are
    counted right, and the LEDs behind the last one are in no segment. -/
theorem counted_foldl_addRun {segments : List Segment} {first : Nat} {table : NameTable UInt32}
    (h : layout.Counted table first) (hascending : segments.Pairwise (·.last < ·.last))
    (hafter : ∀ s ∈ segments, first ≤ s.last.toNat)
    (hlocate : ∀ led : UInt16, first ≤ led.toNat →
      layout.locate led = locateFrom led first segments) :
    layout.Counted ((startsFrom first segments).foldl addRun table) (stopOf first segments)
    ∧ ∀ led : UInt16, first ≤ led.toNat →
        ((layout.partAt led).isSome ↔ led.toNat < stopOf first segments) := by
  induction segments generalizing first table with
  | nil =>
    refine ⟨h, fun led hled => ?_⟩
    unfold partAt
    rw [hlocate led hled]
    simpa [locateFrom, stopOf] using hled
  | cons s rest ih =>
    obtain ⟨hnext, hrest⟩ := List.pairwise_cons.mp hascending
    have hfirst : first ≤ s.last.toNat := hafter s List.mem_cons_self
    have hpart : ∀ led : UInt16, first ≤ led.toNat → led ≤ s.last →
        layout.partAt led = some s.part := by
      intro led hled hle
      unfold partAt
      rw [hlocate led hled, locateFrom, if_pos hle]
      rfl
    have hbehind : ∀ led : UInt16, s.last.toNat + 1 ≤ led.toNat →
        layout.locate led = locateFrom led (s.last.toNat + 1) rest := by
      intro led hled
      have hnle : ¬ led ≤ s.last := by
        rw [UInt16.le_iff_toNat_le]
        omega
      rw [hlocate led (by omega), locateFrom, if_neg hnle]
    have hcounted : layout.Counted (addRun table (first, s)) (s.last.toNat + 1) := by
      refine counted_addRun h hfirst fun led hled hle => ?_
      have hlast := s.last.toNat_lt
      have hcast : led.toUInt16.toNat = led := UInt16.toNat_ofNat_of_lt' (by show led < 65536; omega)
      refine hpart _ ?_ (UInt16.le_iff_toNat_le.mpr ?_)
      · rwa [hcast]
      · rwa [hcast]
    obtain ⟨hall, hsome⟩ := ih hcounted hrest
      (fun t ht => UInt16.lt_iff_toNat_lt.mp (hnext t ht)) hbehind
    rw [stopOf_cons]
    refine ⟨hall, fun led hled => ?_⟩
    by_cases hle : led ≤ s.last
    · -- an LED of the first run
      have hstop : s.last.toNat + 1 ≤ stopOf (s.last.toNat + 1) rest := by
        unfold stopOf
        cases hlast : rest.getLast? with
        | none => exact Nat.le_refl _
        | some t =>
          have := UInt16.lt_iff_toNat_lt.mp (hnext t (List.mem_of_getLast? hlast))
          show _ ≤ t.last.toNat + 1
          omega
      have := UInt16.le_iff_toNat_le.mp hle
      rw [hpart led hled hle]
      simp
      omega
    · exact hsome led (by rw [UInt16.le_iff_toNat_le] at hle; omega)

theorem counted_empty (layout : Layout) : layout.Counted .empty 0 where
  find? _ := rfl
  total := rfl

/-- The parts of a checked layout are counted right, and its LEDs are those up to its last end. -/
theorem counted_partCounts (h : layout.check = .ok layout) :
    layout.Counted layout.partCounts (stopOf 0 layout.segments)
    ∧ ∀ led, (layout.partAt led).isSome ↔ led.toNat < stopOf 0 layout.segments := by
  obtain ⟨hcounted, hsome⟩ := counted_foldl_addRun (counted_empty layout)
    (sound_of_check h).2.ascending
    (fun _ _ => Nat.zero_le _) (fun _ _ => rfl)
  rw [partCounts_eq]
  exact ⟨hcounted, fun led => hsome led (Nat.zero_le _)⟩

/-- The number of LEDs is the index behind the last one, as far as sixteen bits can tell it. -/
theorem toNat_ledCount (layout : Layout) :
    layout.ledCount.toNat = min (stopOf 0 layout.segments) 65535 := by
  unfold ledCount stopOf
  cases layout.segments.getLast? with
  | none => rfl
  | some s =>
    show (UInt16.ofNat (min (s.last.toNat + 1) 65535)).toNat = min (s.last.toNat + 1) 65535
    exact UInt16.toNat_ofNat_of_lt' (by show _ < 65536; omega)

/-- The last segment of a checked layout is the one that ends last. -/
theorem exists_last (h : layout.check = .ok layout) :
    ∃ last ∈ layout.segments, stopOf 0 layout.segments = last.last.toNat + 1
      ∧ ∀ s ∈ layout.segments, s.last ≤ last.last := by
  obtain ⟨hne, hsound⟩ := sound_of_check h
  have hlast := List.getLast?_eq_some_getLast hne
  refine ⟨layout.segments.getLast hne, List.getLast_mem hne, ?_,
    last_le_of_getLast? hsound.ascending hlast⟩
  unfold stopOf
  rw [hlast]
  rfl

end Layout

/-- A suit with the wiring of a layout. -/
def Suit.wired (layout : Layout) (id : UInt8) (name : String) : Suit where
  id := id
  name := name
  ledCount := layout.ledCount
  parts := layout.partCounts

/-- A standard suit is wired as the standard layout says. -/
theorem Suit.standard_eq_wired (id : UInt8) (name : String) :
    Suit.standard id name = .wired .standard id name := rfl

namespace Layout

variable {layout : Layout}

/-- **Sizes.** In a checked layout without a segment that ends with the last index of all, the LEDs
    on parts are those below the number of LEDs, and the numbers of LEDs on the parts add up to it,
    also in a suit that is wired so. A segment that ends with the last index makes one LED more than
    sixteen bits can tell. Then every index is on a part, and the numbers of LEDs on the parts add
    up to 65536, while the number of LEDs stays at 65535. -/
theorem sizes_agree (h : layout.check = .ok layout) :
    ((∀ s ∈ layout.segments, s.last ≠ 65535) →
      (∀ led, (layout.partAt led).isSome ↔ led < layout.ledCount)
      ∧ layout.partCounts.total = layout.ledCount.toNat
      ∧ ∀ id name, (Suit.wired layout id name).parts.total
          = (Suit.wired layout id name).ledCount.toNat)
    ∧ ((∃ s ∈ layout.segments, s.last = 65535) →
      (∀ led, (layout.partAt led).isSome) ∧ layout.partCounts.total = 65536
      ∧ layout.ledCount = 65535) := by
  obtain ⟨⟨-, htotal⟩, hsome⟩ := counted_partCounts h
  obtain ⟨last, hmem, hstop, hlast⟩ := exists_last h
  have hcount := toNat_ledCount layout
  have hbound := last.last.toNat_lt
  constructor
  · intro hends
    have hne : last.last.toNat ≠ 65535 := fun heq => hends last hmem (UInt16.toNat_inj.mp heq)
    have hexact : layout.ledCount.toNat = stopOf 0 layout.segments := by omega
    refine ⟨fun led => ?_, htotal.trans hexact.symm, fun _ _ => htotal.trans hexact.symm⟩
    rw [hsome, UInt16.lt_iff_toNat_lt, hexact]
  · -- the segment that ends with the last index is the last one
    rintro ⟨s, hs, hend⟩
    have hle := UInt16.le_iff_toNat_le.mp (hlast s hs)
    have hs : s.last.toNat = 65535 := by rw [hend]; rfl
    have hall : stopOf 0 layout.segments = 65536 := by omega
    refine ⟨fun led => ?_, htotal.trans hall, UInt16.toNat_inj.mp ?_⟩
    · rw [hsome, hall]
      exact led.toNat_lt
    · rw [hcount, hall]
      rfl

/-- One segment with all indices that sixteen bits can name. -/
def longStrip : Layout := ⟨[⟨"strip", 65535, .fixed 0.5, .anchor .waist⟩]⟩

/-- The standard wiring has the size that its parts add up to; the long strip has every index on its
    part, one more than its number of LEDs. -/
theorem standard_sizes_agree :
    Layout.standard.check = .ok Layout.standard
    ∧ (∀ s ∈ Layout.standard.segments, s.last ≠ 65535)
    ∧ (∀ led, (Layout.standard.partAt led).isSome ↔ led < Layout.standard.ledCount)
    ∧ Layout.standard.partCounts.total = Layout.standard.ledCount.toNat
    ∧ longStrip.check = .ok longStrip
    ∧ (∃ s ∈ longStrip.segments, s.last = 65535)
    ∧ longStrip.partCounts.total = 65536 := by
  have hstandard : Layout.standard.check = .ok Layout.standard :=
    check_eq_ok_iff.mpr (by decide +kernel)
  have hstrip : longStrip.check = .ok longStrip := check_eq_ok_iff.mpr (by decide +kernel)
  have hends : ∀ s ∈ Layout.standard.segments, s.last ≠ 65535 := by decide
  have hend : ∃ s ∈ longStrip.segments, s.last = 65535 := by decide
  obtain ⟨hsome, htotal, -⟩ := (sizes_agree hstandard).1 hends
  obtain ⟨-, hall, -⟩ := (sizes_agree hstrip).2 hend
  exact ⟨hstandard, hends, hsome, htotal, hstrip, hend, hall⟩

/-- The long strip is a checked layout. Its last index is on its part, but not below its number of
    LEDs, which is not the number of LEDs on its part either. -/
theorem longStrip_sizes_differ :
    longStrip.check = .ok longStrip
    ∧ (longStrip.partAt 65535).isSome ∧ ¬ 65535 < longStrip.ledCount
    ∧ longStrip.partCounts.total ≠ longStrip.ledCount.toNat
    ∧ (Suit.wired longStrip 0 "long").parts.total
        ≠ (Suit.wired longStrip 0 "long").ledCount.toNat :=
  ⟨check_eq_ok_iff.mpr (by decide +kernel), by decide, by decide, by decide, by decide⟩

/-- **Parts.** The table of a checked layout's parts names those parts that some LED sits on, with
    the number of the LEDs on them, also if several segments are on one part. -/
theorem find?_partCounts (h : layout.check = .ok layout) (name : String) :
    ((layout.partCounts.find? name).isSome ↔ ∃ led, layout.partAt led = some name)
    ∧ ∀ n, layout.partCounts.find? name = some n → n.toNat = layout.countOn name := by
  obtain ⟨⟨hfind, -⟩, hsome⟩ := counted_partCounts h
  obtain ⟨last, -, hstop, -⟩ := exists_last h
  have hbound := last.last.toNat_lt
  generalize stopOf 0 layout.segments = stop at hfind hsome hstop
  have hle : stop ≤ 65536 := by omega
  -- no LED is counted behind the last segment
  have hall : layout.countOn name = layout.countBelow name stop := by
    have hnone : ∀ led, stop ≤ led → led < stop + (65536 - stop) →
        layout.partAt led.toUInt16 = none := by
      intro led hled hlt
      have hcast : led.toUInt16.toNat = led := UInt16.toNat_ofNat_of_lt' (by show led < 65536; omega)
      rw [← Option.not_isSome_iff_eq_none, hsome, hcast]
      omega
    have hadd := countBelow_add hnone name
    rwa [if_neg nofun, Nat.add_zero, Nat.add_sub_cancel' hle] at hadd
  have hpos : 0 < layout.countBelow name stop ↔ ∃ led, layout.partAt led = some name := by
    unfold countBelow
    rw [List.countP_pos_iff]
    constructor
    · rintro ⟨led, -, hled⟩
      exact ⟨led.toUInt16, of_decide_eq_true hled⟩
    · rintro ⟨led, hled⟩
      have hlt : led.toNat < stop := (hsome led).mp (by rw [hled]; rfl)
      have hcast : led.toNat.toUInt16 = led := UInt16.ofNat_toNat
      exact ⟨led.toNat, List.mem_range.mpr hlt, decide_eq_true (by rw [hcast, hled])⟩
  constructor
  · rw [hfind, ← hpos]
    split
    · next hzero => simp [hzero]
    · next hzero => simp [Nat.pos_of_ne_zero hzero]
  · intro n hn
    have hcount := countBelow_le layout name stop
    rw [hfind] at hn
    split at hn
    · cases hn
    · rw [hall, ← Option.some.inj hn]
      exact UInt32.toNat_ofNat_of_lt' (by show _ < 4294967296; omega)

/-- A sleeve on which the arm comes in two segments, with the hand between them. -/
def sleeve : Layout :=
  ⟨[⟨"arm", 2, .fixed 0.25, .span .shoulder .wrist⟩, ⟨"hand", 6, .fixed 0.25, .anchor .wrist⟩,
    ⟨"arm", 9, .ramp 0.25 0.5, .span .wrist .shoulder⟩]⟩

/-- Six LEDs of the sleeve are on the arm, and none is on the head. -/
theorem sleeve_find?_partCounts :
    sleeve.check = .ok sleeve
    ∧ sleeve.partCounts.find? "arm" = some 6 ∧ sleeve.countOn "arm" = 6
    ∧ (∃ led, sleeve.partAt led = some "arm") ∧ ¬ ∃ led, sleeve.partAt led = some "head" := by
  have h : sleeve.check = .ok sleeve := check_eq_ok_iff.mpr (by decide +kernel)
  have harm : sleeve.partCounts.find? "arm" = some 6 := by decide
  have hhead : sleeve.partCounts.find? "head" = none := by decide
  obtain ⟨hisSome, hcount⟩ := find?_partCounts h "arm"
  refine ⟨h, harm, (hcount 6 harm).symm, hisSome.mp (by rw [harm]; rfl), fun hled => ?_⟩
  have hsome := (find?_partCounts h "head").1.mpr hled
  rw [hhead] at hsome
  cases hsome

end Layout

end LightShow
