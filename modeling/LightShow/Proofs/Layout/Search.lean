import LightShow.Proofs.Double.Monotone
import LightShow.Proofs.Layout.Counting

namespace LightShow

/-!
# Finding the segment of an LED

The segments of a layout that was not checked may end in any order, at equal indices or not at all.
Still the search for an LED never gets an index out of the sixteen bits that an index has: when it
looks at a segment, the LED is behind all segments that it has passed.

* `index?` — an integer as an index, if it is one;
* `Layout.search?` — the search in which every difference and every next index has to be an index;
* `Layout.searchFrom?_eq` — that search always ends, and it finds what `Layout.locate` finds;
* `Layout.locateFrom_eq` — the segment found is the first one that reaches as far as the LED;
* `Placement.fraction_mem` — a fraction is from 0 to 1, and it is the number nearest to the quotient;
* `Layout.locate_finds` — all of this for every layout and every LED.
-/

/-! ### Indices of sixteen bits -/

/-- An integer as an index, unless it is negative or above 65535. -/
def index? (n : Int) : Option UInt16 :=
  if 0 ≤ n ∧ n ≤ 65535 then some (UInt16.ofNat n.toNat) else none

theorem exists_index?_eq {n : Int} (hlow : 0 ≤ n) (hhigh : n ≤ 65535) :
    ∃ i : UInt16, index? n = some i ∧ (i.toNat : Int) = n := by
  refine ⟨UInt16.ofNat n.toNat, by simp [index?, hlow, hhigh], ?_⟩
  rw [UInt16.toNat_ofNat_of_lt' (by show n.toNat < 65536; omega)]
  omega

namespace Layout

/-- The search from a segment on of which the first LED is `first`. There is no result if any index
    on the way is out of range. -/
def searchFrom? (led first : UInt16) : List Segment → Option (Option Placement)
  | [] => some none
  | segment :: rest =>
    if led ≤ segment.last then do
      let span ← index? (segment.last.toNat - first.toNat)
      let step ← index? (led.toNat - first.toNat)
      return some ⟨segment, step.toNat, span.toNat⟩
    else do
      let next ← index? (segment.last.toNat + 1)
      searchFrom? led next rest

/-- The search for an LED in which every index has to be in range. -/
def search? (layout : Layout) (led : UInt16) : Option (Option Placement) :=
  searchFrom? led 0 layout.segments

/-- An LED that is not in front of the segments is found without an index out of range. -/
theorem searchFrom?_eq {led first : UInt16} (h : first ≤ led) (segments : List Segment) :
    searchFrom? led first segments = some (locateFrom led first.toNat segments) := by
  induction segments generalizing first with
  | nil => rfl
  | cons s rest ih =>
    have hlast := s.last.toNat_lt
    have hled := led.toNat_lt
    rw [UInt16.le_iff_toNat_le] at h
    unfold searchFrom? locateFrom
    by_cases hreach : led ≤ s.last
    · have hle := UInt16.le_iff_toNat_le.mp hreach
      obtain ⟨span, hspan, hspanValue⟩ :=
        exists_index?_eq (n := s.last.toNat - first.toNat) (by omega) (by omega)
      obtain ⟨step, hstep, hstepValue⟩ :=
        exists_index?_eq (n := led.toNat - first.toNat) (by omega) (by omega)
      have hspanNat : span.toNat = s.last.toNat - first.toNat := by omega
      have hstepNat : step.toNat = led.toNat - first.toNat := by omega
      simp [hreach, hspan, hstep, hspanNat, hstepNat]
    · -- the segment ends in front of the LED, so that its end is not the greatest index
      have hlt : s.last.toNat < led.toNat := by
        rw [UInt16.le_iff_toNat_le] at hreach
        omega
      obtain ⟨next, hnext, hnextValue⟩ :=
        exists_index?_eq (n := s.last.toNat + 1) (by omega) (by omega)
      have hnextNat : next.toNat = s.last.toNat + 1 := by omega
      have hle : next ≤ led := by
        rw [UInt16.le_iff_toNat_le]
        omega
      simp [hreach, hnext, ih hle, hnextNat]

/-! ### The first segment that reaches as far -/

/-- Whether a segment reaches as far as an LED. -/
def reaches (led : UInt16) (entry : Nat × Segment) : Bool := led ≤ entry.2.last

/-- The place of an LED in a segment, given with the index of its first LED. -/
def placeIn (led : UInt16) (entry : Nat × Segment) : Placement :=
  ⟨entry.2, led.toNat - entry.1, entry.2.last.toNat - entry.1⟩

theorem startsFrom_cons (first : Nat) (s : Segment) (rest : List Segment) :
    startsFrom first (s :: rest) = (first, s) :: startsFrom (s.last.toNat + 1) rest := rfl

/-- The first segment that reaches as far as the LED is found. -/
theorem locateFrom_eq (led : UInt16) (first : Nat) (segments : List Segment) :
    locateFrom led first segments
      = ((startsFrom first segments).find? (reaches led)).map (placeIn led) := by
  induction segments generalizing first with
  | nil => rfl
  | cons s rest ih =>
    rw [locateFrom, startsFrom_cons, List.find?_cons]
    by_cases hreach : led ≤ s.last
    · simp [reaches, hreach, placeIn]
    · simp [reaches, hreach, ih]

/-- The segment found begins at the LED or in front of it. -/
theorem start_le_of_find? {led : UInt16} {first : Nat} {segments : List Segment}
    {entry : Nat × Segment} (hfirst : first ≤ led.toNat)
    (h : (startsFrom first segments).find? (reaches led) = some entry) : entry.1 ≤ led.toNat := by
  induction segments generalizing first with
  | nil => cases h
  | cons s rest ih =>
    rw [startsFrom_cons, List.find?_cons] at h
    by_cases hreach : led ≤ s.last
    · simp only [reaches, hreach, decide_true, Option.some.injEq] at h
      rwa [← h]
    · have hlt : s.last.toNat + 1 ≤ led.toNat := by
        rw [UInt16.le_iff_toNat_le] at hreach
        omega
      simp only [reaches, hreach, decide_false] at h
      exact ih hlt h

/-- Without the indices of their first LEDs, these are the segments. -/
theorem map_startsFrom (first : Nat) (segments : List Segment) :
    (startsFrom first segments).map Prod.snd = segments := by
  unfold startsFrom
  rw [List.map_snd_zip]
  simp

end Layout

/-! ### Fractions -/

namespace Placement

variable {p : Placement}

/-- A fraction is the number nearest to the quotient of the LEDs before this one and those before
    the last one. -/
theorem ofFloat_fraction (hpos : 0 < p.span) (hstep : p.step ≤ p.span) (hspan : p.span < 65536) :
    Double.ofFloat p.fraction = .ofMagnitude false (Double.nearest p.step p.span)
      ∧ Double.nearest p.step p.span ≤ Double.one := by
  have hle : Double.nearest p.step p.span ≤ Double.one :=
    Double.nearest_self hpos ▸ Double.nearest_le_nearest hstep p.span
  have hfinite : Double.one ≤ Double.infinity := by decide
  refine ⟨?_, hle⟩
  unfold fraction
  rw [if_neg (by omega), Double.ofFloat_natCast_div (by omega) (by omega) hpos,
    Nat.min_eq_right (Nat.le_trans hle hfinite)]

/-- A fraction is from 0 to 1. -/
theorem fraction_mem (hstep : p.step ≤ p.span) (hspan : p.span < 65536) :
    0.0 ≤ p.fraction ∧ p.fraction ≤ 1.0 := by
  rcases Nat.eq_zero_or_pos p.span with hzero | hpos
  · have hnone : p.fraction = 0.0 := by simp [fraction, hzero]
    rw [hnone]
    exact ⟨(Double.le_self_of_le Double.zero_le_one).1, Double.zero_le_one⟩
  · obtain ⟨hvalue, hle⟩ := ofFloat_fraction hpos hstep hspan
    have hfinite : Double.one ≤ Double.infinity := by decide
    -- magnitudes up to that of one are compared as they are
    have hnumber : ∀ m ≤ Double.one, (Double.ofMagnitude false m).isNaN = false ∧
        (Double.ofMagnitude false m).order = m := by
      intro m hm
      have hlt : m < Double.signBit := Nat.lt_of_le_of_lt hm (by decide)
      exact ⟨Double.isNaN_ofMagnitude (Nat.le_trans hm hfinite) false,
        Double.order_ofMagnitude hlt false⟩
    obtain ⟨hzero, hzeroOrder⟩ := hnumber 0 (Nat.zero_le _)
    obtain ⟨hone, honeOrder⟩ := hnumber Double.one (Nat.le_refl _)
    obtain ⟨hmid, hmidOrder⟩ := hnumber _ hle
    simp only [Double.le_iff_order, hvalue, Double.ofFloat_zero, Double.ofFloat_one, hzero, hone,
      hmid, hzeroOrder, honeOrder, hmidOrder, true_and]
    omega

/-- A place is that of an LED in a layout: in the first segment that reaches as far as the LED, which
    begins at the index `first`, and as far along it as the index of the LED says. -/
structure IsOf (p : Placement) (layout : Layout) (led : UInt16) (first : Nat) : Prop where
  /-- The segment is the first one that reaches as far as the LED. -/
  find? : layout.starts.find? (Layout.reaches led) = some (first, p.segment)
  /-- The LED is in the segment. -/
  inside : first ≤ led.toNat ∧ led.toNat ≤ p.segment.last.toNat
  /-- So many LEDs of the segment are before this one. -/
  step : (p.step : Int) = led.toNat - first
  /-- So many LEDs of the segment are before its last one. -/
  span : (p.span : Int) = p.segment.last.toNat - first
  /-- The only LED of a segment is at its beginning. -/
  alone : p.span = 0 → p.fraction = 0.0
  /-- Others are where the quotient says, as exactly as a number can tell it. -/
  quotient : 0 < p.span →
    Double.ofFloat p.fraction = .ofMagnitude false (Double.nearest p.step p.span)
  /-- A fraction is from 0 to 1. -/
  unit : 0.0 ≤ p.fraction ∧ p.fraction ≤ 1.0

end Placement

namespace Layout

/-- The place that a search finds is that of the LED. -/
theorem isOf_of_locate {layout : Layout} {led : UInt16} {p : Placement}
    (h : layout.locate led = some p) : ∃ first, p.IsOf layout led first := by
  have hfind : (layout.starts.find? (reaches led)).map (placeIn led) = some p :=
    locateFrom_eq led 0 layout.segments ▸ h
  obtain ⟨⟨first, s⟩, hentry, rfl⟩ := Option.map_eq_some_iff.mp hfind
  have hfirst : first ≤ led.toNat := start_le_of_find? (Nat.zero_le _) hentry
  have hreach : led.toNat ≤ s.last.toNat := by
    have hreaches := List.find?_some hentry
    simpa [reaches, UInt16.le_iff_toNat_le] using hreaches
  have hlast := s.last.toNat_lt
  -- the LED is between the ends of the segment, so that nothing is taken from a smaller number
  have hstep : (placeIn led (first, s)).step ≤ (placeIn led (first, s)).span := by
    simp only [placeIn]
    omega
  have hspan : (placeIn led (first, s)).span < 65536 := by
    simp only [placeIn]
    omega
  exact ⟨first, hentry, ⟨hfirst, hreach⟩, Int.ofNat_sub hfirst,
    Int.ofNat_sub (Nat.le_trans hfirst hreach), fun hzero => by simp [Placement.fraction, hzero],
    fun hpos => (Placement.ofFloat_fraction hpos hstep hspan).1,
    Placement.fraction_mem hstep hspan⟩

/-- **Search.** In every layout, checked or not, the search for an LED gets no index out of range. It
    finds the first segment that reaches as far as the LED, if there is one, and the place of the LED
    in that. -/
theorem locate_finds (layout : Layout) (led : UInt16) :
    layout.search? led = some (layout.locate led)
    ∧ (layout.locate led).map (·.segment) = layout.segments.find? (fun s => led ≤ s.last)
    ∧ ∀ p, layout.locate led = some p → ∃ first, p.IsOf layout led first := by
  have hle : (0 : UInt16) ≤ led := by simp
  refine ⟨searchFrom?_eq hle layout.segments, ?_, fun p h => isOf_of_locate h⟩
  have hsegments := congrArg (List.find? fun s : Segment => decide (led ≤ s.last))
    (map_startsFrom 0 layout.segments)
  rw [List.find?_map] at hsegments
  unfold locate
  rw [locateFrom_eq, Option.map_map]
  exact hsegments

/-- Segments that end in falling order, two of them at one index and two at the last index of all. -/
def tangled : Layout where
  segments := [
    ⟨"cape", 300, .fixed 0, .pocket⟩, ⟨"belt", 100, .fixed 0, .pocket⟩,
    ⟨"cuff", 100, .fixed 0, .pocket⟩, ⟨"hem", 65535, .ramp 0 1, .anchor .feet⟩,
    ⟨"spare", 65535, .fixed 1, .anchor .top⟩]

/-- The last LED of all is found in the first of the two segments that reach as far. It is the last
    one there, although that segment begins at an index that another one covers. -/
theorem tangled_locate_finds :
    (tangled.locate 65535).map (fun p => (p.segment.part, p.step, p.span))
        = some ("hem", 65434, 65434)
    ∧ ∃ p first, tangled.locate 65535 = some p ∧ p.IsOf tangled 65535 first ∧ first = 101
      ∧ tangled.search? 65535 = some (some p) := by
  have hsearch := (locate_finds tangled 65535).1
  have hplace : tangled.locate 65535
      = some ⟨⟨"hem", 65535, .ramp 0 1, .anchor .feet⟩, 65434, 65434⟩ := by decide +kernel
  obtain ⟨first, hfirst⟩ := (locate_finds tangled 65535).2.2 _ hplace
  refine ⟨by rw [hplace]; rfl, _, first, hplace, hfirst, ?_, hplace ▸ hsearch⟩
  have hstep := hfirst.step
  simp at hstep
  omega

end Layout

end LightShow
