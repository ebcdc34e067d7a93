import LightShow.Player
import Mathlib.Data.List.Induction

namespace LightShow

/-!
# Time going by in a player

* `advance_advance` — going to one time and then to another one is going to the later of the two;
* `foldl_advance` — a run of times, in whatever order, is going to the latest of them;
* `lastEvent?` — the last of some events for an LED;
* `color?_apply`, `color?_foldl_apply` — an event writes the LED that it names and no other one, so
  that the last event for an LED counts;
* `color?_dark` — at the start all LEDs are black.
-/

/-! ### Events that are due -/

section Due

variable {α : Type} {early late : α → Bool}

/-- What passes a weaker test at the front is what passes the stronger one, and then what of the
    rest passes the weaker one. -/
theorem takeWhile_eq_append (h : ∀ a, early a = true → late a = true) (l : List α) :
    l.takeWhile late = l.takeWhile early ++ (l.dropWhile early).takeWhile late := by
  induction l with
  | nil => rfl
  | cons a rest ih =>
    by_cases ha : early a = true
    · rw [List.takeWhile_cons_of_pos (h a ha), List.takeWhile_cons_of_pos ha,
        List.dropWhile_cons_of_pos ha, ih, List.cons_append]
    · rw [List.takeWhile_cons_of_neg ha, List.dropWhile_cons_of_neg ha, List.nil_append]

theorem dropWhile_dropWhile (h : ∀ a, early a = true → late a = true) (l : List α) :
    (l.dropWhile early).dropWhile late = l.dropWhile late := by
  induction l with
  | nil => rfl
  | cons a rest ih =>
    by_cases ha : early a = true
    · rw [List.dropWhile_cons_of_pos ha, List.dropWhile_cons_of_pos (h a ha), ih]
    · rw [List.dropWhile_cons_of_neg ha]

/-- What is left after the weaker test does not begin with anything that passes the stronger one. -/
theorem takeWhile_dropWhile_eq_nil (h : ∀ a, early a = true → late a = true) (l : List α) :
    (l.dropWhile late).takeWhile early = [] := by
  induction l with
  | nil => rfl
  | cons a rest ih =>
    by_cases ha : late a = true
    · rw [List.dropWhile_cons_of_pos ha, ih]
    · rw [List.dropWhile_cons_of_neg ha, List.takeWhile_cons_of_neg (fun he => ha (h a he))]

theorem dropWhile_dropWhile_of_imp (h : ∀ a, early a = true → late a = true) (l : List α) :
    (l.dropWhile late).dropWhile early = l.dropWhile late := by
  have hjoin := List.takeWhile_append_dropWhile (p := early) (l := l.dropWhile late)
  rwa [takeWhile_dropWhile_eq_nil h, List.nil_append] at hjoin

/-- A list that passes a test up to some place, and nowhere after it, is cut there. -/
theorem takeWhile_append_of_forall {front back : List α} (hfront : ∀ a ∈ front, early a = true)
    (hback : ∀ a ∈ back, early a = false) : (front ++ back).takeWhile early = front := by
  rw [List.takeWhile_append_of_pos hfront]
  cases back with
  | nil => simp
  | cons a rest =>
    rw [List.takeWhile_cons_of_neg (by simp [hback a List.mem_cons_self]), List.append_nil]

end Due

/-! ### Several times -/

namespace Player

theorem max_eq_right_of_le {a b : UInt32} (h : a ≤ b) : max a b = b := if_pos h

theorem max_eq_left_of_lt {a b : UInt32} (h : b < a) : max a b = a :=
  if_neg (UInt32.not_le.mpr h)

theorem toNat_max (a b : UInt32) : (max a b).toNat = max a.toNat b.toNat := by
  show (if a ≤ b then b else a).toNat = _
  split
  · next h => exact (Nat.max_eq_right (UInt32.le_iff_toNat_le.mp h)).symm
  · next h =>
    have hlt := UInt32.lt_iff_toNat_lt.mp (UInt32.not_le.mp h)
    omega

/-- Going to one time and then to another one is going to the later of the two. An earlier time
    finds nothing that is due. -/
theorem advance_advance (player : Player) (a b : UInt32) :
    (player.advance a).advance b = player.advance (max a b) := by
  have hnow : max (max player.now a) b = max player.now (max a b) := by
    apply UInt32.toNat_inj.mp
    simp only [toNat_max]
    omega
  by_cases h : a ≤ b
  · -- what is due at the later time is what was due before and what is due since
    have himp : ∀ e : Event, decide (e.time ≤ a) = true → decide (e.time ≤ b) = true := by
      intro e he
      exact decide_eq_true (UInt32.le_trans (of_decide_eq_true he) h)
    have hdue : player.due b = player.due a ++ (player.advance a).due b :=
      takeWhile_eq_append himp player.pending
    rw [max_eq_right_of_le h] at hnow ⊢
    unfold advance at hdue ⊢
    simp only [hnow, hdue, List.length_append, List.foldl_append, Nat.add_assoc,
      dropWhile_dropWhile himp]
  · -- everything that is due at the earlier time has been taken
    have hlt : b < a := UInt32.not_le.mp h
    have himp : ∀ e : Event, decide (e.time ≤ b) = true → decide (e.time ≤ a) = true := by
      intro e he
      exact decide_eq_true (UInt32.le_trans (of_decide_eq_true he) (UInt32.le_of_lt hlt))
    have hdue : (player.advance a).due b = [] := takeWhile_dropWhile_eq_nil himp player.pending
    rw [max_eq_left_of_lt hlt] at hnow ⊢
    unfold advance at hdue ⊢
    simp only [hnow, hdue, List.length_nil, List.foldl_nil, Nat.add_zero,
      dropWhile_dropWhile_of_imp himp]

/-- A run of times after a first one. -/
theorem foldl_advance_advance (player : Player) (times : List UInt32) (t : UInt32) :
    times.foldl advance (player.advance t) = player.advance (times.foldl max t) := by
  induction times generalizing t with
  | nil => rfl
  | cons u rest ih => rw [List.foldl_cons, List.foldl_cons, advance_advance, ih]

/-- The greatest of some times is found by comparing them in turn. -/
theorem foldl_max_eq {times : List UInt32} {t m : UInt32} (hmem : m ∈ t :: times)
    (hmax : ∀ u ∈ t :: times, u ≤ m) : times.foldl max t = m := by
  induction times generalizing t with
  | nil => exact (List.mem_singleton.mp hmem).symm
  | cons u rest ih =>
    have ht : t ≤ m := hmax t List.mem_cons_self
    have hu : u ≤ m := hmax u (List.mem_cons_of_mem _ List.mem_cons_self)
    have hboth : max t u ≤ m := by
      rw [UInt32.le_iff_toNat_le] at ht hu ⊢
      rw [toNat_max]
      omega
    rw [List.foldl_cons]
    apply ih
    · -- `m` is the greater one of the first two times, or one of the others
      have hgreatest : m.toNat ≤ max t.toNat u.toNat → m ∈ max t u :: rest := by
        intro hle
        rw [← toNat_max, ← UInt32.le_iff_toNat_le] at hle
        rw [UInt32.le_antisymm hboth hle]
        exact List.mem_cons_self
      rcases List.mem_cons.mp hmem with rfl | hmem
      · exact hgreatest (Nat.le_max_left _ _)
      · rcases List.mem_cons.mp hmem with rfl | hmem
        · exact hgreatest (Nat.le_max_right _ _)
        · exact List.mem_cons_of_mem _ hmem
    · intro v hv
      rcases List.mem_cons.mp hv with rfl | hv
      · exact hboth
      · exact hmax v (List.mem_cons_of_mem _ (List.mem_cons_of_mem _ hv))

/-- A run of times, in whatever order, is going to the latest of them. -/
theorem foldl_advance {player : Player} {times : List UInt32} {m : UInt32} (hmem : m ∈ times)
    (hmax : ∀ t ∈ times, t ≤ m) : times.foldl advance player = player.advance m := by
  cases times with
  | nil => simp at hmem
  | cons t rest => rw [List.foldl_cons, foldl_advance_advance, foldl_max_eq hmem hmax]

end Player

/-! ### The last event for an LED -/

/-- The last of some events for an LED. -/
def lastEvent? (events : List Event) (suit : UInt8) (led : UInt16) : Option Event :=
  (events.filter fun e => e.suit = suit ∧ e.led = led).getLast?

/-- The last event for an LED is a new one for it, or the one from before. -/
theorem lastEvent?_concat (events : List Event) (e : Event) (suit : UInt8) (led : UInt16) :
    lastEvent? (events ++ [e]) suit led
      = if e.suit = suit ∧ e.led = led then some e else lastEvent? events suit led := by
  unfold lastEvent?
  rw [List.filter_append]
  by_cases h : e.suit = suit ∧ e.led = led
  · have hlast : [e].filter (fun e => e.suit = suit ∧ e.led = led) = [e] := by simp [h]
    rw [if_pos h, hlast, List.getLast?_concat]
  · have hnone : [e].filter (fun e => e.suit = suit ∧ e.led = led) = [] := by simp [h]
    rw [if_neg h, hnone, List.append_nil]

/-- There is no last event for an LED if there is none at all. -/
theorem lastEvent?_eq_none_iff {events : List Event} {suit : UInt8} {led : UInt16} :
    lastEvent? events suit led = none ↔ ∀ e ∈ events, ¬(e.suit = suit ∧ e.led = led) := by
  unfold lastEvent?
  rw [List.getLast?_eq_none_iff, List.filter_eq_nil_iff]
  simp only [decide_eq_true_eq]

/-- Where there are events for an LED, one of them is the last one. -/
theorem exists_lastEvent?_eq_some {events : List Event} {suit : UInt8} {led : UInt16}
    (h : ∃ e ∈ events, e.suit = suit ∧ e.led = led) :
    ∃ e, lastEvent? events suit led = some e := by
  rw [← Option.ne_none_iff_exists']
  intro hnone
  obtain ⟨e, he, hfor⟩ := h
  exact lastEvent?_eq_none_iff.mp hnone e he hfor

/-- The last event for an LED is one of the events, and is for that LED. -/
theorem of_lastEvent?_eq_some {events : List Event} {suit : UInt8} {led : UInt16} {e : Event}
    (h : lastEvent? events suit led = some e) : e ∈ events ∧ e.suit = suit ∧ e.led = led := by
  have hmem := List.mem_filter.mp (List.mem_of_getLast? h)
  exact ⟨hmem.1, of_decide_eq_true hmem.2⟩

/-! ### What an event writes -/

namespace Lights

/-- A look-up after all rows have been changed, each by its id. -/
theorem lookup_map {α β : Type} (f : UInt8 → α → β) (rows : List (UInt8 × α)) (id : UInt8) :
    (rows.map fun row => (row.1, f row.1 row.2)).lookup id = (rows.lookup id).map (f id) := by
  induction rows with
  | nil => rfl
  | cons row rest ih =>
    rw [List.map_cons, List.lookup_cons, List.lookup_cons]
    by_cases h : id = row.1
    · subst h; simp
    · simp [beq_eq_false_iff_ne.mpr h, ih]

/-- An event writes the LED that it names, if there is one, and no other one. -/
theorem color?_apply (lights : Lights) (e : Event) (suit : UInt8) (led : UInt16) :
    (lights.apply e).color? suit led
      = if e.suit = suit ∧ e.led = led then (lights.color? suit led).map fun _ => e.color
        else lights.color? suit led := by
  have hrow : (lights.apply e).row? suit
      = (lights.row? suit).map fun colors =>
          if suit = e.suit then colors.setIfInBounds e.led.toNat e.color else colors :=
    lookup_map (fun id (colors : Array Color) =>
      if id = e.suit then colors.setIfInBounds e.led.toNat e.color else colors) lights.rows suit
  unfold color?
  rw [hrow]
  cases lights.row? suit with
  | none => simp
  | some colors =>
    rw [Option.map_some, Option.bind_some, Option.bind_some]
    by_cases hsuit : suit = e.suit
    · -- a color behind the end of the row is lost
      subst hsuit
      rw [if_pos rfl, Array.getElem?_setIfInBounds]
      by_cases hled : e.led = led
      · subst hled
        rw [if_pos (rfl : e.led.toNat = e.led.toNat), if_pos (And.intro rfl rfl)]
        by_cases hin : e.led.toNat < colors.size
        · rw [if_pos hin, Array.getElem?_eq_getElem hin, Option.map_some]
        · rw [if_neg hin, Array.getElem?_eq_none (Nat.le_of_not_lt hin), Option.map_none]
      · rw [if_neg (fun h => hled (UInt16.toNat_inj.mp h)), if_neg (fun h => hled h.2)]
    · rw [if_neg hsuit, if_neg (fun h => hsuit h.1.symm)]

/-- Events leave an LED in the color of the last event for it, and in its own color if there is
    none. -/
theorem color?_foldl_apply (lights : Lights) (events : List Event) (suit : UInt8)
    (led : UInt16) :
    (events.foldl apply lights).color? suit led
      = (lights.color? suit led).map fun own =>
          ((lastEvent? events suit led).map (·.color)).getD own := by
  -- by the events, with one more event at the end
  induction events using List.reverseRecOn with
  | nil => exact Option.map_id'.symm
  | append_singleton events e ih =>
    rw [List.foldl_append, List.foldl_cons, List.foldl_nil, color?_apply, ih, lastEvent?_concat]
    by_cases h : e.suit = suit ∧ e.led = led
    · rw [if_pos h, if_pos h, Option.map_map]
      rfl
    · rw [if_neg h, if_neg h]

/-- Events that agree on an LED leave it in their color, if there are any. -/
theorem color?_foldl_apply_of_agree (lights : Lights) (events : List Event) {suit : UInt8} {led : UInt16}
    {c : Color} (hsame : ∀ e ∈ events, e.suit = suit → e.led = led → e.color = c) :
    (events.foldl apply lights).color? suit led
      = if ∃ e ∈ events, e.suit = suit ∧ e.led = led then (lights.color? suit led).map fun _ => c
        else lights.color? suit led := by
  rw [color?_foldl_apply]
  by_cases h : ∃ e ∈ events, e.suit = suit ∧ e.led = led
  · obtain ⟨e, hlast⟩ := exists_lastEvent?_eq_some h
    obtain ⟨he, hsuit, hled⟩ := of_lastEvent?_eq_some hlast
    rw [if_pos h, hlast]
    simp only [Option.map_some, Option.getD_some, hsame e he hsuit hled]
  · have hnone : ∀ e ∈ events, ¬(e.suit = suit ∧ e.led = led) := fun e he h' => h ⟨e, he, h'⟩
    rw [if_neg h, lastEvent?_eq_none_iff.mpr hnone]
    exact Option.map_id'

/-! ### The lights at the start -/

/-- The length of a row is the greatest number of LEDs of a suit with its id. -/
theorem rowLength?_eq_some_iff {suits : List Suit} {id : UInt8} {length : Nat} :
    rowLength? suits id = some length ↔
      (∃ s ∈ suits, s.id = id ∧ s.ledCount.toNat = length)
        ∧ ∀ s ∈ suits, s.id = id → s.ledCount.toNat ≤ length := by
  unfold rowLength?
  rw [List.max?_eq_some_iff]
  simp only [List.mem_map, List.mem_filter, beq_iff_eq, and_assoc]
  constructor
  · rintro ⟨hlongest, hall⟩
    exact ⟨hlongest, fun s hs hid => hall _ ⟨s, hs, hid, rfl⟩⟩
  · rintro ⟨hlongest, hall⟩
    refine ⟨hlongest, ?_⟩
    rintro _ ⟨s, hs, hid, rfl⟩
    exact hall s hs hid

/-- There is no row for an id that no suit has. -/
theorem rowLength?_eq_none_iff {suits : List Suit} {id : UInt8} :
    rowLength? suits id = none ↔ ∀ s ∈ suits, s.id ≠ id := by
  unfold rowLength?
  rw [List.max?_eq_none_iff, List.map_eq_nil_iff, List.filter_eq_nil_iff]
  simp only [beq_iff_eq, ne_eq]

/-- A look-up in a list of rows that are made for the ids below a bound, one after another. -/
theorem lookup_filterMap_range {α : Type} (make : UInt8 → Option α) (id : UInt8) {count : Nat}
    (hcount : count ≤ UInt8.size) :
    ((List.range count).filterMap fun n =>
        (make n.toUInt8).map fun row => (n.toUInt8, row)).lookup id
      = if id.toNat < count then make id else none := by
  induction count with
  | zero => rfl
  | succ n ih =>
    have hn : n < UInt8.size := hcount
    rw [List.range_succ, List.filterMap_append, List.lookup_append, ih (Nat.le_of_lt hn)]
    by_cases hid : id = n.toUInt8
    · -- the row is the last one, since none before it has the id
      have hself : id.toNat = n := by rw [hid]; exact UInt8.toNat_ofNat_of_lt' hn
      rw [if_neg (by omega), if_pos (by omega), Option.none_or]
      simp only [List.filterMap_cons, ← hid]
      cases make id <;> simp
    · have hother : id.toNat ≠ n := by
        intro h
        exact hid (by rw [← h]; exact UInt8.ofNat_toNat.symm)
      have hnone : ([n].filterMap fun n =>
          (make n.toUInt8).map fun row => (n.toUInt8, row)).lookup id = none := by
        cases hmake : make n.toUInt8 <;> simp [hmake, hid]
      rw [hnone, Option.or_none]
      congr 1
      rw [eq_iff_iff]
      omega

/-- The row of an id at the start. -/
theorem row?_dark (suits : List Suit) (id : UInt8) :
    (dark suits).row? id
      = (rowLength? suits id).map fun length => Array.replicate length .black := by
  have hid : id.toNat < UInt8.size := id.toNat_lt
  have hrow := lookup_filterMap_range
    (fun id => (rowLength? suits id).map fun length => Array.replicate length Color.black) id
    (Nat.le_refl UInt8.size)
  rw [if_pos hid] at hrow
  rw [← hrow]
  unfold dark row?
  simp only [Option.map_map, Function.comp_def]

/-- At the start, the LEDs that some suit with an id has are black, and there are no others. -/
theorem color?_dark (suits : List Suit) (id : UInt8) (led : UInt16) :
    (dark suits).color? id led
      = if ∃ s ∈ suits, s.id = id ∧ led.toNat < s.ledCount.toNat then some .black else none := by
  unfold color?
  rw [row?_dark]
  cases hlength : rowLength? suits id with
  | none =>
    have hnone := rowLength?_eq_none_iff.mp hlength
    rw [if_neg (fun ⟨s, hs, hid, _⟩ => hnone s hs hid)]
    rfl
  | some length =>
    -- an LED of any suit with the id is one of the longest of them
    obtain ⟨⟨longest, hlongest, hid, hcount⟩, hall⟩ := rowLength?_eq_some_iff.mp hlength
    rw [Option.map_some, Option.bind_some, Array.getElem?_replicate]
    congr 1
    rw [eq_iff_iff]
    constructor
    · intro hled
      exact ⟨longest, hlongest, hid, hcount.symm ▸ hled⟩
    · rintro ⟨s, hs, hsid, hin⟩
      exact Nat.lt_of_lt_of_le hin (hall s hs hsid)

end Lights

end LightShow
