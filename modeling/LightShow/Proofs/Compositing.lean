import LightShow.Proofs.Mixing
import Mathlib

namespace LightShow

/-!
# The sum of the light on an LED

The light on an LED is added in thirty-two bits per channel and cut to eight bits at the end. Since
`16843009 * 255 = 2 ^ 32 - 1`, the sum of at most 16843009 colors is exact.

* `lightsOn` — the light of the cues that reach an LED, in the order in which it is added;
* `LightSum.IsSumOf` — a sum of light is the sum of these colors, without overflow;
* `mixture` — what an LED shows under light that comes in no order;
* `states_eq_mixture` — what the LEDs of a suit show is the mixture of the light on each of them.
-/

/-- The light on an LED of the suits with an id: that of the cues that are for such a suit, are
    active and have the LED in their range. -/
def lightsOn (layout : Layout) (cues : List Cue) (suit : UInt8) (led : UInt16) (time : Float) :
    List Color :=
  (cues.filter (·.reaches suit led time)).map (·.light layout led time)

/-! ### Sums without overflow -/

namespace LightSum

/-- A sum of light is the sum of colors, channel by channel. -/
structure IsSumOf (sum : LightSum) (colors : List Color) : Prop where
  red : sum.red.toNat = (colors.map (·.red.toNat)).sum
  green : sum.green.toNat = (colors.map (·.green.toNat)).sum
  blue : sum.blue.toNat = (colors.map (·.blue.toNat)).sum

/-- A channel after more colors, of which only the lowest thirty-two bits are kept. -/
theorem toNat_foldl_add {channel : LightSum → UInt32} {part : Color → UInt8}
    (hadd : ∀ sum c, channel (add sum c) = channel sum + (part c).toUInt32) (colors : List Color)
    (sum : LightSum) :
    (channel (colors.foldl add sum)).toNat
      = ((channel sum).toNat + (colors.map fun c => (part c).toNat).sum) % 2 ^ 32 := by
  induction colors generalizing sum with
  | nil => exact (Nat.mod_eq_of_lt (channel sum).toNat_lt).symm
  | cons c colors ih =>
    rw [List.foldl_cons, ih, hadd, List.map_cons, List.sum_cons, UInt32.toNat_add,
      UInt8.toNat_toUInt32, Nat.mod_add_mod, Nat.add_assoc]

/-- No color adds more than 255 to a channel. -/
theorem sum_le (part : Color → UInt8) (colors : List Color) :
    (colors.map fun c => (part c).toNat).sum ≤ colors.length * 255 := by
  have hpart : ∀ n ∈ colors.map fun c => (part c).toNat, n ≤ 255 := by
    intro n hn
    obtain ⟨c, -, rfl⟩ := List.mem_map.mp hn
    exact Nat.le_of_lt_succ (part c).toNat_lt
  simpa using List.sum_le_card_nsmul _ 255 hpart

/-- **No overflow.** Up to 16843009 colors add up exactly. -/
theorem isSumOf_foldl_add {colors : List Color} (h : colors.length ≤ 16843009) :
    (colors.foldl add zero).IsSumOf colors := by
  -- one statement for the three channels
  have hexact : ∀ {channel : LightSum → UInt32} {part : Color → UInt8},
      (∀ sum c, channel (add sum c) = channel sum + (part c).toUInt32) → channel zero = 0 →
      (channel (colors.foldl add zero)).toNat = (colors.map fun c => (part c).toNat).sum := by
    intro channel part hadd hzero
    have hbound := sum_le part colors
    rw [toNat_foldl_add hadd, hzero, UInt32.toNat_zero, Nat.zero_add]
    exact Nat.mod_eq_of_lt (by omega)
  exact ⟨hexact (fun _ _ => rfl) rfl, hexact (fun _ _ => rfl) rfl, hexact (fun _ _ => rfl) rfl⟩

@[simp] theorem toNat_clamp (n : UInt32) : (clamp n).toNat = min n.toNat 255 := by
  have hle : (min n 255).toNat < UInt8.size := by
    rw [UInt32.toNat_min]
    exact Nat.lt_of_le_of_lt (Nat.min_le_right _ _) (by decide)
  unfold clamp
  rw [UInt32.toNat_toUInt8, Nat.mod_eq_of_lt hle, UInt32.toNat_min]
  rfl

end LightSum

/-! ### Mixtures -/

/-- A channel under light of several colors: their sum, at most 255. -/
def mixtureChannel (part : Color → UInt8) (lights : Multiset Color) : UInt8 :=
  UInt8.ofNat (min 255 (lights.map fun c => (part c).toNat).sum)

/-- What an LED shows under light of several colors: it is idle if all of them are black. -/
def mixture (lights : Multiset Color) : LedState :=
  if ∀ c ∈ lights, c = .black then .idle
  else .lit ⟨mixtureChannel Color.red lights, mixtureChannel Color.green lights,
    mixtureChannel Color.blue lights⟩

namespace LightSum

/-- A channel of a sum, cut to eight bits. -/
theorem clamp_eq {n : UInt32} {part : Color → UInt8} {colors : List Color}
    (h : n.toNat = (colors.map fun c => (part c).toNat).sum) :
    clamp n = mixtureChannel part colors := by
  apply UInt8.toNat_inj.mp
  unfold mixtureChannel
  rw [toNat_clamp, h, UInt8.toNat_ofNat', Multiset.map_coe, Multiset.sum_coe, Nat.min_comm,
    Nat.mod_eq_of_lt (by omega)]

/-- Cutting a channel does not make it dark, nor does adding. -/
theorem clamp_eq_zero_iff {n : UInt32} {part : Color → UInt8} {colors : List Color}
    (h : n.toNat = (colors.map fun c => (part c).toNat).sum) :
    clamp n = 0 ↔ ∀ c ∈ colors, part c = 0 := by
  have hsum : n.toNat = 0 ↔ ∀ c ∈ colors, (part c).toNat = 0 := by
    rw [h, List.sum_eq_zero_iff]
    exact List.forall_mem_map
  rw [← UInt8.toNat_inj, toNat_clamp]
  simp only [← UInt8.toNat_inj, UInt8.toNat_zero, ← hsum]
  omega

/-- What an LED shows under a sum of colors is their mixture. -/
theorem IsSumOf.state {sum : LightSum} {colors : List Color} (h : sum.IsSumOf colors) :
    sum.state = mixture colors := by
  -- the sum is black exactly if it is black channel by channel
  have hblack : (⟨clamp sum.red, clamp sum.green, clamp sum.blue⟩ : Color) = .black
      ↔ ∀ c ∈ (colors : Multiset Color), c = .black := by
    rw [Color.black, Color.mk.injEq, clamp_eq_zero_iff h.red, clamp_eq_zero_iff h.green,
      clamp_eq_zero_iff h.blue]
    constructor
    · rintro ⟨hred, hgreen, hblue⟩ ⟨r, g, b⟩ hc
      rw [Color.mk.injEq]
      exact ⟨hred _ hc, hgreen _ hc, hblue _ hc⟩
    · intro hall
      exact ⟨fun c hc => hall c hc ▸ rfl, fun c hc => hall c hc ▸ rfl, fun c hc => hall c hc ▸ rfl⟩
  unfold LightSum.state mixture
  dsimp only
  rw [if_congr hblack rfl rfl, clamp_eq h.red, clamp_eq h.green, clamp_eq h.blue]

end LightSum

/-- An LED shows the sum of the light on it. -/
theorem ledState_eq_lightsOn (layout : Layout) (cues : List Cue) (suit : UInt8) (led : UInt16)
    (time : Float) :
    ledState layout led time (activeCues cues suit time)
      = ((lightsOn layout cues suit led time).foldl LightSum.add .zero).state := by
  rw [ledState_activeCues, lightsOn, List.foldl_map]

/-- **Mixing.** Every LED of a suit has a state. Under at most 16843009 cues it is the mixture of the
    light on the LED, in which the order of the cues is lost: idle exactly if all the light is black,
    else with every channel at the sum of that channel, at most 255. No sum on the way to it
    overflows. -/
theorem states_eq_mixture (suit : Suit) (layout : Layout) {cues : List Cue}
    (h : cues.length ≤ 16843009) (time : Float) :
    (suit.states layout cues time).length = suit.ledCount.toNat
    ∧ ∀ led < suit.ledCount,
        (suit.states layout cues time)[led.toNat]?
          = some (mixture (lightsOn layout cues suit.id led time))
        ∧ ∀ part, part <+: lightsOn layout cues suit.id led time →
            (part.foldl LightSum.add .zero).IsSumOf part := by
  refine ⟨by rw [states_eq_map, List.length_map, List.length_range], fun led hled => ?_⟩
  have hlights : (lightsOn layout cues suit.id led time).length ≤ 16843009 := by
    rw [lightsOn, List.length_map]
    exact (List.length_filter_le _ _).trans h
  constructor
  · rw [getElem?_states layout cues time (UInt16.lt_iff_toNat_lt.mp hled), ledState_eq_lightsOn,
      (LightSum.isSumOf_foldl_add hlights).state]
  · intro part hpart
    exact LightSum.isSumOf_foldl_add (hpart.length_le.trans hlights)

/-- A suit of three LEDs. -/
def sash : Suit := ⟨3, "sash", 3, .empty⟩

/-- Cues of which two meet on the first LED of the sash, where their red adds up to more than 255.
    Of the others one is black, one is over at 50, and one is for another suit. -/
def crossing : List Cue :=
  [.plain "red" 3 .solid 0 100 ⟨200, 0, 0⟩ 0 1, .plain "violet" 3 .solid 0 100 ⟨100, 0, 40⟩ 0 0,
    .plain "dark" 3 .solid 0 100 .black 0 2, .plain "over" 3 .solid 0 50 ⟨0, 9, 0⟩ 0 2,
    .plain "lost" 4 .solid 0 100 ⟨0, 9, 0⟩ 0 2]

/-- The first LED of the sash shows two colors and black, the last one black alone. -/
theorem sash_states_eq_mixture :
    crossing.length ≤ 16843009
    ∧ (sash.states .standard crossing 50).length = 3
    ∧ (sash.states .standard crossing 50)[0]?
        = some (mixture {⟨200, 0, 0⟩, ⟨100, 0, 40⟩, .black})
    ∧ mixture {⟨200, 0, 0⟩, ⟨100, 0, 40⟩, .black} = .lit ⟨255, 0, 40⟩
    ∧ (sash.states .standard crossing 50)[2]? = some .idle := by
  obtain ⟨hlength, hled⟩ :=
    states_eq_mixture sash .standard (show crossing.length ≤ 16843009 by decide) 50
  have hfirst := (hled 0 (by decide)).1
  have hlast := (hled 2 (by decide)).1
  refine ⟨by decide, hlength, hfirst.trans ?_, by decide, hlast.trans ?_⟩
  · decide +kernel
  · decide +kernel

end LightShow
