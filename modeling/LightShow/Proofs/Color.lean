import LightShow.Color
import LightShow.Proofs.Text

namespace LightShow.Color

/-!
# Colors in hexadecimal

* `ofPacked_packed` — a color is made again from its number;
* `ofHex?_hex` — the text of a color is read as that color.
-/

/-- The number of a color stands for that color. -/
@[simp] theorem ofPacked_packed (c : Color) : ofPacked c.packed = c := by
  have hred := c.red.toNat_lt
  have hgreen := c.green.toNat_lt
  have hblue := c.blue.toNat_lt
  -- a channel is what is left of the number modulo 256
  have hchannel : ∀ (n : Nat) (x : UInt8), n % 256 = x.toNat → n.toUInt8 = x := by
    intro n x h
    rw [← UInt8.toNat_inj, Nat.toUInt8, UInt8.toNat_ofNat']
    exact h
  unfold ofPacked
  rw [hchannel (c.packed / 0x10000) c.red, hchannel (c.packed / 0x100) c.green,
    hchannel c.packed c.blue]
  all_goals
    unfold packed
    omega

/-- The digits of a color spell its number. -/
theorem hexNumber?_hexDigits (c : Color) : hexNumber? c.hexDigits = some c.packed := by
  have hhigh : ∀ x : UInt8, hexValue? (hexDigit (x.toNat / 16)) = some (x.toNat / 16) := fun x =>
    hexValue?_hexDigit (by have := x.toNat_lt; omega)
  have hlow : ∀ x : UInt8, hexValue? (hexDigit (x.toNat % 16)) = some (x.toNat % 16) := fun x =>
    hexValue?_hexDigit (by omega)
  unfold hexNumber? hexDigits hexByte
  simp only [List.cons_append, List.nil_append, List.foldlM_cons, List.foldlM_nil, hhigh, hlow,
    Option.map_some, Option.bind_eq_bind, Option.bind_some, Option.pure_def, Option.some.injEq]
  unfold packed
  omega

/-- The digits of a color are six, of which none is white space. -/
theorem exists_hexDigits (c : Color) : ∃ digits d, c.hexDigits = digits ++ [d]
    ∧ digits.length = 5 ∧ isBlank d = false := by
  have hdigit : ∀ n : Fin 16, isBlank (hexDigit n.val) = false := by decide
  refine ⟨hexByte c.red ++ hexByte c.green ++ [hexDigit (c.blue.toNat / 16)],
    hexDigit (c.blue.toNat % 16), ?_, rfl, hdigit ⟨c.blue.toNat % 16, by omega⟩⟩
  unfold hexDigits
  rw [List.append_assoc _ [_] [_]]
  rfl

/-- **Round trip.** The text of a color is read as that color. -/
theorem ofHex?_hex (c : Color) : ofHex? c.hex = some c := by
  obtain ⟨digits, d, hdigits, hlength, hd⟩ := exists_hexDigits c
  have hnone : ([] : List Char).all isBlank = true := rfl
  have hhead : ('#' :: (digits ++ [d])).head? = some '#' := rfl
  have hlast : ('#' :: (digits ++ [d])).getLast? = some d := by
    rw [← List.cons_append, List.getLast?_concat]
  have htrim : trimBlanks ('#' :: (digits ++ [d])) = '#' :: (digits ++ [d]) := by
    have hends := trimBlanks_append hnone hnone hhead (by decide) hlast hd
    rwa [List.nil_append, List.append_nil] at hends
  have hdrop : dropHash ('#' :: (digits ++ [d])) = digits ++ [d] := rfl
  have hsix : (digits ++ [d]).length = 6 := by rw [List.length_append, hlength]; rfl
  unfold ofHex? hex
  rw [String.toList_ofList, hdigits, htrim]
  dsimp only
  rw [hdrop, if_pos hsix, ← hdigits, hexNumber?_hexDigits, Option.map_some, ofPacked_packed]

end LightShow.Color
