import LightShow.Proofs.Color

namespace LightShow

/-!
# Which texts are colors

A color is written in six hexadecimal digits, of either case, with or without a number sign in
front. White space around them does not count, and nothing else may stand there: no second number
sign, no sign of a number, and no digits of other scripts.

* `hexAlphabet`, `hexDigit_eq_toLower` — the hexadecimal digits, and their lower-case form;
* `Color.Spells` — a text that spells a color by six digits;
* `Color.hexDigits_ofPacked` — the digits of the color that was read are the digits in lower case;
* `Color.ofHex?_eq_some_iff`, `Color.isSome_ofHex?_iff` — exactly the texts that spell a color are
  read, as the color of their digits.
-/

/-! ### Hexadecimal digits -/

/-- The digits of hexadecimal numbers in either case. -/
def hexAlphabet : List Char :=
  ['0', '1', '2', '3', '4', '5', '6', '7', '8', '9', 'a', 'b', 'c', 'd', 'e', 'f',
    'A', 'B', 'C', 'D', 'E', 'F']

theorem mem_hexAlphabet_iff {c : Char} : c ∈ hexAlphabet ↔ (hexValue? c).isSome = true := by
  constructor
  · have hall : (hexAlphabet.all fun c => (hexValue? c).isSome) = true := by decide
    exact fun h => List.all_eq_true.mp hall c h
  · intro h
    -- the three ranges of digits, by their code points
    have hrange : c.toNat ∈ List.range' 48 10 ∨ c.toNat ∈ List.range' 97 6
        ∨ c.toNat ∈ List.range' 65 6 := by
      have hval : c.val.toNat = c.toNat := rfl
      unfold hexValue? at h
      simp only [Char.le_def, UInt32.le_iff_toNat_le, hval] at h
      grind
    have hall : ((List.range' 48 10 ++ (List.range' 97 6 ++ List.range' 65 6)).all
        fun k => hexAlphabet.elem (Char.ofNat k)) = true := by decide
    rw [← List.mem_append, ← List.mem_append] at hrange
    have hc := List.elem_iff.mp (List.all_eq_true.mp hall _ hrange)
    rwa [Char.ofNat_toNat] at hc

/-- The digit of a value is the lower-case one of the digits that have the value. -/
theorem hexDigit_eq_toLower {c : Char} {n : Nat} (h : hexValue? c = some n) :
    n < 16 ∧ hexDigit n = c.toLower := by
  have hall : (hexAlphabet.all fun c =>
      (hexValue? c).all fun n => n < 16 ∧ hexDigit n = c.toLower) = true := by decide
  have hc := List.all_eq_true.mp hall c (mem_hexAlphabet_iff.mpr (Option.isSome_of_eq_some h))
  rw [h, Option.all_some] at hc
  exact of_decide_eq_true hc

/-- A hexadecimal digit is neither white space nor a number sign. -/
theorem not_blank_of_mem_hexAlphabet {c : Char} (h : c ∈ hexAlphabet) :
    isBlank c = false ∧ c ≠ '#' := by
  have hall : (hexAlphabet.all fun c => !isBlank c && c != '#') = true := by decide
  simpa using List.all_eq_true.mp hall c h

/-- Digits have a number if they are all hexadecimal. -/
theorem isSome_hexNumber?_iff {digits : List Char} :
    (hexNumber? digits).isSome = true ↔ ∀ c ∈ digits, c ∈ hexAlphabet := by
  suffices hfrom : ∀ n : Nat, (digits.foldlM (fun n c => (hexValue? c).map (16 * n + ·)) n).isSome
      = true ↔ ∀ c ∈ digits, c ∈ hexAlphabet from hfrom 0
  induction digits with
  | nil => simp
  | cons c digits ih =>
    intro n
    rw [List.foldlM_cons, List.forall_mem_cons, mem_hexAlphabet_iff]
    cases hexValue? c with
    | none => simp
    | some x => simpa using ih (16 * n + x)

/-- The digits of a byte whose value is put together from two. -/
theorem hexByte_toUInt8 {n x y : Nat} (hy : y < 16) (h : n % 256 = 16 * x + y) :
    hexByte n.toUInt8 = [hexDigit x, hexDigit y] := by
  have hbyte : n.toUInt8.toNat = 16 * x + y := by
    rw [Nat.toUInt8, UInt8.toNat_ofNat']
    exact h
  unfold hexByte
  rw [hbyte, show (16 * x + y) / 16 = x by omega, show (16 * x + y) % 16 = y by omega]

namespace Color

/-! ### Texts -/

/-- A text spells a color by these digits: they are six, and stand behind a number sign or alone,
    with nothing but white space around. -/
structure Spells (s : String) (digits : List Char) : Prop where
  text : ∃ front sign back : List Char, s.toList = front ++ (sign ++ digits ++ back)
    ∧ sign ∈ [[], ['#']] ∧ front.all isBlank = true ∧ back.all isBlank = true
  length_eq : digits.length = 6
  mem_hexAlphabet : ∀ c ∈ digits, c ∈ hexAlphabet

/-- The digits of a color that was read from its digits are these in lower case. -/
theorem hexDigits_ofPacked {digits : List Char} {v : Nat} (hlength : digits.length = 6)
    (h : hexNumber? digits = some v) : (ofPacked v).hexDigits = digits.map Char.toLower := by
  obtain ⟨a, b, c, d, e, f, rfl⟩ : ∃ a b c d e f, digits = [a, b, c, d, e, f] := by
    match digits, hlength with
    | [a, b, c, d, e, f], _ => exact ⟨a, b, c, d, e, f, rfl⟩
  unfold hexNumber? at h
  simp only [List.foldlM_cons, List.foldlM_nil, Option.bind_eq_bind, Option.pure_def,
    Option.bind_eq_some_iff, Option.map_eq_some_iff, Option.some.injEq] at h
  obtain ⟨_, ⟨x₁, h₁, rfl⟩, _, ⟨x₂, h₂, rfl⟩, _, ⟨x₃, h₃, rfl⟩, _, ⟨x₄, h₄, rfl⟩, _,
    ⟨x₅, h₅, rfl⟩, _, ⟨x₆, h₆, rfl⟩, rfl⟩ := h
  obtain ⟨hx₁, h₁⟩ := hexDigit_eq_toLower h₁
  obtain ⟨hx₂, h₂⟩ := hexDigit_eq_toLower h₂
  obtain ⟨hx₃, h₃⟩ := hexDigit_eq_toLower h₃
  obtain ⟨hx₄, h₄⟩ := hexDigit_eq_toLower h₄
  obtain ⟨hx₅, h₅⟩ := hexDigit_eq_toLower h₅
  obtain ⟨hx₆, h₆⟩ := hexDigit_eq_toLower h₆
  -- every channel takes two of the digits
  unfold ofPacked hexDigits
  rw [hexByte_toUInt8 (x := x₁) hx₂ (by omega), hexByte_toUInt8 (x := x₃) hx₄ (by omega),
    hexByte_toUInt8 (x := x₅) hx₆ (by omega), h₁, h₂, h₃, h₄, h₅, h₆]
  rfl

/-- Colors are told apart by their digits. -/
theorem hexDigits_injective {a b : Color} (h : a.hexDigits = b.hexDigits) : a = b := by
  have hpacked := hexNumber?_hexDigits a
  rw [h, hexNumber?_hexDigits] at hpacked
  rw [← ofPacked_packed a, ← ofPacked_packed b, Option.some.inj hpacked]

/-- What is left of a text that spells a color are its digits. -/
theorem Spells.dropHash_trimBlanks {s : String} {digits : List Char} (h : Spells s digits) :
    dropHash (trimBlanks s.toList) = digits := by
  obtain ⟨front, sign, back, htext, hsign, hfront, hback⟩ := h.text
  obtain ⟨first, rest, rfl⟩ := List.exists_cons_of_length_eq_add_one h.length_eq
  obtain ⟨last, hlast⟩ : ∃ last, (first :: rest).getLast? = some last :=
    ⟨_, List.getLast?_eq_some_getLast (List.cons_ne_nil first rest)⟩
  -- neither a digit nor the number sign is white space, and the first digit is no number sign
  obtain ⟨hfirst, hnoSign⟩ := not_blank_of_mem_hexAlphabet
    (h.mem_hexAlphabet first List.mem_cons_self)
  obtain ⟨hlastBlank, -⟩ := not_blank_of_mem_hexAlphabet
    (h.mem_hexAlphabet last (List.mem_of_getLast? hlast))
  rcases List.mem_pair.mp hsign with rfl | rfl
  · rw [htext, List.nil_append, trimBlanks_append hfront hback rfl hfirst hlast hlastBlank]
    unfold dropHash
    split
    · next heq => exact absurd (List.cons.inj heq).1 hnoSign
    · rfl
  · have hlast' : ('#' :: first :: rest).getLast? = some last := by
      rw [List.getLast?_cons_cons, hlast]
    rw [htext, List.cons_append, List.nil_append,
      trimBlanks_append hfront hback rfl (by decide) hlast' hlastBlank]
    rfl

/-- A text has a number sign in front, or is left as it is without one. -/
theorem exists_dropHash (text : List Char) :
    ∃ sign : List Char, text = sign ++ dropHash text ∧ sign ∈ [[], ['#']] := by
  unfold dropHash
  split
  · exact ⟨['#'], rfl, by decide⟩
  · exact ⟨[], rfl, by decide⟩

/-- A text that spells a color is read as the color of its digits. -/
theorem Spells.exists_ofHex? {s : String} {digits : List Char} (h : Spells s digits) :
    ∃ c, ofHex? s = some c ∧ c.hexDigits = digits.map Char.toLower := by
  obtain ⟨v, hv⟩ := Option.isSome_iff_exists.mp (isSome_hexNumber?_iff.mpr h.mem_hexAlphabet)
  refine ⟨ofPacked v, ?_, hexDigits_ofPacked h.length_eq hv⟩
  unfold ofHex?
  dsimp only
  rw [h.dropHash_trimBlanks, if_pos h.length_eq, hv, Option.map_some]

/-- **Grammar.** Exactly the texts that spell a color are read, as the color that has their digits
    in lower case. -/
theorem ofHex?_eq_some_iff {s : String} {c : Color} :
    ofHex? s = some c ↔ ∃ digits, Spells s digits ∧ c.hexDigits = digits.map Char.toLower := by
  constructor
  · intro h
    unfold ofHex? at h
    obtain ⟨hlength, hnumber⟩ := Option.ite_none_right_eq_some.mp h
    obtain ⟨v, hv, rfl⟩ := Option.map_eq_some_iff.mp hnumber
    obtain ⟨front, back, htext, hfront, hback⟩ := exists_trimBlanks s.toList
    obtain ⟨sign, hdrop, hsign⟩ := exists_dropHash (trimBlanks s.toList)
    have hdigits := isSome_hexNumber?_iff.mp (Option.isSome_of_eq_some hv)
    refine ⟨_, ⟨⟨front, sign, back, ?_, hsign, hfront, hback⟩, hlength, hdigits⟩,
      hexDigits_ofPacked hlength hv⟩
    rw [← hdrop]
    exact htext
  · rintro ⟨digits, hspells, hc⟩
    obtain ⟨c', hread, hc'⟩ := hspells.exists_ofHex?
    rwa [hexDigits_injective (hc.trans hc'.symm)]

/-- A color is read exactly from the texts that spell one. -/
theorem isSome_ofHex?_iff (s : String) :
    (ofHex? s).isSome = true ↔ ∃ digits, Spells s digits := by
  rw [Option.isSome_iff_exists]
  constructor
  · rintro ⟨c, hc⟩
    obtain ⟨digits, hspells, -⟩ := ofHex?_eq_some_iff.mp hc
    exact ⟨digits, hspells⟩
  · rintro ⟨digits, hspells⟩
    obtain ⟨c, hc, -⟩ := hspells.exists_ofHex?
    exact ⟨c, hc⟩

instance (s : String) : Decidable (∃ digits, Spells s digits) :=
  decidable_of_iff _ (isSome_ofHex?_iff s)

theorem ofHex_eq_ok_iff {s : String} {c : Color} : ofHex s = .ok c ↔ ofHex? s = some c := by
  unfold ofHex
  cases ofHex? s with
  | none => simp
  | some c' => simp

end Color

end LightShow
