import LightShow.Proofs.Decimal.Rounding

namespace LightShow

/-!
# Rounding keeps the order

* `roundHalfEven_mono`, `Double.nearest_le_nearest` — a larger numerator is not rounded to a smaller
  number;
* `Double.units_mono`, `Double.units_ofParts` — magnitudes are in the order of their values, and a
  magnitude is made of its parts;
* `Double.nearest_self`, `Double.units_nearest_natCast` — the number one and the natural numbers
  below `2 ^ 53` are exact;
* `Double.value`, `Double.floor_eq_ediv` — the signed value of a number, and its whole part.
-/

/-! ### Rounding to an integer -/

@[simp] theorem roundHalfEven_zero (den : Nat) : roundHalfEven 0 den = 0 := by
  rcases Nat.eq_zero_or_pos den with rfl | hden
  · rfl
  · exact roundHalfEven_eq_zero (by omega)

/-- A larger numerator is not rounded to a smaller integer. -/
theorem roundHalfEven_mono {num num' : Nat} (h : num ≤ num') (den : Nat) :
    roundHalfEven num den ≤ roundHalfEven num' den := by
  have hquotient : num / den ≤ num' / den := Nat.div_le_div_right h
  rcases Nat.eq_or_lt_of_le hquotient with heq | hlt
  · -- of one whole part, so that the rests decide
    have hrest : num % den ≤ num' % den := by
      have hnum := Nat.div_add_mod num den
      have hnum' := Nat.div_add_mod num' den
      rw [heq] at hnum
      omega
    unfold roundHalfEven
    dsimp only
    rw [heq]
    split <;> split <;> omega
  · exact Nat.le_trans (roundHalfEven_le num den)
      (Nat.le_trans hlt (div_le_roundHalfEven num' den))

namespace Double

/-! ### Rounding to a magnitude -/

/-- **Monotonicity.** A larger numerator is not rounded to a smaller magnitude. -/
theorem nearest_le_nearest {num num' : Nat} (h : num ≤ num') (den : Nat) :
    nearest num den ≤ nearest num' den := by
  have hscaled : num * Nat.pow 2 unitBits ≤ num' * Nat.pow 2 unitBits := Nat.mul_le_mul_right _ h
  unfold nearest
  generalize num * Nat.pow 2 unitBits = scaled at hscaled
  generalize num' * Nat.pow 2 unitBits = scaled' at hscaled
  dsimp only
  have hquotient : scaled / den ≤ scaled' / den := Nat.div_le_div_right hscaled
  have hlog : (scaled / den).log2 ≤ (scaled' / den).log2 := by
    by_cases hzero : scaled / den = 0
    · rw [hzero]
      exact Nat.zero_le _
    · have hzero' : scaled' / den ≠ 0 := fun h => hzero (Nat.le_zero.mp (h ▸ hquotient))
      exact (Nat.le_log2 hzero').mpr (Nat.le_trans (Nat.log2_self_le hzero) hquotient)
  by_cases heq : (scaled / den).log2 - 52 = (scaled' / den).log2 - 52
  · rw [heq]
    exact Nat.add_le_add_left (roundHalfEven_mono hscaled _) _
  · -- the larger quotient has a higher leading one, and at most that one is carried into
    have hupper : roundHalfEven scaled (den * Nat.pow 2 ((scaled / den).log2 - 52)) ≤ 2 * binade :=
      roundHalfEven_le_binade (by omega)
    have hlower : binade ≤ roundHalfEven scaled' (den * Nat.pow 2 ((scaled' / den).log2 - 52)) :=
      binade_le_roundHalfEven (by omega)
    have hshift : ((scaled / den).log2 - 52 + 1) * binade
        ≤ ((scaled' / den).log2 - 52) * binade := Nat.mul_le_mul_right _ (by omega)
    rw [Nat.succ_mul] at hshift
    omega

/-- Magnitudes are in the order of their values. -/
theorem units_mono {m n : Nat} (h : m ≤ n) : units m ≤ units n := by
  -- a value that were smaller would be rounded to no larger magnitude
  refine Nat.le_of_not_lt fun hlt => ?_
  have hle := nearest_le_nearest (Nat.le_of_lt hlt) (Nat.pow 2 unitBits)
  rw [nearest_units, nearest_units] at hle
  rw [Nat.le_antisymm h hle] at hlt
  exact Nat.lt_irrefl _ hlt

/-- A larger magnitude has a larger value. -/
theorem units_lt_units {m n : Nat} (h : m < n) : units m < units n := by
  refine Nat.lt_of_le_of_ne (units_mono (Nat.le_of_lt h)) fun heq => Nat.ne_of_lt h ?_
  rw [← nearest_units m, heq, nearest_units]

theorem units_zero : units 0 = 0 := rfl

/-- Zero is not changed by rounding. -/
@[simp] theorem nearest_zero (den : Nat) : nearest 0 den = 0 := by
  have hshift : (0 : Nat).log2 - 52 = 0 := rfl
  unfold nearest
  dsimp only
  rw [Nat.zero_mul, Nat.zero_div, hshift, roundHalfEven_zero, Nat.zero_mul]

/-! ### Exact numbers -/

/-- A magnitude is made of an exponent and a mantissa of fifty-three bits, or of fewer bits if the
    exponent is zero. -/
theorem parts_ofParts {e m : Nat} (hlow : binade ≤ m ∨ e = 0) (hhigh : m < 2 * binade) :
    exponent (e * binade + m) = e ∧ mantissa (e * binade + m) = m := by
  have hbinade : 0 < binade := by decide
  unfold exponent mantissa
  rcases Nat.lt_or_ge m binade with hsmall | hlarge
  · obtain rfl : e = 0 := hlow.resolve_left (Nat.not_le.mpr hsmall)
    rw [Nat.zero_mul, Nat.zero_add, Nat.div_eq_of_lt hsmall, if_pos hsmall]
    exact ⟨rfl, rfl⟩
  · obtain ⟨rest, rfl⟩ := Nat.exists_eq_add_of_le hlarge
    have hrest : rest < binade := by omega
    have hsum : e * binade + (binade + rest) = rest + (e + 1) * binade := by ring
    have hnot : ¬ rest + (e + 1) * binade < binade := by
      rw [Nat.succ_mul]
      omega
    rw [hsum, Nat.add_mul_div_right _ _ hbinade, Nat.div_eq_of_lt hrest, if_neg hnot,
      Nat.add_mul_mod_self_right, Nat.mod_eq_of_lt hrest]
    exact ⟨by omega, rfl⟩

/-- The value of a mantissa with an exponent. -/
theorem units_ofParts {e m : Nat} (hlow : binade ≤ m ∨ e = 0) (hhigh : m < 2 * binade) :
    units (e * binade + m) = m * Nat.pow 2 e := by
  obtain ⟨hexponent, hmantissa⟩ := parts_ofParts hlow hhigh
  unfold units
  rw [hexponent, hmantissa]

/-- The magnitude of the number one. -/
def one : Nat := 1023 * binade

/-- A mantissa that is only the leading one is a power of two. -/
theorem units_power (e : Nat) : units (e * binade + binade) = Nat.pow 2 (52 + e) := by
  rw [units_ofParts (.inl (Nat.le_refl _)) (by decide)]
  exact (Nat.pow_add 2 52 e).symm

/-- The value of one is the number of units in it. -/
theorem units_one : units one = Nat.pow 2 unitBits := by
  have hparts : one = 1022 * binade + binade := rfl
  have hunit : unitBits = 52 + 1022 := rfl
  rw [hparts, hunit, units_power]

/-- A quotient of value one is rounded to one. -/
theorem nearest_self {n : Nat} (hn : 0 < n) : nearest n n = one := by
  rw [← nearest_units one, units_one]
  exact nearest_eq_of_ratio hn unit_pos (Nat.mul_comm _ _)

/-- Less than `2 ^ 53` times a power of two is the value of a magnitude. -/
theorem exists_units_eq {n bits : Nat} (hn : n < 2 ^ 53) (hlow : 52 ≤ bits)
    (hhigh : bits ≤ unitBits) : ∃ m < infinity, units m = n * Nat.pow 2 bits := by
  rcases Nat.eq_zero_or_pos n with rfl | hpos
  · exact ⟨0, by decide, by rw [Nat.zero_mul]; rfl⟩
  · -- the leading one of the number goes to the front of the mantissa
    have hlog : n.log2 < 53 := (Nat.log2_lt (by omega)).mpr hn
    have hleast : 2 ^ n.log2 ≤ n := Nat.log2_self_le (by omega)
    have hgreatest : n < 2 ^ (n.log2 + 1) := Nat.lt_log2_self
    have hbinade : binade = 2 ^ n.log2 * 2 ^ (52 - n.log2) := by
      rw [← Nat.pow_add, Nat.add_sub_cancel' (by omega)]
      rfl
    have hmantissa : binade ≤ n * 2 ^ (52 - n.log2) := hbinade ▸ Nat.mul_le_mul_right _ hleast
    have hmantissa' : n * 2 ^ (52 - n.log2) < 2 * binade := by
      have htwice : 2 * binade = 2 ^ (n.log2 + 1) * 2 ^ (52 - n.log2) := by
        rw [hbinade, Nat.pow_succ]
        ring
      exact htwice ▸ Nat.mul_lt_mul_of_pos_right hgreatest (Nat.two_pow_pos _)
    refine ⟨(n.log2 + (bits - 52)) * binade + n * 2 ^ (52 - n.log2), ?_, ?_⟩
    · have hexponent : (n.log2 + (bits - 52)) * binade ≤ 1074 * binade := by
        unfold unitBits at hhigh
        exact Nat.mul_le_mul_right _ (by omega)
      unfold infinity
      omega
    · have hbits : Nat.pow 2 bits = Nat.pow 2 (52 - n.log2 + (n.log2 + (bits - 52))) :=
        congrArg (Nat.pow 2) (by omega)
      rw [units_ofParts (.inl hmantissa) hmantissa', Nat.mul_assoc, hbits]
      exact congrArg (n * ·) (Nat.pow_add 2 _ _).symm

/-- A natural number below `2 ^ 53` is rounded to a magnitude of its value. -/
theorem units_nearest_natCast {n : Nat} (hn : n < 2 ^ 53) :
    nearest n 1 < infinity ∧ units (nearest n 1) = n * Nat.pow 2 unitBits := by
  obtain ⟨m, hm, hunits⟩ := exists_units_eq hn (by decide) (Nat.le_refl unitBits)
  have hnearest : nearest n 1 = m := by
    rw [← nearest_units m, hunits]
    exact nearest_eq_of_ratio Nat.one_pos unit_pos (Nat.mul_one _).symm
  rw [hnearest]
  exact ⟨hm, hunits⟩

/-! ### Whole parts -/

/-- The value of a number that is no NaN, as a multiple of `2 ^ -1074`. An infinity counts as
    `±2 ^ 1024`. -/
def value (d : Double) : Int :=
  if d.negative then -(units d.magnitude : Int) else units d.magnitude

theorem natCast_unit_pos : (0 : Int) < (Nat.pow 2 unitBits : Nat) := Int.natCast_pos.mpr unit_pos

/-- The whole part of a number is that of its value. -/
theorem floor_eq_ediv (d : Double) : d.floor = d.value / (Nat.pow 2 unitBits : Nat) := by
  have hpower : ∀ bits, (0 : Int) < (Nat.pow 2 bits : Nat) :=
    fun bits => Int.natCast_pos.mpr (Nat.two_pow_pos bits)
  unfold floor value units
  generalize mantissa d.magnitude = m
  generalize exponent d.magnitude = e
  generalize unitBits = bits
  dsimp only
  -- the sign goes with the mantissa
  have hsigned : (if d.negative then -((m * Nat.pow 2 e : Nat) : Int) else (m * Nat.pow 2 e : Nat))
      = (if d.negative then -(m : Int) else m) * (Nat.pow 2 e : Nat) := by
    split <;> simp
  rw [hsigned]
  generalize (if d.negative then -(m : Int) else m) = signed
  split
  · next hle =>
    obtain ⟨more, rfl⟩ := Nat.exists_eq_add_of_le hle
    have hpow : (Nat.pow 2 (bits + more) : Nat) = Nat.pow 2 more * Nat.pow 2 bits := by
      rw [Nat.mul_comm]
      exact Nat.pow_add 2 bits more
    rw [Nat.add_sub_cancel_left, hpow, Int.natCast_mul, ← Int.mul_assoc,
      Int.mul_ediv_cancel _ (Int.ne_of_gt (hpower bits))]
  · next hgt =>
    obtain ⟨more, rfl⟩ := Nat.exists_eq_add_of_le (Nat.le_of_not_le hgt)
    have hpow : (Nat.pow 2 (e + more) : Nat) = Nat.pow 2 more * Nat.pow 2 e := by
      rw [Nat.mul_comm]
      exact Nat.pow_add 2 e more
    rw [Nat.add_sub_cancel_left, hpow, Int.natCast_mul,
      Int.mul_ediv_mul_of_pos_left _ _ (hpower e), Int.shiftRight_eq_div_pow]
    rfl

/-- The whole part of a number that is not negative. -/
theorem floor_eq_div {d : Double} (h : d.negative = false) :
    d.floor = (units d.magnitude / Nat.pow 2 unitBits : Nat) := by
  rw [floor_eq_ediv]
  unfold value
  rw [h, if_neg Bool.false_ne_true, Int.natCast_ediv]

end Double

end LightShow
