import LightShow.Proofs.Project.Fields

namespace LightShow

/-!
# Integers are read as they stand in the text

An integer is read from a literal without sign, point and exponent whose value is below a bound, and
as that value. The digits are read as a number of any size before it is compared with the bound, so
nothing is left out of a literal that has too many of them.

* `Json.toNat?_eq_some_iff` — the trees from which an integer is read;
* `Json.Gives`, `Json.gives_iff` — the value that a record gives for a field, and what is found of
  it;
* `Project.IntegersFrom` — a project whose integers are those of a tree;
* `Project.IntegerEdit` — another value in the place of one integer;
* `Project.parse_integers` — the integers of a text that is read, and the literals that are
  refused.
-/

open Json

namespace Json

variable {α β γ : Type} {names : List String} {name : String} {value : Json} {j : Json}

/-! ### Literals -/

/-- An integer is read from its own literal, below the bound. -/
theorem toNat?_eq_some_iff {bound n : Nat} :
    j.toNat? bound = some n ↔ j = .nat n ∧ n < bound := by
  refine ⟨fun h => ?_, fun ⟨hj, hn⟩ => hj ▸ toNat?_nat hn⟩
  cases j with
  | number literal =>
    obtain ⟨negative, whole, fraction, exponent⟩ := literal
    obtain ⟨hwhole, hbound⟩ := Option.filter_eq_some_iff.mp h
    obtain ⟨hplain, heq⟩ := Option.ite_none_right_eq_some.mp hwhole
    obtain rfl : whole = n := Option.some.inj heq
    simp only [Bool.and_eq_true, Bool.not_eq_true', List.isEmpty_iff, Option.isNone_iff_eq_none]
      at hplain
    obtain ⟨⟨rfl, rfl⟩, rfl⟩ := hplain
    exact ⟨rfl, of_decide_eq_true hbound⟩
  | _ => exact nomatch h

/-- A literal that is refused: with a sign, a point or an exponent, or with a value that is too
    large. -/
theorem isSome_toNat?_number_iff (bound : Nat) (literal : Numeral) :
    ((Json.number literal).toNat? bound).isSome = true
      ↔ ¬ (literal.negative = true ∨ literal.fraction ≠ [] ∨ literal.exponent ≠ none
        ∨ bound ≤ literal.whole) := by
  obtain ⟨negative, whole, fraction, exponent⟩ := literal
  rw [Option.isSome_iff_exists]
  constructor
  · rintro ⟨n, hn⟩
    obtain ⟨heq, hlt⟩ := toNat?_eq_some_iff.mp hn
    obtain ⟨rfl, rfl, rfl, rfl⟩ := Numeral.mk.inj (Json.number.inj heq)
    simpa using hlt
  · intro h
    simp only [not_or, not_not, Bool.not_eq_true, Nat.not_le] at h
    obtain ⟨rfl, rfl, rfl, hlt⟩ := h
    exact ⟨whole, toNat?_eq_some_iff.mpr ⟨rfl, hlt⟩⟩

/-- An integer of some width is read from its own literal, if it is the integer that it was made
    from. -/
theorem eq_nat_of_map {bound : Nat} {ofNat : Nat → α} {toNat : α → Nat}
    (hofNat : ∀ {m}, m < bound → toNat (ofNat m) = m) {n : α}
    (h : (j.toNat? bound).map ofNat = some n) : j = .nat (toNat n) := by
  obtain ⟨m, hm, rfl⟩ := Option.map_eq_some_iff.mp h
  obtain ⟨hj, hlt⟩ := toNat?_eq_some_iff.mp hm
  rw [hj, hofNat hlt]

/-- What is read as a byte is the literal of its number; so it is for 16 and for 32 bits. -/
theorem eq_nat_of_toUInt8? {n : UInt8} (h : j.toUInt8? = some n) : j = .nat n.toNat :=
  eq_nat_of_map UInt8.toNat_ofNat_of_lt' h

theorem eq_nat_of_toUInt16? {n : UInt16} (h : j.toUInt16? = some n) : j = .nat n.toNat :=
  eq_nat_of_map UInt16.toNat_ofNat_of_lt' h

theorem eq_nat_of_toUInt32? {n : UInt32} (h : j.toUInt32? = some n) : j = .nat n.toNat :=
  eq_nat_of_map UInt32.toNat_ofNat_of_lt' h

/-- Whether an integer of some width is read in a new place depends on the bound alone. -/
theorem hingesOn_put_map (new : Json) (bound : Nat) (ofNat : Nat → α) :
    HingesOn (fun j => (j.toNat? bound).map ofNat) (Put new)
      ((new.toNat? bound).isSome = true) := by
  rintro j j' - rfl
  dsimp only
  rw [Option.isSome_map]

/-! ### Fields, lists and tables -/

/-- The value that a record gives for a field: a member of the name of the field, or an item in the
    position of the field. -/
inductive Gives (names : List String) (name : String) (value : Json) : Json → Prop where
  | member (before after : List (Option String × Json)) :
      Gives names name value (.object (before ++ (some name, value) :: after))
  | position (before after : List Json) (hname : names[before.length]? = some name) :
      Gives names name value (.array (before ++ value :: after))

/-- What a record gives for a field is found, since nothing else is given for it. -/
theorem Gives.getElem? (h : Gives names name value j) {values : List (Option Json)}
    (hnodup : names.Nodup) {i : Nat} (hvalues : j.fields? names = some values)
    (hname : names[i]? = some name) : values[i]? = some (some value) := by
  cases h with
  | member before after =>
    rw [fields?_object] at hvalues
    obtain ⟨named, hnamed, hfields⟩ := Option.bind_eq_some_iff.mp hvalues
    obtain ⟨honce, hmap⟩ := Option.ite_none_right_eq_some.mp hfields
    obtain ⟨-, rfl⟩ := named?_eq_some_iff.mp hnamed
    have hsplit : (before ++ (some name, value) :: after).filterMap namedMember?
        = before.filterMap namedMember? ++ (name, value) :: after.filterMap namedMember? := by
      simp [namedMember?]
    -- there is one member with the name, so that the look-up cannot find another one
    have hone := List.all_eq_true.mp honce name (List.mem_of_getElem? hname)
    rw [hsplit] at hone
    rw [← Option.some.inj hmap, List.getElem?_map, hname, Option.map_some, hsplit,
      lookup_member (of_decide_eq_true hone)]
  | position before after hposition =>
    obtain ⟨hi, -⟩ := List.getElem?_eq_some_iff.mp hname
    obtain rfl := (List.getElem?_inj hi hnodup).mp (hname.trans hposition.symm)
    obtain ⟨-, hmap⟩ := Option.ite_none_right_eq_some.mp hvalues
    rw [← Option.some.inj hmap]
    simp

/-- An object gives the value of the member with the name. -/
theorem gives_of_lookup {members : List (Option String × Json)} {named : List (String × Json)}
    (hnamed : named? members = some named) (h : named.lookup name = some value) :
    Gives names name value (.object members) := by
  obtain ⟨-, rfl⟩ := named?_eq_some_iff.mp hnamed
  rw [lookup_eq] at h
  obtain ⟨⟨key, value'⟩, hhead, rfl⟩ := Option.map_eq_some_iff.mp h
  obtain ⟨hmem, hkey⟩ := List.mem_filter.mp (List.mem_of_head? hhead)
  obtain rfl : key = name := eq_of_beq hkey
  obtain ⟨⟨first, value''⟩, hmember, hpair⟩ := List.mem_filterMap.mp hmem
  obtain ⟨text, rfl, heq⟩ := Option.map_eq_some_iff.mp hpair
  obtain ⟨rfl, rfl⟩ := Prod.mk.inj heq
  obtain ⟨before, after, rfl⟩ := List.append_of_mem hmember
  exact .member before after

/-- An array gives the item at the place of the name. -/
theorem gives_of_getElem? {items : List Json} {i : Nat} (hname : names[i]? = some name)
    (h : items[i]? = some value) : Gives names name value (.array items) := by
  obtain ⟨hi, hvalue⟩ := List.getElem?_eq_some_iff.mp h
  have hsplit : items = items.take i ++ value :: items.drop (i + 1) := by
    rw [← hvalue, ← List.drop_eq_getElem_cons hi, List.take_append_drop]
  have hposition : names[(items.take i).length]? = some name := by
    rwa [List.length_take_of_le (Nat.le_of_lt hi)]
  rw [hsplit]
  exact .position _ _ hposition

/-- **Fields.** What is found for a field of a record is what the record gives for it. -/
theorem gives_iff {values : List (Option Json)} (hnodup : names.Nodup) {i : Nat}
    (hvalues : j.fields? names = some values) (hname : names[i]? = some name) :
    Gives names name value j ↔ values[i]? = some (some value) := by
  refine ⟨fun h => h.getElem? hnodup hvalues hname, fun h => ?_⟩
  cases j with
  | object members =>
    rw [fields?_object] at hvalues
    obtain ⟨named, hnamed, hfields⟩ := Option.bind_eq_some_iff.mp hvalues
    obtain ⟨-, hmap⟩ := Option.ite_none_right_eq_some.mp hfields
    rw [← Option.some.inj hmap, List.getElem?_map, hname, Option.map_some] at h
    exact gives_of_lookup hnamed (Option.some.inj h)
  | array items =>
    obtain ⟨-, hmap⟩ := Option.ite_none_right_eq_some.mp hvalues
    rw [← Option.some.inj hmap, List.getElem?_append] at h
    split at h
    · rw [List.getElem?_map] at h
      obtain ⟨item, hitem, heq⟩ := Option.map_eq_some_iff.mp h
      exact gives_of_getElem? hname (Option.some.inj heq ▸ hitem)
    · -- behind the items nothing is given
      have hnone := List.eq_of_mem_replicate (List.mem_of_getElem? h)
      exact absurd hnone (Option.some_ne_none value)
  | _ => exact nomatch hvalues

/-- A field that must be there holds what its reader was given. -/
theorem eq_of_required? {read : Json → Option α} {field : Option Json} {value : α}
    (hread : ∀ {j'}, read j' = some value → j' = j) (h : required? read field = some value) :
    field = some j := by
  obtain ⟨j', rfl, hj'⟩ := Option.bind_eq_some_iff.mp h
  rw [hread hj']

/-- Values that are read one by one stand each for its own item. -/
theorem forall₂_of_mapM {read : β → Option γ} {R : γ → β → Prop}
    (hread : ∀ b c, read b = some c → R c b) {items : List β} {values : List γ}
    (h : items.mapM read = some values) : List.Forall₂ R values items := by
  induction items generalizing values with
  | nil => exact Option.some.inj h ▸ .nil
  | cons item items ih =>
    rw [List.mapM_cons] at h
    obtain ⟨first, hfirst, h⟩ := Option.bind_eq_some_iff.mp h
    obtain ⟨rest, hrest, h⟩ := Option.bind_eq_some_iff.mp h
    exact Option.some.inj h ▸ .cons (hread item first hfirst) (ih hrest)

/-- What holds of every item that is read holds of the items of a list. -/
theorem exists_of_toList? {read : Json → Option α} {values : List α} {R : α → Json → Prop}
    (hread : ∀ item value, read item = some value → R value item)
    (h : j.toList? read = some values) :
    ∃ items, j = .array items ∧ List.Forall₂ R values items := by
  cases j with
  | array items => exact ⟨items, rfl, forall₂_of_mapM hread h⟩
  | _ => exact nomatch h

/-- The entries of a table stand in the object in their own order, each name with its value. -/
theorem exists_of_toTable? {read : Json → Option α} {write : α → Json} {table : NameTable α}
    (hread : ∀ item value, read item = some value → item = write value)
    (h : j.toTable? read = some table) : ∃ entries : List (String × α),
      j = .object (entries.map fun entry => (some entry.1, write entry.2))
      ∧ table = .ofList entries := by
  cases j with
  | object members =>
    obtain ⟨entries, hentries, rfl⟩ := Option.map_eq_some_iff.mp h
    have hmember : ∀ (member : Option String × Json) (entry : String × α),
        tableMember? read member = some entry → (some entry.1, write entry.2) = member := by
      rintro ⟨name, item⟩ entry hentry
      obtain ⟨text, rfl, hentry⟩ := Option.bind_eq_some_iff.mp hentry
      obtain ⟨value, hvalue, rfl⟩ := Option.map_eq_some_iff.mp hentry
      rw [hread item value hvalue]
    have hmap := List.forall₂_map_left_iff.mpr (forall₂_of_mapM hmember hentries)
    rw [List.forall₂_eq_eq_eq] at hmap
    exact ⟨entries, by rw [hmap], rfl⟩
  | _ => exact nomatch h

end Json

/-! ### Projects -/

/-- The integers of a suit are those that a tree gives. The counts of the parts may be missing; if a
    part is counted more than once, its last count counts. -/
structure Suit.IntegersFrom (s : Suit) (j : Json) : Prop where
  id : Gives fieldNames "id" (.nat s.id.toNat) j
  ledCount : Gives fieldNames "ledCount" (.nat s.ledCount.toNat) j
  parts : (s.parts = .empty ∧ ∀ value, ¬ Gives fieldNames "parts" value j)
    ∨ ∃ counts : List (String × UInt32), s.parts = .ofList counts ∧ Gives fieldNames "parts"
      (.object (counts.map fun part => (some part.1, .nat part.2.toNat))) j

/-- The integers of a cue are those that a tree gives. -/
structure Cue.IntegersFrom (c : Cue) (j : Json) : Prop where
  suitId : Gives fieldNames "suitId" (.nat c.suitId.toNat) j
  rangeStart : Gives fieldNames "ledRangeStart" (.nat c.rangeStart.toNat) j
  rangeEnd : Gives fieldNames "ledRangeEnd" (.nat c.rangeEnd.toNat) j

/-- The integers of a project are those that a tree gives, of its suits and cues those that the
    items of the two arrays give one by one. -/
structure Project.IntegersFrom (p : Project) (j : Json) : Prop where
  suits : ∃ items, Gives fieldNames "suits" (.array items) j
    ∧ List.Forall₂ Suit.IntegersFrom p.suits items
  cues : ∃ items, Gives fieldNames "cues" (.array items) j
    ∧ List.Forall₂ Cue.IntegersFrom p.cues items
  duration : Gives fieldNames "duration" (.nat p.duration.toNat) j

/-- The integers of a suit are those of its tree. -/
theorem Suit.integersFrom_of_ofJson? {j : Json} {s : Suit} (h : ofJson? j = some s) :
    s.IntegersFrom j := by
  obtain ⟨id, name, ledCount, parts, hfields, hid, -, hledCount, hparts⟩ := exists_fields h
  have hnodup : fieldNames.Nodup := by decide
  obtain rfl := eq_of_required? eq_nat_of_toUInt8? hid
  obtain rfl := eq_of_required? eq_nat_of_toUInt16? hledCount
  refine ⟨(gives_iff (i := 0) hnodup hfields rfl).mpr rfl,
    (gives_iff (i := 2) hnodup hfields rfl).mpr rfl, ?_⟩
  cases parts with
  | none =>
    have hmissing : ∀ value, ¬ Gives fieldNames "parts" value j := fun value hgives =>
      nomatch (gives_iff (i := 3) hnodup hfields rfl).mp hgives
    exact .inl ⟨(Option.some.inj hparts).symm, hmissing⟩
  | some item =>
    obtain ⟨counts, rfl, htable⟩ := exists_of_toTable? (fun _ _ => eq_nat_of_toUInt32?) hparts
    exact .inr ⟨counts, htable, (gives_iff (i := 3) hnodup hfields rfl).mpr rfl⟩

/-- The integers of a cue are those of its tree. -/
theorem Cue.integersFrom_of_ofJson? {j : Json} {c : Cue} (h : ofJson? j = some c) :
    c.IntegersFrom j := by
  obtain ⟨_, _, _, _, _, _, _, _, _, _, _, _, _, _, hfields, hread⟩ := exists_readFrom h
  have hnodup : fieldNames.Nodup := by decide
  obtain rfl := eq_of_required? eq_nat_of_toUInt8? hread.suitId
  obtain rfl := eq_of_required? eq_nat_of_toUInt16? hread.rangeStart
  obtain rfl := eq_of_required? eq_nat_of_toUInt16? hread.rangeEnd
  exact ⟨(gives_iff (i := 1) hnodup hfields rfl).mpr rfl,
    (gives_iff (i := 12) hnodup hfields rfl).mpr rfl,
    (gives_iff (i := 13) hnodup hfields rfl).mpr rfl⟩

namespace Project

/-- The integers of a project are those of its tree. -/
theorem integersFrom_of_ofJson? {j : Json} {p : Project} (h : ofJson? j = some p) :
    p.IntegersFrom j := by
  obtain ⟨suits, cues, duration, version, hfields, hsuits, hcues, hduration, -⟩ := exists_fields h
  have hnodup : fieldNames.Nodup := by decide
  obtain ⟨_, rfl, hsuits⟩ := Option.bind_eq_some_iff.mp hsuits
  obtain ⟨suits, rfl, heach⟩ := exists_of_toList? (fun _ _ => Suit.integersFrom_of_ofJson?) hsuits
  obtain ⟨_, rfl, hcues⟩ := Option.bind_eq_some_iff.mp hcues
  obtain ⟨cues, rfl, heachCue⟩ := exists_of_toList? (fun _ _ => Cue.integersFrom_of_ofJson?) hcues
  obtain rfl := eq_of_required? eq_nat_of_toUInt32? hduration
  exact ⟨⟨suits, (gives_iff (i := 0) hnodup hfields rfl).mpr rfl, heach⟩,
    ⟨cues, (gives_iff (i := 1) hnodup hfields rfl).mpr rfl, heachCue⟩,
    (gives_iff (i := 2) hnodup hfields rfl).mpr rfl⟩

/-! ### Other literals -/

/-- A project in which one of the integers has another value; with the bound of that integer. -/
inductive IntegerEdit (new : Json) : Nat → Json → Json → Prop where
  | duration {j j' : Json} (h : FieldEdit fieldNames "duration" (Put new) j j') :
      IntegerEdit new UInt32.size j j'
  | suitId {j j' : Json} (h : FieldEdit fieldNames "suits"
      (ItemEdit (FieldEdit Suit.fieldNames "id" (Put new))) j j') :
      IntegerEdit new UInt8.size j j'
  | ledCount {j j' : Json} (h : FieldEdit fieldNames "suits"
      (ItemEdit (FieldEdit Suit.fieldNames "ledCount" (Put new))) j j') :
      IntegerEdit new UInt16.size j j'
  | partCount {j j' : Json} (h : FieldEdit fieldNames "suits"
      (ItemEdit (FieldEdit Suit.fieldNames "parts" (MemberEdit (Put new)))) j j') :
      IntegerEdit new UInt32.size j j'
  | cueSuitId {j j' : Json} (h : FieldEdit fieldNames "cues"
      (ItemEdit (FieldEdit Cue.fieldNames "suitId" (Put new))) j j') :
      IntegerEdit new UInt8.size j j'
  | rangeStart {j j' : Json} (h : FieldEdit fieldNames "cues"
      (ItemEdit (FieldEdit Cue.fieldNames "ledRangeStart" (Put new))) j j') :
      IntegerEdit new UInt16.size j j'
  | rangeEnd {j j' : Json} (h : FieldEdit fieldNames "cues"
      (ItemEdit (FieldEdit Cue.fieldNames "ledRangeEnd" (Put new))) j j') :
      IntegerEdit new UInt16.size j j'

/-- A project in which one integer has another value is read if that is an integer below the
    bound. -/
theorem hingesOn_integerEdit (new : Json) (bound : Nat) :
    HingesOn ofJson? (IntegerEdit new bound) ((new.toNat? bound).isSome = true) := by
  -- the readers of the three widths
  have hput8 : HingesOn toUInt8? (Put new) ((new.toNat? UInt8.size).isSome = true) :=
    hingesOn_put_map new UInt8.size UInt8.ofNat
  have hput16 : HingesOn toUInt16? (Put new) ((new.toNat? UInt16.size).isSome = true) :=
    hingesOn_put_map new UInt16.size UInt16.ofNat
  have hput32 : HingesOn toUInt32? (Put new) ((new.toNat? UInt32.size).isSome = true) :=
    hingesOn_put_map new UInt32.size UInt32.ofNat
  intro j j' hj hedit
  cases hedit with
  | duration h =>
    refine HingesOn.field isSome_ofJson?_iff (by decide) (by decide) rfl ?_ j j' hj h
    exact hput32
  | suitId h =>
    refine hingesOn_suitField (by decide) rfl ?_ j j' hj h
    exact hput8
  | ledCount h =>
    refine hingesOn_suitField (by decide) rfl ?_ j j' hj h
    exact hput16
  | partCount h =>
    refine hingesOn_suitField (by decide) rfl ?_ j j' hj h
    exact hput32.toTable?
  | cueSuitId h =>
    refine hingesOn_cueField (by decide) rfl ?_ j j' hj h
    exact hput8
  | rangeStart h =>
    refine hingesOn_cueField (by decide) rfl ?_ j j' hj h
    exact hput16
  | rangeEnd h =>
    refine hingesOn_cueField (by decide) rfl ?_ j j' hj h
    exact hput16

/-- **Integers.** Every integer of a project is given in the text by the literal of just that
    integer. If one of them is replaced by another literal, the text is refused as a document if the
    literal is negative, minus zero too, has a point or an exponent, or has a value that is too
    large by however many digits, and is read as a project in all other cases. -/
theorem parse_integers {text : String} {p : Project} (h : parse text = .ok p) :
    (∃ j : Json, j.WrittenAs text ∧ p.IntegersFrom j)
    ∧ ∀ (j j' : Json) (text' : String) (bound : Nat) (literal : Numeral), j.WrittenAs text →
      IntegerEdit (.number literal) bound j j' → j'.WrittenAs text' →
      ((literal.negative = true ∨ literal.fraction ≠ [] ∨ literal.exponent ≠ none
        ∨ bound ≤ literal.whole) → ∃ detail, parse text' = .error (.malformed detail))
      ∧ (¬ (literal.negative = true ∨ literal.fraction ≠ [] ∨ literal.exponent ≠ none
        ∨ bound ≤ literal.whole) → ∃ p', parse text' = .ok p') := by
  refine ⟨?_, fun j j' text' bound literal hj hedit hj' => ?_⟩
  · obtain ⟨j, hj, hread⟩ := parse_eq_ok_iff_writtenAs.mp h
    exact ⟨j, hj, integersFrom_of_ofJson? hread⟩
  · have hinges := hingesOn_integerEdit (.number literal) bound
    rw [isSome_toNat?_number_iff] at hinges
    obtain ⟨hread, hrefused⟩ := parse_of_hingesOn hinges h hj hedit hj'
    exact ⟨fun hbad => hrefused (not_not_intro hbad), hread⟩

/-- The text of the scene with another literal for the id of its suit. -/
def sceneOf (id : Numeral) : String :=
  (Json.object (sceneMembers (capeMembers.set 0 (some "id", .number id)) flashMembers)).compact

/-- The id of the suit is 1. It is not read from the literal of 2^64 + 1, which is the same modulo
    all powers of two that an integer may have as its bound, nor from those of minus zero and of
    `1e0`, but it may be 255. -/
theorem parse_integers_scene :
    parse (sceneOf ⟨false, 1, [], none⟩) = .ok scene
    ∧ (∃ detail, parse (sceneOf ⟨false, 18446744073709551617, [], none⟩)
      = .error (.malformed detail))
    ∧ (∃ detail, parse (sceneOf ⟨true, 0, [], none⟩) = .error (.malformed detail))
    ∧ (∃ detail, parse (sceneOf ⟨false, 1, [], some 0⟩) = .error (.malformed detail))
    ∧ ∃ p', parse (sceneOf ⟨false, 255, [], none⟩) = .ok p' := by
  have hscene : parse (sceneOf ⟨false, 1, [], none⟩) = .ok scene := parse_scene
  have hedit : ∀ id : Numeral, IntegerEdit (.number id) UInt8.size
      (.object (sceneMembers capeMembers flashMembers))
      (.object (sceneMembers (capeMembers.set 0 (some "id", .number id)) flashMembers)) := fun id =>
    .suitId (.member [] _ (.item [] [] (.member [] _ rfl)))
  have hcases := fun id : Numeral => (parse_integers hscene).2 _ _ _ _ id (writtenAs_compact _)
    (hedit id) (writtenAs_compact _)
  exact ⟨hscene, (hcases _).1 (by decide), (hcases _).1 (by decide), (hcases _).1 (by decide),
    (hcases _).2 (by decide)⟩

end Project

end LightShow
