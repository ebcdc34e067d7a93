import LightShow.Proofs.Project.Json

namespace LightShow

/-!
# The texts of a project

* `Cue.exists_readFrom` — what the fields of a tree hold from which a cue is read;
* `Project.hasFiniteFloats_of_parse` — a project that is read from a text has finite floats only;
* `Project.parse_toJson_iff` — the compact and the indented text of a project are read as that
  project exactly if its floats are finite.

A number that is too large for a double is refused when it is read, so that every project that was
read once can be written and read again.
-/

/-! ### Numbers that are read -/

/-- A literal is read as a finite double or not at all. -/
theorem Numeral.isFinite_of_toDouble? {n : Numeral} {d : Double} (h : n.toDouble? = some d) :
    d.isFinite = true := by
  unfold toDouble? at h
  dsimp only at h
  split at h
  · next hfinite => exact Option.some.inj h ▸ hfinite
  · exact nomatch h

namespace Json

variable {α β : Type}

/-- No tree is read as an infinity or a NaN. -/
theorem isFinite_of_toDouble? {j : Json} {d : Double} (h : j.toDouble? = some d) :
    d.isFinite = true := by
  cases j with
  | number literal => exact Numeral.isFinite_of_toDouble? h
  | _ => exact nomatch h

/-- A number that has to be there is finite if it is read. -/
theorem isFinite_of_required? {field : Option Json} {d : Double}
    (h : required? toDouble? field = some d) : d.isFinite = true := by
  obtain ⟨j, -, hj⟩ := Option.bind_eq_some_iff.mp h
  exact isFinite_of_toDouble? hj

/-- A number that may be missing is finite if it is there. -/
theorem isFinite_of_optional? {field : Option Json} {value : Option Double}
    (h : optional? toDouble? field = some value) : ∀ x, value = some x → x.isFinite = true := by
  rintro x rfl
  unfold optional? at h
  split at h
  · exact nomatch h
  · exact nomatch h
  · next j _ =>
    obtain ⟨d, hd, heq⟩ := Option.map_eq_some_iff.mp h
    exact Option.some.inj heq ▸ isFinite_of_toDouble? hd

/-- Every value of a list that is read is read from one of the items. -/
theorem exists_of_mem_mapM {read : β → Option α} {items : List β} {values : List α}
    (h : items.mapM read = some values) : ∀ v ∈ values, ∃ item ∈ items, read item = some v := by
  induction items generalizing values with
  | nil =>
    rw [← Option.some.inj h]
    exact fun _ hv => nomatch hv
  | cons item items ih =>
    rw [List.mapM_cons] at h
    obtain ⟨first, hfirst, h⟩ := Option.bind_eq_some_iff.mp h
    obtain ⟨rest, hrest, h⟩ := Option.bind_eq_some_iff.mp h
    rw [← Option.some.inj h]
    intro v hv
    rcases List.mem_cons.mp hv with rfl | hv
    · exact ⟨item, List.mem_cons_self, hfirst⟩
    · obtain ⟨other, hother, hread⟩ := ih hrest v hv
      exact ⟨other, List.mem_cons_of_mem _ hother, hread⟩

/-- Every member of a list was read from an item. -/
theorem exists_of_mem_toList? {read : Json → Option α} {j : Json} {values : List α}
    (h : j.toList? read = some values) : ∀ v ∈ values, ∃ item, read item = some v := by
  cases j with
  | array items =>
    intro v hv
    obtain ⟨item, -, hitem⟩ := exists_of_mem_mapM h v hv
    exact ⟨item, hitem⟩
  | _ => exact nomatch h

end Json

/-! ### Projects that are read -/

namespace Cue

/-- A cue is read from these values of its fields. -/
structure ReadFrom (c : Cue) (id suitId startTime duration kind color secondaryColor variant
    direction pose speed brightness rangeStart rangeEnd : Option Json) : Prop where
  id : Json.required? Json.toText? id = some c.id
  suitId : Json.required? Json.toUInt8? suitId = some c.suitId
  startTime : Json.required? Json.toDouble? startTime = some c.startTime
  duration : Json.required? Json.toDouble? duration = some c.duration
  kind : Json.required? (Json.choice? EffectKind.all EffectKind.name) kind = some c.kind
  color : Json.required? Color.ofJson? color = some c.color
  secondaryColor : Json.optional? Color.ofJson? secondaryColor = some c.secondaryColor
  variant : Json.optional? (Json.choice? HueSpread.all HueSpread.name) variant = some c.variant
  direction : Json.optional? (Json.choice? Direction.all Direction.name) direction
    = some c.direction
  pose : Json.optional? (Json.choice? Pose.all Pose.name) pose = some c.pose
  speed : Json.optional? Json.toDouble? speed = some c.speed
  brightness : Json.optional? Json.toDouble? brightness = some c.brightness
  rangeStart : Json.required? Json.toUInt16? rangeStart = some c.rangeStart
  rangeEnd : Json.required? Json.toUInt16? rangeEnd = some c.rangeEnd

/-- A tree from which a cue is read has fields from which its settings are read. -/
theorem exists_readFrom {j : Json} {c : Cue} (h : ofJson? j = some c) :
    ∃ id suitId startTime duration kind color secondaryColor variant direction pose speed brightness
        rangeStart rangeEnd,
      j.fields? fieldNames = some [id, suitId, startTime, duration, kind, color, secondaryColor,
        variant, direction, pose, speed, brightness, rangeStart, rangeEnd]
      ∧ c.ReadFrom id suitId startTime duration kind color secondaryColor variant direction pose
        speed brightness rangeStart rangeEnd := by
  unfold ofJson? at h
  obtain ⟨values, hvalues, h⟩ := Option.bind_eq_some_iff.mp h
  split at h
  · -- the settings are read in the order of the fields
    obtain ⟨_, hid, h⟩ := Option.bind_eq_some_iff.mp h
    obtain ⟨_, hsuitId, h⟩ := Option.bind_eq_some_iff.mp h
    obtain ⟨_, hstartTime, h⟩ := Option.bind_eq_some_iff.mp h
    obtain ⟨_, hduration, h⟩ := Option.bind_eq_some_iff.mp h
    obtain ⟨_, hkind, h⟩ := Option.bind_eq_some_iff.mp h
    obtain ⟨_, hcolor, h⟩ := Option.bind_eq_some_iff.mp h
    obtain ⟨_, hsecondaryColor, h⟩ := Option.bind_eq_some_iff.mp h
    obtain ⟨_, hvariant, h⟩ := Option.bind_eq_some_iff.mp h
    obtain ⟨_, hdirection, h⟩ := Option.bind_eq_some_iff.mp h
    obtain ⟨_, hpose, h⟩ := Option.bind_eq_some_iff.mp h
    obtain ⟨_, hspeed, h⟩ := Option.bind_eq_some_iff.mp h
    obtain ⟨_, hbrightness, h⟩ := Option.bind_eq_some_iff.mp h
    obtain ⟨_, hrangeStart, h⟩ := Option.bind_eq_some_iff.mp h
    obtain ⟨_, hrangeEnd, h⟩ := Option.bind_eq_some_iff.mp h
    rw [← Option.some.inj h]
    exact ⟨_, _, _, _, _, _, _, _, _, _, _, _, _, _, hvalues, hid, hsuitId, hstartTime, hduration,
      hkind, hcolor, hsecondaryColor, hvariant, hdirection, hpose, hspeed, hbrightness, hrangeStart,
      hrangeEnd⟩
  · exact nomatch h

/-- A cue that is read has finite floats. -/
theorem hasFiniteFloats_of_ofJson? {j : Json} {c : Cue} (h : ofJson? j = some c) :
    c.HasFiniteFloats := by
  obtain ⟨_, _, _, _, _, _, _, _, _, _, _, _, _, _, -, hread⟩ := exists_readFrom h
  exact ⟨Json.isFinite_of_required? hread.startTime, Json.isFinite_of_required? hread.duration,
    Json.isFinite_of_optional? hread.speed, Json.isFinite_of_optional? hread.brightness⟩

end Cue

namespace Project

theorem hasFiniteFloats_of_ofJson? {j : Json} {p : Project} (h : ofJson? j = some p) :
    p.HasFiniteFloats := by
  unfold ofJson? at h
  obtain ⟨values, -, h⟩ := Option.bind_eq_some_iff.mp h
  split at h
  · obtain ⟨suits, -, h⟩ := Option.bind_eq_some_iff.mp h
    obtain ⟨cues, hcues, h⟩ := Option.bind_eq_some_iff.mp h
    obtain ⟨duration, -, h⟩ := Option.bind_eq_some_iff.mp h
    obtain ⟨version, -, h⟩ := Option.bind_eq_some_iff.mp h
    obtain ⟨list, -, hlist⟩ := Option.bind_eq_some_iff.mp hcues
    rw [← Option.some.inj h]
    intro c hc
    obtain ⟨item, hitem⟩ := Json.exists_of_mem_toList? hlist c hc
    exact Cue.hasFiniteFloats_of_ofJson? hitem
  · exact nomatch h

/-- **Finite floats.** A project that is read from a text has no infinite numbers and no NaN. -/
theorem hasFiniteFloats_of_parse {text : String} {p : Project} (h : parse text = .ok p) :
    p.HasFiniteFloats := by
  unfold parse at h
  split at h
  · next p' hread =>
    obtain ⟨j, -, hj⟩ := Option.bind_eq_some_iff.mp hread
    exact Except.ok.inj h ▸ hasFiniteFloats_of_ofJson? hj
  · exact nomatch h

/-! ### Round trip -/

theorem parse_eq_ok {text : String} {p : Project} (h : (Json.parse? text).bind ofJson? = some p) :
    parse text = .ok p := by
  unfold parse
  rw [h]

/-- A text is read as a project whose tree it spells, exactly if that has finite floats. -/
theorem parse_eq_ok_iff {text : String} {p : Project} (h : Json.parse? text = some p.toJson) :
    parse text = .ok p ↔ p.HasFiniteFloats := by
  constructor
  · exact hasFiniteFloats_of_parse
  · intro hfinite
    apply parse_eq_ok
    rw [h, Option.bind_some, ofJson?_toJson hfinite]

/-- **Round trip.** The compact and the indented text of a project are read as that project,
    whatever its strings hold and whichever settings are left out, exactly if its floats are finite.
    Equal projects have equal bits in their floats and equal orders in their lists. -/
theorem parse_toJson_iff (p : Project) :
    (parse p.toJson.compact = .ok p ↔ p.HasFiniteFloats)
      ∧ (parse p.toJson.pretty = .ok p ↔ p.HasFiniteFloats) :=
  ⟨parse_eq_ok_iff (Json.parse?_compact p.toJson), parse_eq_ok_iff (Json.parse?_pretty p.toJson)⟩

/-- Two suits with one id, a cue with every setting and one without any, the negative zero, the
    least and the greatest number, and strings that have to be escaped. -/
def varied : Project where
  suits := [
    ⟨255, "\"\\/\x08\n\x1f\x7f", 65535, (NameTable.empty.insert "é" 4294967295).insert "" 0⟩,
    ⟨255, "", 0, .empty⟩]
  cues := [
    { id := "𝄞\x00"
      suitId := 0
      startTime := ⟨0x8000000000000000⟩
      duration := ⟨0x0000000000000001⟩
      kind := .bodyWipeHorizontal
      color := ⟨0, 0x80, 0xff⟩
      secondaryColor := some .black
      variant := some .uniform
      direction := some .backward
      pose := some .handsUp
      speed := some ⟨0xffefffffffffffff⟩
      brightness := some ⟨0x3fb999999999999a⟩
      rangeStart := 65535
      rangeEnd := 0 },
    .plain "" 255 .randomFill 0 0 .black 0 0]
  duration := 4294967295
  version := "0.9"

theorem parse_varied :
    parse varied.toJson.compact = .ok varied ∧ parse varied.toJson.pretty = .ok varied := by
  have hfinite : varied.HasFiniteFloats := by
    intro c hc
    simp only [varied, List.mem_cons, List.not_mem_nil, or_false] at hc
    rcases hc with rfl | rfl
    · refine ⟨by decide, by decide, ?_, ?_⟩
      · rintro x ⟨⟩
        decide
      · rintro x ⟨⟩
        decide
    · exact ⟨by decide, by decide, nofun, nofun⟩
  exact ⟨(parse_toJson_iff varied).1.mpr hfinite, (parse_toJson_iff varied).2.mpr hfinite⟩

end Project

end LightShow
