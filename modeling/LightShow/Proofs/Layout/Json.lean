import LightShow.Command.Run
import LightShow.Proofs.Command.Files
import LightShow.Proofs.Json.Decoding
import LightShow.Proofs.Json.Reading
import LightShow.Proofs.Layout.Check

namespace LightShow

/-!
# Layouts are read as they were written

* `Across.ofJson?_toJson`, `Upright.ofJson?_toJson`, `Segment.ofJson?_toJson`,
  `Layout.ofJson?_toJson` — the tree of a value stands for that value, if its numbers are finite;
* `Layout.parse_eq_ok_iff` — a text of a layout is read as that layout exactly if it has no fault;
* `Layout.parse_printed_iff` — the texts that are printed for a layout are among these.

A layout is checked whenever it is read. What one check has accepted is accepted by the next, since
nothing is lost in between.
-/

/-! ### Rules of a segment -/

/-- A horizontal rule with finite numbers is read as it was written. -/
theorem Across.ofJson?_toJson {x : Across} (h : x.isFinite = true) :
    ofJson? x.toJson = some x := by
  cases x with
  | fixed x =>
    have hx : (Json.double x).toDouble? = some x := Json.toDouble?_double h
    simp [ofJson?, toJson, Json.variant?_record, hx]
  | ramp start delta =>
    obtain ⟨hstart, hdelta⟩ := Bool.and_eq_true_iff.mp h
    simp [ofJson?, toJson, Json.variant?_record, Json.fields?_pair,
      Json.toDouble?_double hstart, Json.toDouble?_double hdelta]

theorem Landmark.find?_name (mark : Landmark) : all.find? (name · == mark.name) = some mark := by
  cases mark <;> decide

@[simp] theorem Landmark.ofJson?_toJson (mark : Landmark) : ofJson? mark.toJson = some mark :=
  Json.choice?_text mark.find?_name

/-- A vertical rule with finite numbers is read as it was written. -/
theorem Upright.ofJson?_toJson {y : Upright} (h : y.isFinite = true) :
    ofJson? y.toJson = some y := by
  cases y with
  | anchor mark => simp [ofJson?, toJson, Json.variant?_record]
  | span first last => simp [ofJson?, toJson, Json.variant?_record, Json.fields?_pair]
  | offset mark distance =>
    have hdistance : (Json.double distance).toDouble? = some distance := Json.toDouble?_double h
    simp [ofJson?, toJson, Json.variant?_record, Json.fields?_pair, hdistance]
  | pocket => rfl

/-! ### Segments and layouts -/

/-- The values of the fields of a segment. -/
def Segment.fieldValues (s : Segment) : List (Option Json) :=
  [some (.text s.part), some (.nat s.last.toNat), some s.x.toJson, some s.y.toJson]

/-- The values of a segment are found in its tree. -/
theorem Segment.fields?_toJson (s : Segment) :
    s.toJson.fields? ["part", "last", "x", "y"] = some s.fieldValues := by
  have hrecord : s.toJson
      = .record (Json.written (["part", "last", "x", "y"].zip s.fieldValues)) := rfl
  rw [hrecord]
  exact Json.fields?_record (by decide) rfl

/-- **Segments.** The tree of a segment stands for that segment. -/
theorem Segment.ofJson?_toJson {s : Segment} (hx : s.x.isFinite = true)
    (hy : s.y.isFinite = true) : ofJson? s.toJson = some s := by
  unfold ofJson?
  rw [fields?_toJson, Option.bind_eq_bind, Option.bind_some]
  unfold fieldValues
  simp [Across.ofJson?_toJson hx, Upright.ofJson?_toJson hy]

namespace Layout

/-- All numbers of a layout are finite. -/
def HasFiniteNumbers (layout : Layout) : Prop :=
  ∀ s ∈ layout.segments, s.x.isFinite = true ∧ s.y.isFinite = true

/-- **Layouts.** The tree of a layout stands for that layout, whatever other faults it has. -/
theorem ofJson?_toJson {layout : Layout} (h : layout.HasFiniteNumbers) :
    ofJson? layout.toJson = some layout := by
  have hsegments := Json.toList?_map fun s (hs : s ∈ layout.segments) =>
    Segment.ofJson?_toJson (h s hs).1 (h s hs).2
  have hrecord : layout.toJson = .record (Json.written
      (["segments"].zip [some (.array (layout.segments.map Segment.toJson))])) := rfl
  unfold ofJson?
  rw [hrecord, Json.fields?_record (by decide) rfl]
  simp [hsegments]

/-! ### Reading and checking -/

/-- A checked layout has finite numbers. -/
theorem hasFiniteNumbers_of_check {layout : Layout} (h : layout.check = .ok layout) :
    layout.HasFiniteNumbers := fun s hs =>
  Segment.isFinite_iff.mp ((sound_of_check h).2.finite s hs)

/-- What the check accepts is what it was given. -/
theorem eq_of_check {layout accepted : Layout} (h : layout.check = .ok accepted) :
    layout = accepted := by
  unfold check at h
  split at h
  · exact Except.ok.inj h
  · cases h

/-- A layout that is read from a text has no fault. -/
theorem check_of_parse {text : String} {layout : Layout} (h : parse text = .ok layout) :
    layout.check = .ok layout := by
  obtain ⟨read, -, hcheck⟩ := exists_of_bind_eq_ok h
  obtain rfl := eq_of_check hcheck
  exact hcheck

/-- A text is read as a layout if its tree is one and passes the check. -/
theorem parse_eq_ok {text : String} {layout : Layout}
    (h : (Json.parse? text).bind ofJson? = some layout) (hfault : layout.fault? = none) :
    parse text = .ok layout := by
  unfold parse parseUnchecked check
  rw [h]
  simp only [ok_bind, hfault]

/-- A text that spells the tree of a layout is read as that layout, exactly if it has no fault. -/
theorem parse_eq_ok_iff {text : String} {layout : Layout} (h : layout.toJson.WrittenAs text) :
    parse text = .ok layout ↔ layout.check = .ok layout := by
  refine ⟨check_of_parse, fun hcheck => ?_⟩
  have htree : Json.parse? text = some layout.toJson := Json.parse?_eq_some_iff.mpr h
  refine parse_eq_ok ?_ (check_eq_ok_iff.mp hcheck)
  rw [htree, Option.bind_some, ofJson?_toJson (hasFiniteNumbers_of_check hcheck)]

/-- **Round trip.** The compact and the indented text of a layout, the latter also as a printed line,
    are read as that layout exactly if the check accepts it. Equal layouts have equal bits in their
    numbers, equal names and their segments in one order. -/
theorem parse_printed_iff (layout : Layout) :
    (parse layout.toJson.compact = .ok layout ↔ layout.check = .ok layout)
    ∧ (parse layout.toJson.pretty = .ok layout ↔ layout.check = .ok layout)
    ∧ (parse (layout.toJson.pretty ++ "\n") = .ok layout ↔ layout.check = .ok layout) :=
  ⟨parse_eq_ok_iff (Json.writtenAs_chars Spacing.blank_compact layout.toJson),
    parse_eq_ok_iff (Json.writtenAs_chars Spacing.blank_pretty layout.toJson),
    parse_eq_ok_iff (Json.writtenAs_pretty_line layout.toJson)⟩

/-- One LED, then all others: every kind of rule, the negative zero, the least and the greatest
    number, and names that have to be escaped. -/
def contorted : Layout where
  segments := [
    ⟨"\"\\\n*/", 0, .fixed ⟨0x8000000000000000⟩, .offset .wrist ⟨0x0000000000000001⟩⟩,
    ⟨" é ", 7, .ramp ⟨0x7fefffffffffffff⟩ ⟨0xffefffffffffffff⟩, .span .feet .top⟩,
    ⟨"𝄞", 300, .fixed ⟨0x3fb999999999999a⟩, .anchor .shoulder⟩,
    ⟨"\x00", 65535, .ramp 0 (-1e22), .pocket⟩]

/-- A layout of all kinds of places is read as it was written. -/
theorem parse_contorted :
    contorted.check = .ok contorted
    ∧ parse contorted.toJson.compact = .ok contorted
    ∧ parse contorted.toJson.pretty = .ok contorted := by
  have hcheck : contorted.check = .ok contorted := check_eq_ok_iff.mpr (by decide +kernel)
  obtain ⟨hcompact, hpretty, -⟩ := parse_printed_iff contorted
  exact ⟨hcheck, hcompact.mpr hcheck, hpretty.mpr hcheck⟩

end Layout

/-! ### The standard layout -/

/-- What the program prints when it is asked for the standard layout is read as that layout. -/
theorem parse_stdout_layout (files : Files) :
    (respond ["layout"] files).exit = 0
    ∧ Layout.parse (respond ["layout"] files).stdout = .ok .standard := by
  have hrequest : Request.ofArguments? ["layout"] = some (.run (.layout none)) := by
    decide +kernel
  have houtcome : respond ["layout"] files
      = ⟨0, "" ++ (Layout.standard.toJson.pretty ++ "\n"), "", files⟩ := by
    unfold respond
    rw [hrequest]
    rfl
  rw [houtcome]
  refine ⟨rfl, (Layout.parse_eq_ok_iff ?_).mpr (Layout.check_eq_ok_iff.mpr (by decide +kernel))⟩
  rw [String.empty_append]
  exact Json.writtenAs_pretty_line Layout.standard.toJson

end LightShow
