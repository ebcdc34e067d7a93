import LightShow.Proofs.Artifact.Recovery
import LightShow.Proofs.Json.Readers
import LightShow.Proofs.Project.Edits

namespace LightShow

/-!
# Which trees are projects

A suit, a cue and a project are records, and a tree stands for one exactly if its fields are taken
by their readers.

* `Suit.isSome_ofJson?_iff`, `Cue.isSome_ofJson?_iff`, `Project.isSome_ofJson?_iff` — the readers
  of the fields of each record;
* `Project.hingesOn_suitField`, `Project.hingesOn_cueField` — an edit of a field of a suit or a cue;
* `Project.parse_of_hingesOn` — from trees to texts: an edited text is read as a project or refused
  as a document, as a condition on the edit decides.
-/

open Json

/-- The compact text of a tree is one of its texts. -/
theorem Json.writtenAs_compact (j : Json) : j.WrittenAs j.compact :=
  writtenAs_chars Spacing.blank_compact j

/-! ### Suits and cues -/

namespace Suit

/-- The readers of the fields of a suit, in the order of the fields. -/
def readers : List (Option Json → Bool) :=
  [takes (required? toUInt8?), takes (required? toText?), takes (required? toUInt16?),
    takes (withDefault? .empty (toTable? toUInt32?))]

/-- The parts of a suit that was read are what the readers of its fields found. -/
theorem exists_fields {j : Json} {s : Suit} (h : ofJson? j = some s) :
    ∃ id name ledCount parts : Option Json,
      j.fields? fieldNames = some [id, name, ledCount, parts]
      ∧ required? toUInt8? id = some s.id ∧ required? toText? name = some s.name
      ∧ required? toUInt16? ledCount = some s.ledCount
      ∧ withDefault? .empty (toTable? toUInt32?) parts = some s.parts := by
  obtain ⟨values, hfields, h⟩ := Option.bind_eq_some_iff.mp h
  split at h
  · next id name ledCount parts =>
    obtain ⟨_, hid, h⟩ := Option.bind_eq_some_iff.mp h
    obtain ⟨_, hname, h⟩ := Option.bind_eq_some_iff.mp h
    obtain ⟨_, hledCount, h⟩ := Option.bind_eq_some_iff.mp h
    obtain ⟨_, hparts, h⟩ := Option.bind_eq_some_iff.mp h
    obtain rfl := Option.some.inj h
    exact ⟨id, name, ledCount, parts, hfields, hid, hname, hledCount, hparts⟩
  · exact nomatch h

theorem isSome_ofJson?_iff (j : Json) :
    (ofJson? j).isSome = true ↔ j.Readable fieldNames readers := by
  constructor
  · intro h
    obtain ⟨s, hs⟩ := Option.isSome_iff_exists.mp h
    obtain ⟨_, _, _, _, hfields, hid, hname, hledCount, hparts⟩ := exists_fields hs
    exact ⟨_, hfields, .cons (takes_of_eq_some hid) (.cons (takes_of_eq_some hname)
      (.cons (takes_of_eq_some hledCount) (.cons (takes_of_eq_some hparts) .nil)))⟩
  · rintro ⟨values, hfields, hall⟩
    unfold readers at hall
    iterate 4 obtain _ | ⟨_, hall⟩ := hall
    obtain _ | _ := hall
    unfold fieldNames at hfields
    unfold ofJson?
    rw [hfields, Option.bind_eq_bind, Option.bind_some]
    iterate 4 refine isSome_bind (by assumption) fun _ => ?_
    rfl

end Suit

namespace Cue

/-- The readers of the fields of a cue, in the order of the fields. -/
def readers : List (Option Json → Bool) :=
  [takes (required? toText?), takes (required? toUInt8?),
    takes (required? toDouble?), takes (required? toDouble?),
    takes (required? (choice? EffectKind.all EffectKind.name)),
    takes (required? Color.ofJson?), takes (optional? Color.ofJson?),
    takes (optional? (choice? HueSpread.all HueSpread.name)),
    takes (optional? (choice? Direction.all Direction.name)),
    takes (optional? (choice? Pose.all Pose.name)),
    takes (optional? toDouble?), takes (optional? toDouble?),
    takes (required? toUInt16?), takes (required? toUInt16?)]

theorem isSome_ofJson?_iff (j : Json) :
    (ofJson? j).isSome = true ↔ j.Readable fieldNames readers := by
  constructor
  · intro h
    obtain ⟨c, hc⟩ := Option.isSome_iff_exists.mp h
    obtain ⟨_, _, _, _, _, _, _, _, _, _, _, _, _, _, hfields, hread⟩ := exists_readFrom hc
    exact ⟨_, hfields, .cons (takes_of_eq_some hread.id) (.cons (takes_of_eq_some hread.suitId)
      (.cons (takes_of_eq_some hread.startTime) (.cons (takes_of_eq_some hread.duration)
      (.cons (takes_of_eq_some hread.kind) (.cons (takes_of_eq_some hread.color)
      (.cons (takes_of_eq_some hread.secondaryColor) (.cons (takes_of_eq_some hread.variant)
      (.cons (takes_of_eq_some hread.direction) (.cons (takes_of_eq_some hread.pose)
      (.cons (takes_of_eq_some hread.speed) (.cons (takes_of_eq_some hread.brightness)
      (.cons (takes_of_eq_some hread.rangeStart)
      (.cons (takes_of_eq_some hread.rangeEnd) .nil)))))))))))))⟩
  · rintro ⟨values, hfields, hall⟩
    unfold readers at hall
    iterate 14 obtain _ | ⟨_, hall⟩ := hall
    obtain _ | _ := hall
    unfold ofJson?
    rw [hfields, Option.bind_eq_bind, Option.bind_some]
    -- one field after another, each with a reader that takes it
    iterate 14 refine isSome_bind (by assumption) fun _ => ?_
    rfl

end Cue

/-! ### Projects -/

namespace Project

/-- The readers of the fields of a project, in the order of the fields. -/
def readers : List (Option Json → Bool) :=
  [takes (required? (toList? Suit.ofJson?)), takes (required? (toList? Cue.ofJson?)),
    takes (required? toUInt32?), takes (withDefault? currentVersion toText?)]

/-- The parts of a project that was read are what the readers of its fields found. -/
theorem exists_fields {j : Json} {p : Project} (h : ofJson? j = some p) :
    ∃ suits cues duration version : Option Json,
      j.fields? fieldNames = some [suits, cues, duration, version]
      ∧ required? (toList? Suit.ofJson?) suits = some p.suits
      ∧ required? (toList? Cue.ofJson?) cues = some p.cues
      ∧ required? toUInt32? duration = some p.duration
      ∧ withDefault? currentVersion toText? version = some p.version := by
  obtain ⟨values, hfields, h⟩ := Option.bind_eq_some_iff.mp h
  split at h
  · next suits cues duration version =>
    obtain ⟨_, hsuits, h⟩ := Option.bind_eq_some_iff.mp h
    obtain ⟨_, hcues, h⟩ := Option.bind_eq_some_iff.mp h
    obtain ⟨_, hduration, h⟩ := Option.bind_eq_some_iff.mp h
    obtain ⟨_, hversion, h⟩ := Option.bind_eq_some_iff.mp h
    obtain rfl := Option.some.inj h
    exact ⟨suits, cues, duration, version, hfields, hsuits, hcues, hduration, hversion⟩
  · exact nomatch h

theorem isSome_ofJson?_iff (j : Json) :
    (ofJson? j).isSome = true ↔ j.Readable fieldNames readers := by
  constructor
  · intro h
    obtain ⟨p, hp⟩ := Option.isSome_iff_exists.mp h
    obtain ⟨_, _, _, _, hfields, hsuits, hcues, hduration, hversion⟩ := exists_fields hp
    exact ⟨_, hfields, .cons (takes_of_eq_some hsuits) (.cons (takes_of_eq_some hcues)
      (.cons (takes_of_eq_some hduration) (.cons (takes_of_eq_some hversion) .nil)))⟩
  · rintro ⟨values, hfields, hall⟩
    unfold readers at hall
    iterate 4 obtain _ | ⟨_, hall⟩ := hall
    obtain _ | _ := hall
    unfold fieldNames at hfields
    unfold ofJson?
    rw [hfields, Option.bind_eq_bind, Option.bind_some]
    iterate 4 refine isSome_bind (by assumption) fun _ => ?_
    rfl

variable {edit : Json → Json → Prop} {condition : Prop} {name : String}
  {reader : Option Json → Bool}

/-- An edit inside of a field of a suit decides for the project what it decides for the reader of
    the field. -/
theorem hingesOn_suitField (hname : name ∈ Suit.fieldNames)
    (hreader : Suit.readers[Suit.fieldNames.idxOf name]? = some reader)
    (h : ∀ a a', reader (some a) = true → edit a a' → (reader (some a') = true ↔ condition)) :
    HingesOn ofJson? (FieldEdit fieldNames "suits"
      (ItemEdit (FieldEdit Suit.fieldNames name edit))) condition := by
  have hsuit : HingesOn Suit.ofJson? (FieldEdit Suit.fieldNames name edit) condition :=
    HingesOn.field Suit.isSome_ofJson?_iff (by decide) hname hreader h
  exact HingesOn.field isSome_ofJson?_iff (by decide) (by decide) rfl hsuit.toList?

/-- An edit inside of a field of a cue decides for the project what it decides for the reader of the
    field. -/
theorem hingesOn_cueField (hname : name ∈ Cue.fieldNames)
    (hreader : Cue.readers[Cue.fieldNames.idxOf name]? = some reader)
    (h : ∀ a a', reader (some a) = true → edit a a' → (reader (some a') = true ↔ condition)) :
    HingesOn ofJson? (FieldEdit fieldNames "cues"
      (ItemEdit (FieldEdit Cue.fieldNames name edit))) condition := by
  have hcue : HingesOn Cue.ofJson? (FieldEdit Cue.fieldNames name edit) condition :=
    HingesOn.field Cue.isSome_ofJson?_iff (by decide) hname hreader h
  exact HingesOn.field isSome_ofJson?_iff (by decide) (by decide) rfl hcue.toList?

/-- **Edited texts.** Of the text of a project, edited where it hinges on a condition whether it is
    still read, a project is read if the condition holds, and else it is refused as a document. -/
theorem parse_of_hingesOn (hinges : HingesOn ofJson? edit condition) {text text' : String}
    {p : Project} {j j' : Json} (h : parse text = .ok p) (hj : j.WrittenAs text) (hedit : edit j j')
    (hj' : j'.WrittenAs text') :
    (condition → ∃ p', parse text' = .ok p')
    ∧ (¬ condition → ∃ detail, parse text' = .error (.malformed detail)) := by
  obtain ⟨i, hi, hread⟩ := parse_eq_ok_iff_writtenAs.mp h
  obtain rfl := writtenAs_unique hj hi
  have hedited := hinges j j' (Option.isSome_of_eq_some hread) hedit
  have hparse : (∃ p', parse text' = .ok p') ↔ condition := by
    rw [← hedited, Option.isSome_iff_exists]
    constructor
    · rintro ⟨p', hp'⟩
      obtain ⟨i', hi', hread'⟩ := parse_eq_ok_iff_writtenAs.mp hp'
      obtain rfl := writtenAs_unique hj' hi'
      exact ⟨p', hread'⟩
    · exact fun ⟨p', hread'⟩ => ⟨p', parse_eq_ok_iff_writtenAs.mpr ⟨j', hj', hread'⟩⟩
  exact ⟨hparse.mpr, fun hnot => (parse_cases text').resolve_left fun hp => hnot (hparse.mp hp)⟩

/-- The scene is read from the text of its members. -/
theorem parse_scene :
    parse (Json.object (sceneMembers capeMembers flashMembers)).compact = .ok scene :=
  parse_eq_ok_iff_writtenAs.mpr ⟨_, writtenAs_compact _, by decide +kernel⟩

end Project

end LightShow
