import LightShow.Proofs.Json.Records
import LightShow.Proofs.Project.RoundTrip
import Mathlib.Logic.Relation

namespace LightShow

/-!
# What is passed over in the text of a project

A project is read from its fields, wherever they stand. Blanks between tokens, the order of members,
and members of other names with any values do not change it, neither in the project itself nor in its
suits and cues.

* `Project.TreeEdit`, `Project.TextEdit` — an edit of this kind, of a tree and of a text;
* `Project.passes_treeEdit` — the project of an edited tree;
* `Project.parse_edited` — the project of a text after any number of edits.
-/

open Json

/-- The names of the fields of a suit, in their order. -/
def Suit.fieldNames : List String := ["id", "name", "ledCount", "parts"]

/-- A suit is read from an edited tree as before. -/
theorem Suit.passes_recordEdit : Passes ofJson? (RecordEdit fieldNames) := by
  intro j j' s hedit h
  obtain ⟨values, hvalues, hrest⟩ := Option.bind_eq_some_iff.mp h
  have hedited : j'.fields? ["id", "name", "ledCount", "parts"] = some values :=
    hedit.fields? hvalues
  rw [ofJson?, hedited]
  exact hrest

/-- A cue is read from an edited tree as before. -/
theorem Cue.passes_recordEdit : Passes ofJson? (RecordEdit fieldNames) := by
  intro j j' c hedit h
  obtain ⟨values, hvalues, hrest⟩ := Option.bind_eq_some_iff.mp h
  rw [ofJson?, hedit.fields? hvalues]
  exact hrest

namespace Project

/-- The names of the fields of a project, in their order. -/
def fieldNames : List String := ["suits", "cues", "duration", "version"]

/-- An edit of a project, of one of its suits, or of one of its cues. -/
inductive TreeEdit : Json → Json → Prop where
  | project {j j' : Json} (h : RecordEdit fieldNames j j') : TreeEdit j j'
  | suit {j j' : Json} (h : FieldEdit fieldNames "suits" (ItemEdit (RecordEdit Suit.fieldNames)) j j') :
      TreeEdit j j'
  | cue {j j' : Json} (h : FieldEdit fieldNames "cues" (ItemEdit (RecordEdit Cue.fieldNames)) j j') :
      TreeEdit j j'

/-- Another text of the same value, with blanks in other places, or a text of an edited value. -/
inductive TextEdit (text text' : String) : Prop where
  | blanks {j : Json} (h : j.WrittenAs text) (h' : j.WrittenAs text')
  | tree {j j' : Json} (h : j.WrittenAs text) (hedit : TreeEdit j j') (h' : j'.WrittenAs text')

/-- A project is read from an edited tree as before. -/
theorem passes_treeEdit : Passes ofJson? TreeEdit := by
  intro j j' p hedit h
  obtain ⟨values, hvalues, hrest⟩ := Option.bind_eq_some_iff.mp h
  have hnodup : fieldNames.Nodup := by decide
  -- an edit inside of a field leaves the other three fields as they are
  cases hedit with
  | project hedit =>
    have hedited : j'.fields? ["suits", "cues", "duration", "version"] = some values :=
      hedit.fields? hvalues
    rw [ofJson?, hedited]
    exact hrest
  | suit hedit =>
    obtain ⟨a, a', hitems, hvalue, hedited⟩ := hedit.fields? hnodup (by decide) hvalues
    split at hrest
    · next suits cues duration version =>
      obtain rfl : suits = some a := Option.some.inj hvalue
      obtain ⟨read, hread, hrest⟩ := Option.bind_eq_some_iff.mp hrest
      have hread' : required? (toList? Suit.ofJson?) (some a') = some read :=
        Suit.passes_recordEdit.toList? a a' read hitems hread
      have hfields : j'.fields? ["suits", "cues", "duration", "version"]
          = some [some a', cues, duration, version] := hedited
      rw [ofJson?, hfields, Option.bind_eq_bind, Option.bind_some]
      exact Option.bind_eq_some_iff.mpr ⟨read, hread', hrest⟩
    · exact nomatch hrest
  | cue hedit =>
    obtain ⟨a, a', hitems, hvalue, hedited⟩ := hedit.fields? hnodup (by decide) hvalues
    split at hrest
    · next suits cues duration version =>
      obtain rfl : cues = some a := Option.some.inj hvalue
      obtain ⟨first, hfirst, hrest⟩ := Option.bind_eq_some_iff.mp hrest
      obtain ⟨read, hread, hrest⟩ := Option.bind_eq_some_iff.mp hrest
      have hread' : required? (toList? Cue.ofJson?) (some a') = some read :=
        Cue.passes_recordEdit.toList? a a' read hitems hread
      have hfields : j'.fields? ["suits", "cues", "duration", "version"]
          = some [suits, some a', duration, version] := hedited
      rw [ofJson?, hfields, Option.bind_eq_bind, Option.bind_some]
      exact Option.bind_eq_some_iff.mpr
        ⟨first, hfirst, Option.bind_eq_some_iff.mpr ⟨read, hread', hrest⟩⟩
    · exact nomatch hrest

theorem parse_eq_ok_iff_writtenAs {text : String} {p : Project} :
    parse text = .ok p ↔ ∃ j : Json, j.WrittenAs text ∧ ofJson? j = some p := by
  constructor
  · intro h
    unfold parse at h
    split at h
    · next p' hread =>
      obtain ⟨j, hparse, hj⟩ := Option.bind_eq_some_iff.mp hread
      exact ⟨j, parse?_eq_some_iff.mp hparse, Except.ok.inj h ▸ hj⟩
    · exact nomatch h
  · rintro ⟨j, htext, hj⟩
    apply parse_eq_ok
    rw [parse?_eq_some_iff.mpr htext, Option.bind_some, hj]

/-- A text is a text of one tree only. -/
theorem writtenAs_unique {text : String} {j j' : Json} (h : j.WrittenAs text)
    (h' : j'.WrittenAs text) : j = j' :=
  Option.some.inj ((parse?_eq_some_iff.mpr h).symm.trans (parse?_eq_some_iff.mpr h'))

/-- One edit of a text does not change the project that is read from it. -/
theorem parse_textEdit {text text' : String} {p : Project} (hedit : TextEdit text text')
    (h : parse text = .ok p) : parse text' = .ok p := by
  obtain ⟨j, hj, hread⟩ := parse_eq_ok_iff_writtenAs.mp h
  apply parse_eq_ok_iff_writtenAs.mpr
  cases hedit with
  | blanks hi hi' =>
    obtain rfl := writtenAs_unique hj hi
    exact ⟨j, hi', hread⟩
  | @tree i i' hi hedit hi' =>
    obtain rfl := writtenAs_unique hj hi
    exact ⟨i', hi', passes_treeEdit j i' p hedit hread⟩

/-- **Edits.** A text from which a project is read is the text of a value, and after any number of
    edits the same project is read from it: blanks between tokens, members of the project, of a suit
    or of a cue in another order, and more members with any values, whose names are texts and no
    fields there. -/
theorem parse_edited {text : String} {p : Project} (h : parse text = .ok p) :
    (∃ j : Json, j.WrittenAs text)
    ∧ ∀ text', Relation.ReflTransGen TextEdit text text' → parse text' = .ok p := by
  obtain ⟨j, hj, -⟩ := parse_eq_ok_iff_writtenAs.mp h
  refine ⟨⟨j, hj⟩, fun text' hedits => ?_⟩
  -- by the last edit
  induction hedits with
  | refl => exact h
  | tail _ hedit ih => exact parse_textEdit hedit ih

/-- The members of a suit. -/
def capeMembers : List (Option String × Json) :=
  [(some "id", .nat 1), (some "name", .text "cape"), (some "ledCount", .nat 2)]

/-- The members of a cue. -/
def flashMembers : List (Option String × Json) :=
  [(some "id", .text "flash"), (some "suitId", .nat 1), (some "startTime", .nat 0),
    (some "duration", .nat 5), (some "type", .text "solid"), (some "color", .text "#ff0000"),
    (some "ledRangeStart", .nat 0), (some "ledRangeEnd", .nat 1)]

/-- The members of a project of one suit and one cue. -/
def sceneMembers (suit cue : List (Option String × Json)) : List (Option String × Json) :=
  [(some "suits", .array [.object suit]), (some "cues", .array [.object cue]),
    (some "duration", .nat 9)]

/-- The project of these members. -/
def scene : Project :=
  ⟨[⟨1, "cape", 2, .empty⟩], [.plain "flash" 1 .solid 0 5 ⟨255, 0, 0⟩ 0 1], 9, currentVersion⟩

/-- A number that is too large for a double, half of a surrogate pair, and a nested array. -/
def note : Json := .array [.number ⟨false, 1, [], some 999⟩, .string none, .array [.array []]]

/-- The scene, and the scene with a note in front, with a member that has the empty name in the suit,
    and with the members of the cue turned round. -/
theorem parse_editedScene :
    parse (Json.object (sceneMembers capeMembers flashMembers)).compact = .ok scene
    ∧ Relation.ReflTransGen TextEdit (Json.object (sceneMembers capeMembers flashMembers)).compact
        (Json.object ((some "note", note)
          :: sceneMembers ((some "", note) :: capeMembers) flashMembers.reverse)).pretty
    ∧ parse (Json.object ((some "note", note)
        :: sceneMembers ((some "", note) :: capeMembers) flashMembers.reverse)).pretty
        = .ok scene := by
  have hcompact : ∀ j : Json, j.WrittenAs j.compact := writtenAs_chars Spacing.blank_compact
  have hpretty : ∀ j : Json, j.WrittenAs j.pretty := writtenAs_chars Spacing.blank_pretty
  have hparse : parse (Json.object (sceneMembers capeMembers flashMembers)).compact = .ok scene :=
    parse_eq_ok_iff_writtenAs.mpr ⟨_, hcompact _, by decide +kernel⟩
  have hsuit : TreeEdit (.object (sceneMembers capeMembers flashMembers))
      (.object (sceneMembers ((some "", note) :: capeMembers) flashMembers)) :=
    .suit (.member [] _ (.item [] [] (.insert [] capeMembers (by decide) note)))
  have hcue : TreeEdit (.object (sceneMembers ((some "", note) :: capeMembers) flashMembers))
      (.object (sceneMembers ((some "", note) :: capeMembers) flashMembers.reverse)) :=
    .cue (.member [_] _ (.item [] [] (.reorder (List.reverse_perm _).symm)))
  have hproject :
      TreeEdit (.object (sceneMembers ((some "", note) :: capeMembers) flashMembers.reverse))
        (.object ((some "note", note)
          :: sceneMembers ((some "", note) :: capeMembers) flashMembers.reverse)) :=
    .project (.insert [] _ (by decide) note)
  -- one edit after another, the blanks last
  have hedits := (((Relation.ReflTransGen.refl.tail
    (TextEdit.tree (hcompact _) hsuit (hcompact _))).tail
    (.tree (hcompact _) hcue (hcompact _))).tail
    (.tree (hcompact _) hproject (hcompact _))).tail
    (.blanks (hcompact _) (hpretty _))
  exact ⟨hparse, hedits, (parse_edited hparse).2 _ hedits⟩

/-- A member whose name is no text is not passed over: in such a name half of a surrogate pair stands
    alone. -/
theorem parse_unnamed {text : String} {before after : List (Option String × Json)} {value : Json}
    (h : (Json.object (before ++ (none, value) :: after)).WrittenAs text) :
    parse text = .error (.malformed "expected a project") := by
  have hnone : ofJson? (.object (before ++ (none, value) :: after)) = none := by
    rw [ofJson?, fields?_of_unnamed]
    rfl
  rw [parse, parse?_eq_some_iff.mpr h, Option.bind_some, hnone]

end Project

end LightShow
