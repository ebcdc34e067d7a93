import LightShow.Json.Decode
import Mathlib.Data.List.Nodup
import Mathlib.Data.List.Perm.Basic

namespace LightShow.Json

/-!
# What a record does not depend on

* `RecordEdit` — the members of an object in another order, or one more member that is no field;
* `ItemEdit`, `FieldEdit` — an edit inside of an item of an array and of a field of a record;
* `RecordEdit.fields?` — a record keeps its fields;
* `FieldEdit.fields?` — only the edited field has another value;
* `Passes` — a reader gets the same from an edited tree, `Passes.toList?` from an edited array.
-/

variable {α : Type} {names : List String} {name : String} {edit : Json → Json → Prop} {j j' : Json}

/-- The members of an object that stands for a record in another order, or with one more among them,
    whose name is none of the record's. -/
inductive RecordEdit (names : List String) : Json → Json → Prop where
  | reorder {members others : List (Option String × Json)} (h : members.Perm others) :
      RecordEdit names (.object members) (.object others)
  | insert (before after : List (Option String × Json)) {name : String} (h : name ∉ names)
      (value : Json) :
      RecordEdit names (.object (before ++ after)) (.object (before ++ (some name, value) :: after))

/-- An array of which one item is edited. -/
inductive ItemEdit (edit : Json → Json → Prop) : Json → Json → Prop where
  | item (before after : List Json) {j j' : Json} (h : edit j j') :
      ItemEdit edit (.array (before ++ j :: after)) (.array (before ++ j' :: after))

/-- A record of which the value of one field is edited. The record may be an object or an array of
    its fields. -/
inductive FieldEdit (names : List String) (name : String) (edit : Json → Json → Prop) :
    Json → Json → Prop where
  | member (before after : List (Option String × Json)) {j j' : Json} (h : edit j j') :
      FieldEdit names name edit (.object (before ++ (some name, j) :: after))
        (.object (before ++ (some name, j') :: after))
  | position (before after : List Json) {j j' : Json} (hname : names[before.length]? = some name)
      (h : edit j j') :
      FieldEdit names name edit (.array (before ++ j :: after)) (.array (before ++ j' :: after))

/-! ### Members with their names -/

/-- A member whose name is a text. -/
def namedMember? (member : Option String × Json) : Option (String × Json) :=
  member.1.map (·, member.2)

/-- The members of an object are named if all their names are texts. -/
theorem named?_eq_some_iff {members : List (Option String × Json)} {named : List (String × Json)} :
    named? members = some named
      ↔ (∀ m ∈ members, m.1.isSome = true) ∧ members.filterMap namedMember? = named := by
  unfold named?
  induction members generalizing named with
  | nil => simp
  | cons member members ih =>
    obtain ⟨name, value⟩ := member
    cases name with
    | none => simp
    | some name =>
      rw [List.mapM_cons, List.filterMap_cons_some (show namedMember? (some name, value) = _ from rfl),
        List.forall_mem_cons]
      constructor
      · intro h
        obtain ⟨first, hfirst, h⟩ := Option.bind_eq_some_iff.mp h
        obtain ⟨rest, hrest, h⟩ := Option.bind_eq_some_iff.mp h
        obtain rfl := Option.some.inj hfirst
        obtain ⟨hall, hmap⟩ := ih.mp hrest
        exact ⟨⟨rfl, hall⟩, by rw [hmap]; exact Option.some.inj h⟩
      · rintro ⟨⟨-, hall⟩, rfl⟩
        rw [ih.mpr ⟨hall, rfl⟩]
        rfl

/-- A member between others that have names is listed between them. -/
theorem named?_member {before after : List (Option String × Json)}
    (h : ∀ m ∈ before ++ after, m.1.isSome = true) (name : String) (value : Json) :
    named? (before ++ (some name, value) :: after)
      = some (before.filterMap namedMember? ++ (name, value) :: after.filterMap namedMember?) := by
  refine named?_eq_some_iff.mpr ⟨fun m hm => ?_, by simp [namedMember?]⟩
  rcases List.mem_append.mp hm with hm | hm
  · exact h m (List.mem_append_left after hm)
  · rcases List.mem_cons.mp hm with rfl | hm
    · rfl
    · exact h m (List.mem_append_right before hm)

/-- The values of the fields of a record, if none is given twice. -/
def fieldsOf? (names : List String) (members : List (String × Json)) :
    Option (List (Option Json)) :=
  if names.all fun name => (members.filter (·.1 == name)).length ≤ 1 then
    some (names.map (List.lookup · members))
  else none

/-- The fields of an object are looked up in its members by name. -/
theorem fields?_object (members : List (Option String × Json)) :
    fields? names (.object members) = (named? members).bind (fieldsOf? names) := rfl

/-- A name is looked up among the members that have it. -/
theorem lookup_eq (members : List (String × Json)) (name : String) :
    members.lookup name = ((members.filter (·.1 == name)).head?).map (·.2) := by
  induction members with
  | nil => rfl
  | cons member members ih =>
    obtain ⟨key, value⟩ := member
    by_cases h : key = name
    · simp [h]
    · simp [List.lookup_cons, h, ih, beq_eq_false_iff_ne.mpr (Ne.symm h)]

/-- Of two lists in one order or another, the first members are equal if there is only one. -/
theorem head?_eq_of_perm {l l' : List α} (h : l.Perm l') (hone : l.length ≤ 1) :
    l.head? = l'.head? := by
  match l, hone with
  | [], _ => rw [h.nil_eq]
  | [a], _ => rw [List.singleton_perm.mp h]

/-- A record depends only on the members that have one of its names. -/
theorem fieldsOf?_congr {members others : List (String × Json)}
    (h : ∀ name ∈ names,
      (members.filter (·.1 == name)).Perm (others.filter (·.1 == name))) :
    fieldsOf? names members = fieldsOf? names others := by
  -- how often a name is given and what is found for it are read off the members of that name
  have hall : (names.all fun name => decide ((members.filter (·.1 == name)).length ≤ 1))
      = names.all fun name => decide ((others.filter (·.1 == name)).length ≤ 1) := by
    rw [Bool.eq_iff_iff, List.all_eq_true, List.all_eq_true]
    exact forall₂_congr fun name hname => by rw [(h name hname).length_eq]
  unfold fieldsOf?
  rw [← hall]
  split
  · next honce =>
    refine congrArg some (List.map_congr_left fun name hname => ?_)
    have hone := of_decide_eq_true (List.all_eq_true.mp honce name hname)
    rw [lookup_eq, lookup_eq, head?_eq_of_perm (h name hname) hone]
  · rfl

/-! ### Edits that are passed over -/

/-- A record keeps its fields under an edit: they are found by their names, and each is given at most
    once before and after. -/
theorem RecordEdit.fields? (h : RecordEdit names j j') {values : List (Option Json)}
    (hvalues : j.fields? names = some values) : j'.fields? names = some values := by
  cases h with
  | @reorder members others h =>
    rw [fields?_object] at hvalues ⊢
    obtain ⟨named, hnamed, hfields⟩ := Option.bind_eq_some_iff.mp hvalues
    obtain ⟨hall, rfl⟩ := named?_eq_some_iff.mp hnamed
    have hothers : named? others = some (others.filterMap namedMember?) :=
      named?_eq_some_iff.mpr ⟨fun m hm => hall m (h.mem_iff.mpr hm), rfl⟩
    rw [hothers, Option.bind_some, ← hfields]
    exact fieldsOf?_congr fun name _ => ((h.filterMap namedMember?).filter _).symm
  | @insert before after name h value =>
    rw [fields?_object] at hvalues ⊢
    obtain ⟨named, hnamed, hfields⟩ := Option.bind_eq_some_iff.mp hvalues
    obtain ⟨hall, rfl⟩ := named?_eq_some_iff.mp hnamed
    rw [named?_member hall, Option.bind_some, ← hfields]
    -- the new member is none of those that count
    refine fieldsOf?_congr fun field hfield => ?_
    have hne : name ≠ field := fun heq => h (heq ▸ hfield)
    rw [List.filterMap_append, List.filter_append, List.filter_append,
      List.filter_cons_of_neg (by simpa using hne)]

/-! ### Edits inside of a field -/

/-- Where only one of different names has a new value, one place of the list has changed. -/
theorem map_eq_set {f g : String → Option Json} {value : Option Json} (hnodup : names.Nodup)
    (hf : ∀ other ∈ names, other ≠ name → g other = f other) (hg : g name = value) :
    names.map g = (names.map f).set (names.idxOf name) value := by
  induction names with
  | nil => rfl
  | cons first names ih =>
    obtain ⟨hfirst, hrest⟩ := List.nodup_cons.mp hnodup
    by_cases h : first = name
    · subst h
      have hsame : names.map g = names.map f := List.map_congr_left fun other hother =>
        hf other (List.mem_cons_of_mem _ hother) fun heq => hfirst (heq ▸ hother)
      simp [hsame, hg]
    · have hset := ih hrest fun other hother => hf other (List.mem_cons_of_mem _ hother)
      simp [List.idxOf_cons_ne names h, hset, hf first List.mem_cons_self h]

/-- The value of a member that is the only one of its name. -/
theorem lookup_member {front back : List (String × Json)} {value : Json}
    (hone : ((front ++ (name, value) :: back).filter (·.1 == name)).length ≤ 1) :
    (front ++ (name, value) :: back).lookup name = some value := by
  have hfilter : (front ++ (name, value) :: back).filter (·.1 == name)
      = front.filter (·.1 == name) ++ (name, value) :: back.filter (·.1 == name) := by simp
  rw [hfilter, List.length_append, List.length_cons] at hone
  have hfront : front.filter (·.1 == name) = [] := List.eq_nil_of_length_eq_zero (by omega)
  rw [lookup_eq, hfilter, hfront]
  rfl

/-- A new value for a name takes the place of the old one in the list of fields. -/
theorem fieldsOf?_member {front back : List (String × Json)} {a : Json} (a' : Json)
    (hnodup : names.Nodup) (hname : name ∈ names) {values : List (Option Json)}
    (h : fieldsOf? names (front ++ (name, a) :: back) = some values) :
    values[names.idxOf name]? = some (some a)
    ∧ fieldsOf? names (front ++ (name, a') :: back)
      = some (values.set (names.idxOf name) (some a')) := by
  -- as many members have a name before and after
  have hlength : ∀ other, ((front ++ (name, a') :: back).filter (·.1 == other)).length
      = ((front ++ (name, a) :: back).filter (·.1 == other)).length := by
    intro other
    by_cases h : name = other <;> simp [h]
  have hothers : ∀ other, other ≠ name → (front ++ (name, a') :: back).lookup other
      = (front ++ (name, a) :: back).lookup other := by
    intro other hne
    simp [lookup_eq, Ne.symm hne]
  unfold fieldsOf? at h ⊢
  simp only [hlength]
  split at h
  · next honce =>
    obtain rfl := Option.some.inj h
    have hone := of_decide_eq_true (List.all_eq_true.mp honce name hname)
    have hedited : (front ++ (name, a') :: back).lookup name = some a' :=
      lookup_member ((hlength name).symm ▸ hone)
    rw [if_pos honce, List.getElem?_map, List.getElem?_idxOf hname, Option.map_some,
      lookup_member hone, map_eq_set hnodup (fun other _ => hothers other) hedited]
    exact ⟨rfl, rfl⟩
  · exact nomatch h

/-- In a record of which the value of one field is edited, the other fields keep their values. -/
theorem FieldEdit.fields? (h : FieldEdit names name edit j j') (hnodup : names.Nodup)
    (hname : name ∈ names) {values : List (Option Json)}
    (hvalues : j.fields? names = some values) :
    ∃ a a', edit a a' ∧ values[names.idxOf name]? = some (some a)
      ∧ j'.fields? names = some (values.set (names.idxOf name) (some a')) := by
  cases h with
  | @member before after a a' h =>
    -- members are found by their names, of which each occurs once
    rw [fields?_object] at hvalues
    obtain ⟨named, hnamed, hfields⟩ := Option.bind_eq_some_iff.mp hvalues
    obtain ⟨hall, rfl⟩ := named?_eq_some_iff.mp hnamed
    have hothers : ∀ m ∈ before ++ after, m.1.isSome = true := fun m hm =>
      hall m (((List.sublist_cons_self _ _).append_left before).mem hm)
    have hsplit : (before ++ (some name, a) :: after).filterMap namedMember?
        = before.filterMap namedMember? ++ (name, a) :: after.filterMap namedMember? := by
      simp [namedMember?]
    rw [hsplit] at hfields
    obtain ⟨hvalue, hset⟩ := fieldsOf?_member a' hnodup hname hfields
    exact ⟨a, a', h, hvalue, by rw [fields?_object, named?_member hothers, Option.bind_some, hset]⟩
  | @position before after a a' hposition h =>
    -- the fields of an array stand in the order of their names
    obtain ⟨hlt, rfl⟩ := List.getElem?_eq_some_iff.mp hposition
    rw [hnodup.idxOf_getElem]
    unfold Json.fields? at hvalues ⊢
    dsimp only at hvalues ⊢
    split at hvalues
    · next hlength =>
      obtain rfl := Option.some.inj hvalues
      have hlength' : (before ++ a' :: after).length ≤ names.length := by simpa using hlength
      rw [if_pos hlength']
      refine ⟨a, a', h, by simp, ?_⟩
      simp
    · exact nomatch hvalues

/-! ### Readers -/

/-- Whether a reader gets from an edited tree what it gets from the tree. -/
def Passes (read : Json → Option α) (edit : Json → Json → Prop) : Prop :=
  ∀ j j' value, edit j j' → read j = some value → read j' = some value

/-- An array is read as before if its items are. -/
theorem Passes.toList? {read : Json → Option α} (h : Passes read edit) :
    Passes (Json.toList? read) (ItemEdit edit) := by
  intro j j' values hedit hread
  cases hedit with
  | @item before after a a' hitem =>
    have hmap : (before ++ a :: after).mapM read = some values := hread
    show (before ++ a' :: after).mapM read = some values
    have hsame : read a' = read a := by
      rw [List.mapM_append, List.mapM_cons] at hmap
      obtain ⟨_, -, hmap⟩ := Option.bind_eq_some_iff.mp hmap
      obtain ⟨_, hback, -⟩ := Option.bind_eq_some_iff.mp hmap
      obtain ⟨value, hvalue, -⟩ := Option.bind_eq_some_iff.mp hback
      rw [hvalue, h a a' value hitem hvalue]
    rw [List.mapM_append, List.mapM_cons, hsame, ← List.mapM_cons, ← List.mapM_append, hmap]

/-- A name without a text makes an object stand for no record. -/
theorem fields?_of_unnamed (before after : List (Option String × Json)) (value : Json) :
    fields? names (.object (before ++ (none, value) :: after)) = none := by
  rw [fields?_object]
  cases h : named? (before ++ (none, value) :: after) with
  | none => rfl
  | some named =>
    have hname := (named?_eq_some_iff.mp h).1 (none, value) (by simp)
    exact nomatch hname

end LightShow.Json
