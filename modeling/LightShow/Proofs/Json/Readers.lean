import LightShow.Proofs.Json.Records
import Mathlib.Data.List.Forall2

namespace LightShow.Json

/-!
# What it hinges on whether an edited tree is read

A reader takes a record if the reader of every field takes what is found for that field. So if one
value in a tree that is read is replaced, the new value alone decides whether the tree is still
read, however deep it stands.

* `Readable` — a record whose fields their readers take;
* `Put`, `MemberEdit` — a new value in the place of a tree, and of a member of an object;
* `HingesOn` — a condition decides whether an edited tree is read; `HingesOn.toList?`,
  `HingesOn.toTable?` and `HingesOn.field` carry it from a part to the whole.
-/

variable {α β γ : Type} {names : List String} {name : String} {edit : Json → Json → Prop}
  {condition : Prop} {read : Json → Option α}

/-! ### Readers that take what they are given -/

/-- A computation of two steps has a result if the first step has one and the second one always. -/
theorem isSome_bind {x : Option β} {f : β → Option γ} (hx : x.isSome = true)
    (h : ∀ b, (f b).isSome = true) : (x.bind f).isSome = true := by
  obtain ⟨b, rfl⟩ := Option.isSome_iff_exists.mp hx
  exact h b

/-- A list is read exactly if each of its items is. -/
theorem isSome_mapM_iff {f : β → Option γ} {l : List β} :
    (l.mapM f).isSome = true ↔ ∀ b ∈ l, (f b).isSome = true := by
  induction l with
  | nil => simp
  | cons b l ih =>
    rw [List.forall_mem_cons, ← ih, List.mapM_cons]
    cases f b with
    | none => simp
    | some c => cases l.mapM f <;> simp

/-- An entry of a table is read exactly if its key is a text and its value is read. -/
theorem isSome_tableMember?_iff (member : Option String × Json) :
    (tableMember? read member).isSome = true
      ↔ member.1.isSome = true ∧ (read member.2).isSome = true := by
  obtain ⟨name, value⟩ := member
  cases name <;> simp [tableMember?]

/-- Whether the reader of a field takes what is found for the field. -/
def takes (read : Option Json → Option β) (field : Option Json) : Bool := (read field).isSome

theorem takes_of_eq_some {read : Option Json → Option β} {field : Option Json} {b : β}
    (h : read field = some b) : takes read field = true :=
  Option.isSome_of_eq_some h

/-- A record whose fields are taken, each by its own reader. -/
def Readable (names : List String) (readers : List (Option Json → Bool)) (j : Json) : Prop :=
  ∃ values, j.fields? names = some values
    ∧ List.Forall₂ (fun reader value => reader value = true) readers values

/-! ### Edits -/

/-- A new value in the place of any other. -/
def Put (new : Json) (_ j' : Json) : Prop := j' = new

/-- An object of which the value of one member is edited, whatever its name. -/
inductive MemberEdit (edit : Json → Json → Prop) : Json → Json → Prop where
  | member (before after : List (Option String × Json)) {name : Option String} {j j' : Json}
      (h : edit j j') :
      MemberEdit edit (.object (before ++ (name, j) :: after))
        (.object (before ++ (name, j') :: after))

/-- Of a tree that is read it depends on the condition alone whether it is still read after the
    edit. -/
def HingesOn (read : Json → Option α) (edit : Json → Json → Prop) (condition : Prop) : Prop :=
  ∀ j j', (read j).isSome = true → edit j j' → ((read j').isSome = true ↔ condition)

/-- An array is read if all its items are. -/
theorem HingesOn.toList? (h : HingesOn read edit condition) :
    HingesOn (toList? read) (ItemEdit edit) condition := by
  intro j j' hread hedit
  cases hedit with
  | @item before after a a' hitem =>
    have hitems : ((before ++ a :: after).mapM read).isSome = true := hread
    show ((before ++ a' :: after).mapM read).isSome = true ↔ condition
    rw [isSome_mapM_iff, List.forall_mem_append, List.forall_mem_cons] at hitems ⊢
    obtain ⟨hbefore, ha, hafter⟩ := hitems
    rw [h a a' ha hitem]
    exact ⟨fun hedited => hedited.2.1, fun hcondition => ⟨hbefore, hcondition, hafter⟩⟩

/-- A table is read if the names of all its members are texts and their values are read. -/
theorem HingesOn.toTable? (h : HingesOn read edit condition) :
    HingesOn (toTable? read) (MemberEdit edit) condition := by
  intro j j' hread hedit
  cases hedit with
  | @member before after name a a' hvalue =>
    unfold Json.toTable? at hread ⊢
    dsimp only at hread ⊢
    rw [Option.isSome_map, isSome_mapM_iff, List.forall_mem_append, List.forall_mem_cons,
      isSome_tableMember?_iff] at hread ⊢
    obtain ⟨hbefore, ⟨hname, ha⟩, hafter⟩ := hread
    rw [h a a' ha hvalue]
    exact ⟨fun hedited => hedited.2.1.2, fun hcondition => ⟨hbefore, ⟨hname, hcondition⟩, hafter⟩⟩

/-- After one of the values is replaced, the readers take them all if the reader of that one takes
    the new value. -/
theorem forall₂_set_iff {readers : List (β → Bool)} {values : List β} {i : Nat} {reader : β → Bool}
    (h : List.Forall₂ (fun reader value => reader value = true) readers values)
    (hreader : readers[i]? = some reader) (new : β) :
    List.Forall₂ (fun reader value => reader value = true) readers (values.set i new)
      ↔ reader new = true := by
  induction h generalizing i with
  | nil => exact nomatch hreader
  | @cons first value readers values hfirst hrest ih =>
    cases i with
    | zero =>
      obtain rfl := Option.some.inj hreader
      rw [List.set_cons_zero, List.forall₂_cons, and_iff_left hrest]
    | succ i => rw [List.set_cons_succ, List.forall₂_cons, and_iff_right hfirst, ih hreader]

/-- **Fields.** Whether a record is still read after an edit inside of a field depends on what the
    reader of that field takes. -/
theorem HingesOn.field {readers : List (Option Json → Bool)} {reader : Option Json → Bool}
    (hread : ∀ j, (read j).isSome = true ↔ j.Readable names readers) (hnodup : names.Nodup)
    (hname : name ∈ names) (hreader : readers[names.idxOf name]? = some reader)
    (h : ∀ a a', reader (some a) = true → edit a a' → (reader (some a') = true ↔ condition)) :
    HingesOn read (FieldEdit names name edit) condition := by
  intro j j' hj hedit
  obtain ⟨values, hvalues, hall⟩ := (hread j).mp hj
  obtain ⟨a, a', hvalue, hfound, hedited⟩ := hedit.fields? hnodup hname hvalues
  -- the record was read, so that the reader of the field takes its old value
  have ha : reader (some a) = true := by
    obtain ⟨hi, hreaderAt⟩ := List.getElem?_eq_some_iff.mp hreader
    obtain ⟨hi', hfoundAt⟩ := List.getElem?_eq_some_iff.mp hfound
    have hat := hall.get hi hi'
    simp only [List.get_eq_getElem] at hat
    rwa [hreaderAt, hfoundAt] at hat
  have hset := forall₂_set_iff hall hreader (some a')
  rw [hread j', ← h a a' ha hvalue, ← hset]
  constructor
  · rintro ⟨values', hvalues', hall'⟩
    rwa [← Option.some.inj (hvalues'.symm.trans hedited)]
  · exact fun hall' => ⟨_, hedited, hall'⟩

end LightShow.Json
