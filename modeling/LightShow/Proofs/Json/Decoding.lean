import LightShow.Json.Decode
import LightShow.Proofs.Json.Numeral

namespace LightShow

/-!
# What is taken out of a written tree

* `NameTable.ofList_entries` — a table is made again from its entries;
* `Json.toUInt8?_nat` and the like — scalars are read as they were written;
* `Json.toList?_map`, `Json.toTable?_ofTable` — lists and tables, if their items are;
* `Json.fields?_record` — the fields of a record, of which any may be left out.
-/

variable {α : Type}

namespace NameTable

/-- A name after all others is put at the end. -/
theorem put_of_lt {name : String} (value : α) {entries : List (String × α)}
    (h : ∀ e ∈ entries, e.1 < name) : put name value entries = entries ++ [(name, value)] := by
  induction entries with
  | nil => rfl
  | cons entry rest ih =>
    have hentry : entry.1 < name := h entry List.mem_cons_self
    have hrest : ∀ e ∈ rest, e.1 < name := fun e he => h e (List.mem_cons_of_mem _ he)
    -- both comparisons of the search fail
    have hnlt : ¬ name < entry.1 := String.lt_asymm hentry
    have hne : ¬ name = entry.1 := fun heq => String.lt_irrefl name (heq ▸ hentry)
    rw [put, if_neg hnlt, if_neg hne, ih hrest]
    rfl

/-- Ascending entries are put behind each other. -/
theorem entries_foldl_insert (table : NameTable α) (entries : List (String × α))
    (h : (table.entries ++ entries).Pairwise (fun a b => a.1 < b.1)) :
    (entries.foldl (fun t e => t.insert e.1 e.2) table).entries = table.entries ++ entries := by
  induction entries generalizing table with
  | nil => exact (List.append_nil _).symm
  | cons entry rest ih =>
    have hlast : ∀ e ∈ table.entries, e.1 < entry.1 := fun e he =>
      (List.pairwise_append.mp h).2.2 e he entry List.mem_cons_self
    have hput : (table.insert entry.1 entry.2).entries = table.entries ++ [entry] :=
      put_of_lt entry.2 hlast
    have hsplit : table.entries ++ entry :: rest = table.entries ++ [entry] ++ rest := by
      rw [List.append_assoc]
      rfl
    rw [List.foldl_cons, ih, hput, hsplit]
    rwa [hput, ← hsplit]

/-- A table is the table of its entries. -/
theorem ofList_entries (table : NameTable α) : ofList table.entries = table :=
  ext (entries_foldl_insert empty table.entries table.ascending)

end NameTable

namespace Json

/-! ### Scalars -/

/-- A natural number below the bound is read as it was written. -/
theorem toNat?_nat {bound n : Nat} (h : n < bound) : (nat n).toNat? bound = some n := by
  unfold nat toNat?
  dsimp only
  rw [Numeral.toNat?_ofNat, Option.filter_some, if_pos (decide_eq_true h)]

@[simp] theorem toUInt8?_nat (n : UInt8) : (nat n.toNat).toUInt8? = some n := by
  rw [toUInt8?, toNat?_nat n.toNat_lt, Option.map_some, UInt8.ofNat_toNat]

@[simp] theorem toUInt16?_nat (n : UInt16) : (nat n.toNat).toUInt16? = some n := by
  rw [toUInt16?, toNat?_nat n.toNat_lt, Option.map_some, UInt16.ofNat_toNat]

@[simp] theorem toUInt32?_nat (n : UInt32) : (nat n.toNat).toUInt32? = some n := by
  rw [toUInt32?, toNat?_nat n.toNat_lt, Option.map_some, UInt32.ofNat_toNat]

/-- A finite double is written as a number and reads back; the others are written as `null`. -/
theorem toDouble?_double {d : Double} (h : d.isFinite = true) : (double d).toDouble? = some d := by
  simp only [double, if_pos h, toDouble?, Numeral.toDouble?_ofDouble h]

@[simp] theorem toText?_text (s : String) : (text s).toText? = some s := rfl

/-! ### Lists and tables -/

/-- Values are read one by one. -/
theorem mapM_map {β : Type} {write : α → β} {read : β → Option α} {values : List α}
    (h : ∀ v ∈ values, read (write v) = some v) : (values.map write).mapM read = some values := by
  induction values with
  | nil => rfl
  | cons v values ih =>
    have hrest : (values.map write).mapM read = some values :=
      ih fun w hw => h w (List.mem_cons_of_mem _ hw)
    rw [List.map_cons, List.mapM_cons, h v List.mem_cons_self, hrest]
    rfl

/-- A list is read as it was written if its items are. -/
theorem toList?_map {write : α → Json} {read : Json → Option α} {values : List α}
    (h : ∀ v ∈ values, read (write v) = some v) :
    (array (values.map write)).toList? read = some values :=
  mapM_map h

/-- A table is read as it was written if its values are. -/
theorem toTable?_ofTable {write : α → Json} {read : Json → Option α} (table : NameTable α)
    (h : ∀ v, read (write v) = some v) : (ofTable write table).toTable? read = some table := by
  have hmember : ∀ e ∈ table.entries, tableMember? read (some e.1, write e.2) = some e := by
    intro e _
    rw [tableMember?, Option.bind_some, h, Option.map_some]
  unfold ofTable record toTable?
  dsimp only
  rw [List.map_map]
  show ((table.entries.map fun e => (some e.1, write e.2)).mapM (tableMember? read)).map
    NameTable.ofList = some table
  rw [mapM_map hmember, Option.map_some, NameTable.ofList_entries]

/-! ### Records -/

/-- The members of a record of which some fields may be left out. -/
def written (fields : List (String × Option Json)) : List (String × Json) :=
  fields.filterMap fun field => field.2.map (field.1, ·)

/-- A field that has a value is written. -/
theorem written_cons_some (name : String) (value : Json) (fields : List (String × Option Json)) :
    written ((name, some value) :: fields) = (name, value) :: written fields := rfl

/-- A field without a value is left out. -/
theorem written_cons_none (name : String) (fields : List (String × Option Json)) :
    written ((name, none) :: fields) = written fields := rfl

/-- A name that no field has is not found. -/
theorem lookup_written_of_notMem {name : String} {fields : List (String × Option Json)}
    (h : name ∉ fields.map (·.1)) : (written fields).lookup name = none := by
  induction fields with
  | nil => rfl
  | cons field fields ih =>
    obtain ⟨key, value⟩ := field
    rw [List.map_cons, List.mem_cons, not_or] at h
    cases value with
    | none => exact ih h.2
    | some value =>
      rw [written_cons_some, List.lookup_cons, beq_eq_false_iff_ne.mpr h.1]
      exact ih h.2

/-- A field is found by its name, and one that was left out is missing. -/
theorem lookup_written {fields : List (String × Option Json)} (hnodup : (fields.map (·.1)).Nodup)
    {field : String × Option Json} (h : field ∈ fields) :
    (written fields).lookup field.1 = field.2 := by
  induction fields with
  | nil => exact absurd h List.not_mem_nil
  | cons other fields ih =>
    obtain ⟨key, value⟩ := other
    obtain ⟨hnew, hrest⟩ := List.nodup_cons.mp hnodup
    rcases List.mem_cons.mp h with heq | hmem
    · subst heq
      cases value with
      | none =>
        rw [written_cons_none]
        exact lookup_written_of_notMem hnew
      | some value => rw [written_cons_some, List.lookup_cons, beq_self_eq_true]
    · -- the first field has another name
      have hname : field.1 ∈ fields.map (·.1) := List.mem_map_of_mem hmem
      have hne : field.1 ≠ key := fun heq => hnew (heq ▸ hname)
      cases value with
      | none => exact ih hrest hmem
      | some value =>
        rw [written_cons_some, List.lookup_cons, beq_eq_false_iff_ne.mpr hne]
        exact ih hrest hmem

/-- Names that are distinct are written at most once each. -/
theorem length_filter_written_le {fields : List (String × Option Json)}
    (hnodup : (fields.map (·.1)).Nodup) (name : String) :
    ((written fields).filter (·.1 == name)).length ≤ 1 := by
  -- leaving fields out leaves names out, and changes no other name
  have hsublist : ((written fields).map (·.1)).Sublist (fields.map (·.1)) := by
    clear hnodup
    induction fields with
    | nil => exact .slnil
    | cons field fields ih =>
      obtain ⟨key, value⟩ := field
      cases value with
      | none => exact ih.cons key
      | some value => exact ih.cons_cons key
  have hcount : ((written fields).map (·.1)).count name ≤ 1 :=
    List.nodup_iff_count.mp (hnodup.sublist hsublist) name
  rwa [List.count, List.countP_map, List.countP_eq_length_filter] at hcount

/-- **Records.** The values of a record's fields are found by their names, whichever of the fields
    are left out. -/
theorem fields?_record {names : List String} (hnodup : names.Nodup) {values : List (Option Json)}
    (hlength : names.length = values.length) :
    fields? names (record (written (names.zip values))) = some values := by
  have hnames : (names.zip values).map (·.1) = names :=
    List.map_fst_zip (Nat.le_of_eq hlength)
  have hdistinct : ((names.zip values).map (·.1)).Nodup := hnames.symm ▸ hnodup
  have hnamed : named? ((written (names.zip values)).map fun member => (some member.1, member.2))
      = some (written (names.zip values)) := mapM_map fun _ _ => rfl
  have honce : (names.all fun name =>
      decide (((written (names.zip values)).filter (·.1 == name)).length ≤ 1)) = true :=
    List.all_eq_true.mpr fun name _ => decide_eq_true (length_filter_written_le hdistinct name)
  -- a name that was left out is not found, and has no value either
  have hvalues : names.map (List.lookup · (written (names.zip values))) = values :=
    calc names.map (List.lookup · (written (names.zip values)))
        = (names.zip values).map fun field => (written (names.zip values)).lookup field.1 := by
          conv => lhs; rw [← hnames, List.map_map, hnames]
          rfl
      _ = (names.zip values).map (·.2) :=
          List.map_congr_left fun field h => lookup_written hdistinct h
      _ = values := List.map_snd_zip (Nat.le_of_eq hlength.symm)
  unfold fields? record
  dsimp only
  rw [hnamed, Option.bind_eq_bind, Option.bind_some, if_pos honce, hvalues]
  rfl

/-- Both fields of a record of two. -/
theorem fields?_pair {first second : String} (h : first ≠ second) (a b : Json) :
    (record [(first, a), (second, b)]).fields? [first, second] = some [some a, some b] := by
  have hrecord : record [(first, a), (second, b)]
      = record (written ([first, second].zip [some a, some b])) := rfl
  rw [hrecord]
  exact fields?_record (by simpa using h) rfl

@[simp] theorem required?_some (read : Json → Option α) (j : Json) :
    required? read (some j) = read j := rfl

@[simp] theorem withDefault?_some (default : α) (read : Json → Option α) (j : Json) :
    withDefault? default read (some j) = read j := rfl

/-- A setting that may be left out is read as it was written. -/
theorem optional?_map {write : α → Json} {read : Json → Option α} {value : Option α}
    (hnull : ∀ v, value = some v → write v ≠ .null)
    (h : ∀ v, value = some v → read (write v) = some v) :
    optional? read (value.map write) = some value := by
  cases value with
  | none => rfl
  | some v =>
    have hne := hnull v rfl
    rw [Option.map_some]
    unfold optional?
    split
    · next heq => exact absurd heq (Option.some_ne_none _)
    · next heq => exact absurd (Option.some.inj heq) hne
    · next j _ heq => rw [← Option.some.inj heq, h v rfl, Option.map_some]

/-- The only member of an object, as a named form. -/
theorem variant?_record (name : String) (value : Json) :
    (record [(name, value)]).variant? = some (name, some value) := rfl

/-- A value is chosen by its name, if no value before it has that name. -/
theorem choice?_text {all : List α} {nameOf : α → String} {a : α}
    (h : all.find? (nameOf · == nameOf a) = some a) :
    choice? all nameOf (text (nameOf a)) = some a := h

/-- A choice that may be left out is read as it was written, if the names are told apart. -/
theorem optional?_choice {all : List α} {nameOf : α → String} (value : Option α)
    (h : ∀ a, all.find? (nameOf · == nameOf a) = some a) :
    optional? (choice? all nameOf) (value.map fun a => text (nameOf a)) = some value := by
  refine optional?_map (fun a _ => ?_) fun a _ => choice?_text (h a)
  intro hnull
  cases hnull

end Json

end LightShow
