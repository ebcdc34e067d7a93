namespace LightShow

/-!
# Tables keyed by names

* `NameTable` — finite maps from names, held in the order of their names, so that two tables with
  the same entries are equal;
* `insert`, `find?`, `ofList` — a later value for a name replaces an earlier one.

Names are ordered by their characters' code points, which is also the order of their UTF-8 bytes.
-/

variable {α : Type}

/-- Entries in strictly ascending order of their names. -/
structure NameTable (α : Type) where
  /-- The entries, each name once. -/
  entries : List (String × α)
  /-- The names ascend. -/
  ascending : entries.Pairwise (fun a b => a.1 < b.1)
  deriving DecidableEq

namespace NameTable

/-- Puts a value into ascending entries, in the place of the value that its name has. -/
def put (name : String) (value : α) : List (String × α) → List (String × α)
  | [] => [(name, value)]
  | entry :: rest =>
    if name < entry.1 then (name, value) :: entry :: rest
    else if name = entry.1 then (name, value) :: rest
    else entry :: put name value rest

/-- The names after `put`. -/
theorem mem_put {name : String} {value : α} {entries : List (String × α)} {e : String × α}
    (h : e ∈ put name value entries) : e = (name, value) ∨ e ∈ entries := by
  induction entries with
  | nil => simpa [put] using h
  | cons entry rest ih =>
    simp only [put] at h
    split at h
    · simpa using h
    · split at h
      · rcases List.mem_cons.mp h with h | h
        · exact .inl h
        · exact .inr (List.mem_cons_of_mem _ h)
      · rcases List.mem_cons.mp h with h | h
        · exact .inr (h ▸ List.mem_cons_self)
        · exact (ih h).imp id (List.mem_cons_of_mem _)

/-- `put` keeps the order. -/
theorem pairwise_put {name : String} {value : α} {entries : List (String × α)}
    (h : entries.Pairwise (fun a b => a.1 < b.1)) :
    (put name value entries).Pairwise (fun a b => a.1 < b.1) := by
  induction entries with
  | nil => simp [put]
  | cons entry rest ih =>
    obtain ⟨hfirst, hrest⟩ := List.pairwise_cons.mp h
    simp only [put]
    split
    · next hlt =>
      refine List.pairwise_cons.mpr ⟨fun e he => ?_, h⟩
      rcases List.mem_cons.mp he with rfl | he
      · exact hlt
      · exact String.lt_trans hlt (hfirst e he)
    · split
      · next heq => exact List.pairwise_cons.mpr ⟨fun e he => heq ▸ hfirst e he, hrest⟩
      · next hnlt hne =>
        refine List.pairwise_cons.mpr ⟨fun e he => ?_, ih hrest⟩
        rcases mem_put he with rfl | he
        · exact Decidable.by_contra fun hn =>
            hne (String.le_antisymm (String.not_lt.mp hn) (String.not_lt.mp hnlt))
        · exact hfirst e he

/-- The table without entries. -/
def empty : NameTable α := ⟨[], .nil⟩

/-- Gives a name a value, in the place of the value that it has. -/
def insert (table : NameTable α) (name : String) (value : α) : NameTable α :=
  ⟨put name value table.entries, pairwise_put table.ascending⟩

/-- Two tables with the same entries are equal. -/
theorem ext {a b : NameTable α} (h : a.entries = b.entries) : a = b := by
  cases a; cases b; simp_all

/-- The value of a name. -/
def find? (table : NameTable α) (name : String) : Option α := table.entries.lookup name

/-- A look-up after `put`. -/
theorem lookup_put (name other : String) (value : α) (entries : List (String × α)) :
    (put name value entries).lookup other
      = if other = name then some value else entries.lookup other := by
  have lookup_cons : ∀ (key : String) (v : α) (l : List (String × α)),
      List.lookup other ((key, v) :: l) = if other = key then some v else List.lookup other l := by
    intro key v l
    rw [List.lookup_cons]
    by_cases h : other = key
    · simp [h]
    · simp [beq_eq_false_iff_ne.mpr h, h]
  induction entries with
  | nil => exact lookup_cons name value []
  | cons entry rest ih =>
    obtain ⟨key, old⟩ := entry
    simp only [put]
    split
    · exact lookup_cons name value _
    · split
      · next heq =>
        have heq : name = key := heq
        subst heq
        by_cases h : other = name <;> simp [lookup_cons, h]
      · next hne =>
        -- the entry stays in front, and the name finds its place behind it
        have hne : ¬ name = key := hne
        by_cases h : other = key
        · subst h; simp [lookup_cons, Ne.symm hne]
        · simp [lookup_cons, h, ih]

/-- A name has the value that it was given last; other names keep theirs. -/
@[simp] theorem find?_insert (table : NameTable α) (name other : String) (value : α) :
    (table.insert name value).find? other
      = if other = name then some value else table.find? other :=
  lookup_put name other value table.entries

/-- The table of a list of entries; of two entries for one name the later one counts. -/
def ofList (entries : List (String × α)) : NameTable α :=
  entries.foldl (fun table entry => table.insert entry.1 entry.2) empty

/-- The entry of a name changed by a function of the value that it has. -/
def alter (table : NameTable α) (name : String) (f : Option α → α) : NameTable α :=
  table.insert name (f (table.find? name))

end NameTable

end LightShow
