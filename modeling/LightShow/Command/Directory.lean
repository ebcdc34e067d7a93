namespace LightShow

/-!
# Directories

* `Directory` — a tree of directories with the contents of their files;
* `Entry` — what a name in a directory stands for;
* `find?`, `put` — the entry of a name;
* `descend`, `update` — the directory to which some names lead.
-/

/-- The entries of a directory. Of two entries for one name the first one counts. -/
inductive Directory where
  | empty
  /-- A file in front of other entries. -/
  | file (name : String) (content : List UInt8) (others : Directory)
  /-- A directory in front of other entries. -/
  | directory (name : String) (inner others : Directory)
  deriving DecidableEq

/-- What a name stands for. -/
inductive Entry where
  | file (content : List UInt8)
  | directory (inner : Directory)
  deriving DecidableEq

namespace Directory

/-- The directory with one more entry in front. -/
def cons (name : String) : Entry → Directory → Directory
  | .file content, others => .file name content others
  | .directory inner, others => .directory name inner others

/-- The entry of a name. -/
def find? (name : String) : Directory → Option Entry
  | empty => none
  | file key content others => if key = name then some (.file content) else others.find? name
  | directory key inner others =>
    if key = name then some (.directory inner) else others.find? name

/-- Gives a name an entry, in the place of the one that it has. -/
def put (name : String) (entry : Entry) : Directory → Directory
  | empty => empty.cons name entry
  | file key content others =>
    if key = name then others.cons name entry else .file key content (others.put name entry)
  | directory key inner others =>
    if key = name then others.cons name entry else .directory key inner (others.put name entry)

/-- The entry of a name after one more entry. -/
@[simp] theorem find?_cons (name other : String) (entry : Entry) (d : Directory) :
    (d.cons name entry).find? other = if name = other then some entry else d.find? other := by
  cases entry <;> rfl

/-- A name has the entry that it was given last; other names keep theirs. -/
@[simp] theorem find?_put (name other : String) (entry : Entry) (d : Directory) :
    (d.put name entry).find? other = if name = other then some entry else d.find? other := by
  induction d with
  | empty => simp [put]
  | file key content others ih =>
    by_cases h : key = name <;> by_cases h' : key = other <;>
      simp_all [put, find?, eq_comm]
  | directory key inner others _ ih =>
    by_cases h : key = name <;> by_cases h' : key = other <;>
      simp_all [put, find?, eq_comm]

/-- The directory of a name, empty if the name stands for none. -/
def inner (d : Directory) (name : String) : Directory :=
  match d.find? name with
  | some (.directory inner) => inner
  | _ => empty

/-- The directory to which some names lead. -/
def descend (d : Directory) (names : List String) : Directory := names.foldl inner d

/-- The tree with another directory where some names lead. -/
def update (f : Directory → Directory) : List String → Directory → Directory
  | [], d => f d
  | name :: rest, d => d.put name (.directory ((d.inner name).update f rest))

/-- Where an update was made, its result is found. -/
@[simp] theorem descend_update (f : Directory → Directory) (names : List String) (d : Directory) :
    (d.update f names).descend names = f (d.descend names) := by
  induction names generalizing d with
  | nil => rfl
  | cons name rest ih =>
    have step : (d.update f (name :: rest)).inner name = (d.inner name).update f rest := by
      simp [update, inner]
    simp only [descend, List.foldl_cons, step]
    exact ih (d.inner name)

end Directory

end LightShow
