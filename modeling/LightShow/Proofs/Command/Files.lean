import LightShow.Command.Files

namespace LightShow

/-!
# What is left after a write

* `Directory.entryAt?` — what names lead to, one directory after another;
* `Files.address` — the names to which a path leads, told from the path alone;
* `Files.KeepsBut` — all directories stay, and all files but one;
* `Files.read_of_keepsBut` — a path that leads to another file is read as before;
* `Files.write_eq_ok`, `Files.makeDirectories_eq_ok` — what writing a file and making directories do
  to a tree;
* `Files.makeDirectories_eq_error` — what is left where not all directories could be made.

A tree has no links: the step to the directory above takes the last name away. Two paths lead to one
file exactly if they lead to the same names, even if they are spelled differently.
-/

/-! ### Computations that can fail -/

@[simp] theorem ok_bind {ε α β : Type} (a : α) (f : α → Except ε β) :
    (Except.ok a >>= f) = f a := rfl

/-- A computation that succeeds has succeeded at each step. -/
theorem exists_of_bind_eq_ok {ε α β : Type} {x : Except ε α} {f : α → Except ε β} {b : β}
    (h : x >>= f = .ok b) : ∃ a, x = .ok a ∧ f a = .ok b := by
  cases x with
  | error e => exact nomatch h
  | ok a => exact ⟨a, rfl, h⟩

@[simp] theorem mapError_ok {ε ε' α : Type} (f : ε → ε') (a : α) :
    (Except.ok a : Except ε α).mapError f = .ok a := rfl

/-- A computation that fails has failed at its first step, or behind it. -/
theorem error_or_exists_of_bind_eq_error {ε α β : Type} {x : Except ε α} {f : α → Except ε β} {e : ε}
    (h : x >>= f = .error e) : x = .error e ∨ ∃ a, x = .ok a ∧ f a = .error e := by
  cases x with
  | error e' => exact .inl (congrArg _ (Except.error.inj h))
  | ok a => exact .inr ⟨a, rfl, h⟩

/-- A computation whose error is put into other words succeeds as before. -/
theorem eq_ok_of_mapError_eq_ok {ε ε' α : Type} {f : ε → ε'} {x : Except ε α} {a : α}
    (h : x.mapError f = .ok a) : x = .ok a := by
  cases x with
  | error e => exact nomatch h
  | ok b => exact congrArg _ (Except.ok.inj h)

/-- An error in other words was an error before. -/
theorem exists_of_mapError_eq_error {ε ε' α : Type} {f : ε → ε'} {x : Except ε α} {e' : ε'}
    (h : x.mapError f = .error e') : ∃ e, x = .error e ∧ e' = f e := by
  cases x with
  | error e => exact ⟨e, rfl, (Except.error.inj h).symm⟩
  | ok a => exact nomatch h

/-! ### Entries of a tree -/

namespace Directory

/-- What names lead to, the outermost one first. -/
def entryAt? (d : Directory) : List String → Option Entry
  | [] => some (.directory d)
  | name :: rest =>
    match d.find? name with
    | some (.directory inner) => inner.entryAt? rest
    | some (.file content) => if rest = [] then some (.file content) else none
    | none => none

/-- Behind the name of a directory, names are looked up in that directory. -/
theorem entryAt?_cons_of_directory {d inner : Directory} {name : String}
    (h : d.find? name = some (.directory inner)) (rest : List String) :
    d.entryAt? (name :: rest) = inner.entryAt? rest := by
  rw [entryAt?, h]

/-- Names that lead anywhere lead through a directory, unless they are no more than one. -/
theorem entryAt?_cons_eq_some {d : Directory} {name : String} {rest : List String} {e : Entry}
    (h : d.entryAt? (name :: rest) = some e) :
    (∃ next, d.find? name = some (.directory next) ∧ next.entryAt? rest = some e)
      ∨ (rest = [] ∧ d.find? name = some e) := by
  rw [entryAt?] at h
  split at h
  · next next hnext => exact .inl ⟨next, hnext, h⟩
  · next content hcontent =>
    split at h
    · next hrest => exact .inr ⟨hrest, hcontent.trans h⟩
    · exact nomatch h
  · exact nomatch h

/-- Names that lead to a directory lead through directories. -/
theorem exists_next_of_entryAt?_cons {d inner : Directory} {name : String} {rest : List String}
    (h : d.entryAt? (name :: rest) = some (.directory inner)) :
    ∃ next, d.find? name = some (.directory next)
      ∧ next.entryAt? rest = some (.directory inner) := by
  rcases entryAt?_cons_eq_some h with hnext | ⟨rfl, hfound⟩
  · exact hnext
  · exact ⟨inner, hfound, rfl⟩

@[simp] theorem entryAt?_singleton (d : Directory) (name : String) :
    d.entryAt? [name] = d.find? name := by
  rw [entryAt?]
  split
  · next h => exact h.symm
  · next h => rw [if_pos rfl, h]
  · next h => exact h.symm

/-- One more name is looked up where the others lead. -/
theorem entryAt?_concat {d inner : Directory} {names : List String} (name : String)
    (h : d.entryAt? names = some (.directory inner)) :
    d.entryAt? (names ++ [name]) = inner.find? name := by
  induction names generalizing d with
  | nil =>
    cases h
    exact entryAt?_singleton _ name
  | cons first rest ih =>
    obtain ⟨next, hnext, hrest⟩ := exists_next_of_entryAt?_cons h
    rw [List.cons_append, entryAt?_cons_of_directory hnext, ih hrest]

/-- All names but the last one lead to a directory. -/
theorem exists_entryAt?_of_concat {d : Directory} {names : List String} {name : String} {e : Entry}
    (h : d.entryAt? (names ++ [name]) = some e) :
    ∃ inner, d.entryAt? names = some (.directory inner) := by
  induction names generalizing d with
  | nil => exact ⟨d, rfl⟩
  | cons first rest ih =>
    rcases entryAt?_cons_eq_some h with ⟨next, hnext, hrest⟩ | ⟨hnil, -⟩
    · obtain ⟨inner, hinner⟩ := ih hrest
      exact ⟨inner, (entryAt?_cons_of_directory hnext rest).trans hinner⟩
    · exact absurd hnil (by simp)

theorem inner_eq_of_find? {d next : Directory} {name : String}
    (h : d.find? name = some (.directory next)) : d.inner name = next := by
  unfold inner
  rw [h]

/-- Going down along names leads to the directory to which they lead. -/
theorem descend_eq_of_entryAt? {d inner : Directory} {names : List String}
    (h : d.entryAt? names = some (.directory inner)) : d.descend names = inner := by
  induction names generalizing d with
  | nil =>
    cases h
    rfl
  | cons first rest ih =>
    obtain ⟨next, hnext, hrest⟩ := exists_next_of_entryAt?_cons h
    show (d.inner first).descend rest = inner
    rw [inner_eq_of_find? hnext, ih hrest]

/-! ### One entry changed -/

/-- A tree has the directories of another one, and its files but for the one to which some names
    lead. -/
structure KeepsBut (before after : Directory) (exception : List String) : Prop where
  directory : ∀ names inner, before.entryAt? names = some (.directory inner) →
    ∃ inner', after.entryAt? names = some (.directory inner')
  file : ∀ names content, names ≠ exception → before.entryAt? names = some (.file content) →
    after.entryAt? names = some (.file content)

theorem KeepsBut.refl (d : Directory) (exception : List String) : d.KeepsBut d exception :=
  ⟨fun _ inner h => ⟨inner, h⟩, fun _ _ _ h => h⟩

theorem KeepsBut.trans {a b c : Directory} {exception : List String} (hab : a.KeepsBut b exception)
    (hbc : b.KeepsBut c exception) : a.KeepsBut c exception := by
  refine ⟨fun names inner h => ?_, fun names content hne h => ?_⟩
  · obtain ⟨inner', h'⟩ := hab.directory names inner h
    exact hbc.directory names inner' h'
  · exact hbc.file names content hne (hab.file names content hne h)

/-- Where there was no file, none is lost. -/
theorem KeepsBut.of_entryAt?_eq_none {before after : Directory} {exception : List String}
    (h : before.KeepsBut after exception) (hnone : before.entryAt? exception = none)
    (other : List String) : before.KeepsBut after other := by
  refine ⟨h.directory, fun names content _ hfile => h.file names content ?_ hfile⟩
  rintro rfl
  exact nomatch hnone.symm.trans hfile

/-- Where a directory was changed, the changed one is found. -/
theorem entryAt?_update {d inner : Directory} {names : List String} (f : Directory → Directory)
    (h : d.entryAt? names = some (.directory inner)) :
    (d.update f names).entryAt? names = some (.directory (f inner)) := by
  induction names generalizing d with
  | nil =>
    cases h
    rfl
  | cons first rest ih =>
    obtain ⟨next, hnext, hrest⟩ := exists_next_of_entryAt?_cons h
    have hfirst : (d.update f (first :: rest)).find? first
        = some (.directory (next.update f rest)) := by
      rw [update, find?_put, if_pos rfl, inner_eq_of_find? hnext]
    rw [entryAt?_cons_of_directory hfirst, ih hrest]

/-- Names that begin with an unchanged entry lead to what they led to. -/
theorem entryAt?_put_of_ne {d : Directory} {name other : String} (e : Entry) (hne : name ≠ other)
    (rest : List String) :
    (d.put name e).entryAt? (other :: rest) = d.entryAt? (other :: rest) := by
  rw [entryAt?, entryAt?, find?_put, if_neg hne]

/-- An entry that takes the place of a file or of nothing. -/
theorem keepsBut_put {d : Directory} {name : String} (e : Entry)
    (hold : ∀ old, d.find? name ≠ some (.directory old)) : d.KeepsBut (d.put name e) [name] := by
  constructor
  · intro names inner h
    cases names with
    | nil => exact ⟨_, rfl⟩
    | cons other rest =>
      obtain ⟨next, hnext, -⟩ := exists_next_of_entryAt?_cons h
      have hne : name ≠ other := by
        rintro rfl
        exact hold next hnext
      exact ⟨inner, (entryAt?_put_of_ne e hne rest).trans h⟩
  · intro names content hexception h
    cases names with
    | nil => exact nomatch h
    | cons other rest =>
      have hne : name ≠ other := by
        rintro rfl
        rcases entryAt?_cons_eq_some h with ⟨next, hnext, -⟩ | ⟨rfl, -⟩
        · exact hold next hnext
        · exact hexception rfl
      exact (entryAt?_put_of_ne e hne rest).trans h

/-- A directory that takes the place of one whose files it has but for one. -/
theorem KeepsBut.put {d next next' : Directory} {name : String} {exception : List String}
    (hnext : d.find? name = some (.directory next)) (h : next.KeepsBut next' exception) :
    d.KeepsBut (d.put name (.directory next')) (name :: exception) := by
  have hinside : ∀ rest, (d.put name (.directory next')).entryAt? (name :: rest)
      = next'.entryAt? rest := by
    intro rest
    exact entryAt?_cons_of_directory (by rw [find?_put, if_pos rfl]) rest
  constructor
  · intro names inner hnames
    cases names with
    | nil => exact ⟨_, rfl⟩
    | cons other rest =>
      by_cases hne : name = other
      · -- names that lead through the changed directory
        subst hne
        rw [entryAt?_cons_of_directory hnext] at hnames
        obtain ⟨inner', hinner'⟩ := h.directory rest inner hnames
        exact ⟨inner', (hinside rest).trans hinner'⟩
      · exact ⟨inner, (entryAt?_put_of_ne _ hne rest).trans hnames⟩
  · intro names content hexception hnames
    cases names with
    | nil => exact nomatch hnames
    | cons other rest =>
      by_cases hne : name = other
      · subst hne
        rw [entryAt?_cons_of_directory hnext] at hnames
        exact (hinside rest).trans (h.file rest content (by simpa using hexception) hnames)
      · exact (entryAt?_put_of_ne _ hne rest).trans hnames

/-- An entry that takes the place of a file or of nothing, wherever names lead, changes no other
    file, and no directory goes. -/
theorem keepsBut_update_put {d inner : Directory} {above : List String} {name : String} (e : Entry)
    (h : d.entryAt? above = some (.directory inner))
    (hold : ∀ old, inner.find? name ≠ some (.directory old)) :
    d.KeepsBut (d.update (·.put name e) above) (above ++ [name]) := by
  induction above generalizing d with
  | nil =>
    cases h
    exact keepsBut_put e hold
  | cons first rest ih =>
    obtain ⟨next, hnext, hrest⟩ := exists_next_of_entryAt?_cons h
    rw [update, inner_eq_of_find? hnext]
    exact (ih hrest).put hnext

end Directory

/-! ### Following a path -/

namespace Place

/-- A place of a tree, whose names lead to its entries. -/
def In (place : Place) (tree : Directory) : Prop :=
  tree.entryAt? place.names.reverse = some (.directory place.entries)

/-- The names of a directory, the innermost one first, after a step. -/
def namesAfter (names : List String) (step : String) : List String :=
  if step = "." then names else if step = ".." then names.tail else step :: names

theorem in_root (tree : Directory) : (root tree).In tree := rfl

/-- What a place holds under a name is what its names and that name lead to. -/
theorem In.entryAt?_concat {place : Place} {tree : Directory} (h : place.In tree) (name : String) :
    tree.entryAt? (place.names.reverse ++ [name]) = place.entries.find? name :=
  Directory.entryAt?_concat name h

theorem In.outer {place : Place} {tree : Directory} (h : place.In tree) :
    (place.outer tree).In tree := by
  obtain ⟨names, entries⟩ := place
  cases names with
  | nil => rfl
  | cons name above =>
    have hconcat : tree.entryAt? (above.reverse ++ [name]) = some (.directory entries) := by
      rw [← List.reverse_cons]
      exact h
    obtain ⟨inner, hinner⟩ := Directory.exists_entryAt?_of_concat hconcat
    show tree.entryAt? above.reverse = some (.directory (tree.descend above.reverse))
    rw [Directory.descend_eq_of_entryAt? hinner, hinner]

theorem look_eq_ok_iff {place : Place} {name : String} {e : Option Entry} :
    place.look name = .ok e ↔ name.utf8ByteSize ≤ nameLimit ∧ place.entries.find? name = e := by
  unfold look
  split
  · next h => simp [Nat.not_le.mpr h]
  · next h => simp [Nat.not_lt.mp h]

/-- What a step can do: stay, go to the directory above, or enter a directory by its name. -/
theorem enter_eq_ok {tree : Directory} {place place' : Place} {step : String}
    (h : place.enter tree step = .ok place') :
    (step = "." ∧ place' = place)
      ∨ (step ≠ "." ∧ step = ".." ∧ place' = place.outer tree)
      ∨ (step ≠ "." ∧ step ≠ ".." ∧ ∃ inner, place.look step = .ok (some (.directory inner))
          ∧ place' = ⟨step :: place.names, inner⟩) := by
  unfold enter at h
  split at h
  · next hstay => exact .inl ⟨hstay, (Except.ok.inj h).symm⟩
  split at h
  · next hne hup => exact .inr (.inl ⟨hne, hup, (Except.ok.inj h).symm⟩)
  next hne hne' =>
  obtain ⟨found, hlook, h⟩ := exists_of_bind_eq_ok h
  match found, h with
  | some (.directory inner), h =>
    exact .inr (.inr ⟨hne, hne', inner, hlook, (Except.ok.inj h).symm⟩)

/-- A step leads from a place of a tree to one, and to names that do not depend on the tree. -/
theorem In.enter {tree : Directory} {place place' : Place} {step : String} (h : place.In tree)
    (hstep : place.enter tree step = .ok place') :
    place'.In tree ∧ place'.names = namesAfter place.names step := by
  unfold namesAfter
  rcases enter_eq_ok hstep with ⟨rfl, rfl⟩ | ⟨-, rfl, rfl⟩ | ⟨hne, hne', inner, hlook, rfl⟩
  · exact ⟨h, rfl⟩
  · exact ⟨h.outer, rfl⟩
  · rw [if_neg hne, if_neg hne']
    refine ⟨?_, rfl⟩
    show tree.entryAt? (step :: place.names).reverse = some (.directory inner)
    rw [List.reverse_cons, h.entryAt?_concat]
    exact (look_eq_ok_iff.mp hlook).2

/-- A step that can be taken can be taken in a tree that has all directories. -/
theorem In.enter_of_keepsBut {before after : Directory} {exception : List String}
    (hkeeps : before.KeepsBut after exception) {place place' other : Place} {step : String}
    (h : place.In before) (hother : other.In after) (hnames : other.names = place.names)
    (hstep : place.enter before step = .ok place') :
    ∃ other', other.enter after step = .ok other' ∧ other'.names = place'.names := by
  rcases enter_eq_ok hstep with ⟨rfl, rfl⟩ | ⟨hne, rfl, rfl⟩ | ⟨hne, hne', inner, hlook, rfl⟩
  · exact ⟨other, rfl, hnames⟩
  · refine ⟨other.outer after, rfl, ?_⟩
    show other.names.tail = place.names.tail
    rw [hnames]
  · obtain ⟨hlimit, hfind⟩ := look_eq_ok_iff.mp hlook
    obtain ⟨inner', hinner'⟩ := hkeeps.directory _ inner ((h.entryAt?_concat step).trans hfind)
    rw [← hnames, hother.entryAt?_concat] at hinner'
    have hlook' : other.look step = .ok (some (.directory inner')) :=
      look_eq_ok_iff.mpr ⟨hlimit, hinner'⟩
    refine ⟨⟨step :: other.names, inner'⟩, ?_, ?_⟩
    · unfold Place.enter
      rw [if_neg hne, if_neg hne', hlook']
      rfl
    · show step :: other.names = step :: place.names
      rw [hnames]

end Place

namespace Files

/-- A tree of files has the directories of another one, and its files but for the one to which some
    names lead. Paths begin at the same directory. -/
structure KeepsBut (before after : Files) (exception : List String) : Prop where
  home : after.home = before.home
  tree : before.tree.KeepsBut after.tree exception

theorem KeepsBut.refl (files : Files) (exception : List String) : files.KeepsBut files exception :=
  ⟨rfl, .refl _ _⟩

theorem KeepsBut.trans {a b c : Files} {exception : List String} (hab : a.KeepsBut b exception)
    (hbc : b.KeepsBut c exception) : a.KeepsBut c exception :=
  ⟨hbc.home.trans hab.home, hab.tree.trans hbc.tree⟩

/-- Steps lead to a place of the tree. -/
theorem in_of_walk {files : Files} {steps : List String} {place : Place}
    (h : files.walk steps = .ok place) :
    place.In files.tree ∧ place.names = steps.foldl Place.namesAfter [] := by
  suffices hfrom : ∀ start : Place, start.In files.tree →
      steps.foldlM (Place.enter files.tree) start = .ok place →
      place.In files.tree ∧ place.names = steps.foldl Place.namesAfter start.names from
    hfrom (.root files.tree) (Place.in_root _) h
  clear h
  induction steps with
  | nil =>
    intro start hstart h
    cases h
    exact ⟨hstart, rfl⟩
  | cons step rest ih =>
    intro start hstart h
    rw [List.foldlM_cons] at h
    obtain ⟨next, hstep, h⟩ := exists_of_bind_eq_ok h
    obtain ⟨hnext, hnames⟩ := hstart.enter hstep
    rw [List.foldl_cons, ← hnames]
    exact ih next hnext h

/-- Steps that can be taken can be taken in a tree that has all directories. -/
theorem walk_of_keepsBut {before after : Files} {exception : List String}
    (hkeeps : before.KeepsBut after exception) {steps : List String} {place : Place}
    (h : before.walk steps = .ok place) :
    ∃ place', after.walk steps = .ok place' ∧ place'.names = place.names := by
  suffices hfrom : ∀ start other : Place, start.In before.tree → other.In after.tree →
      other.names = start.names → steps.foldlM (Place.enter before.tree) start = .ok place →
      ∃ place', steps.foldlM (Place.enter after.tree) other = .ok place'
        ∧ place'.names = place.names from
    hfrom (.root before.tree) (.root after.tree) (Place.in_root _) (Place.in_root _) rfl h
  clear h
  induction steps with
  | nil =>
    intro start other _ _ hnames h
    cases h
    exact ⟨other, rfl, hnames⟩
  | cons step rest ih =>
    -- both walks are at the same names, so that the step can be taken in both trees
    intro start other hstart hother hnames h
    rw [List.foldlM_cons] at h
    obtain ⟨next, hstep, h⟩ := exists_of_bind_eq_ok h
    obtain ⟨other', hstep', hnames'⟩ := hstart.enter_of_keepsBut hkeeps.tree hother hnames hstep
    rw [List.foldlM_cons, hstep']
    exact ih next other' (hstart.enter hstep).1 (hother.enter hstep').1 hnames' h

/-- The names to which a path leads, the outermost one first. -/
def address (files : Files) (path : String) : List String :=
  ((files.start path ++ pathSteps path).foldl Place.namesAfter []).reverse

/-- Paths lead to the same names while they begin at the same directory. -/
theorem KeepsBut.address {before after : Files} {exception : List String}
    (h : before.KeepsBut after exception) (path : String) :
    after.address path = before.address path := by
  unfold Files.address start
  rw [h.home]

/-- A path that leads to a name of a directory. -/
theorem locate_eq_ok_iff {files : Files} {path : String} {place : Place} {name : String} :
    files.locate path = .ok (place, some name) ↔
      path ≠ "" ∧ path.utf8ByteSize ≤ pathLimit
        ∧ (pathSteps path).getLast?.filter (¬ isDots ·) = some name
        ∧ files.walk (files.start path ++ pathSteps path).dropLast = .ok place := by
  unfold locate
  split
  · next hempty => simp [hempty]
  split
  · next hlong => simp [Nat.not_le.mpr hlong]
  next hne hlimit =>
  have hlimit' : path.utf8ByteSize ≤ pathLimit := Nat.not_lt.mp hlimit
  simp only [ne_eq, hne, not_false_eq_true, hlimit', true_and]
  split
  · next hlast =>
    rw [hlast]
    cases files.walk (files.start path ++ pathSteps path) <;>
      simp [bind, Except.bind, pure, Except.pure]
  · next last hlast =>
    rw [hlast]
    cases files.walk (files.start path ++ pathSteps path).dropLast <;>
      simp [bind, Except.bind, pure, Except.pure, and_comm]

/-- A path leads to a place of the tree and a name there, which are its address. -/
theorem in_of_locate {files : Files} {path : String} {place : Place} {name : String}
    (h : files.locate path = .ok (place, some name)) :
    place.In files.tree ∧ files.address path = place.names.reverse ++ [name] := by
  obtain ⟨-, -, hlast, hwalk⟩ := locate_eq_ok_iff.mp h
  obtain ⟨hname, hdots⟩ := Option.filter_eq_some_iff.mp hlast
  obtain ⟨front, hfront⟩ : ∃ front, files.start path ++ pathSteps path = front ++ [name] := by
    rw [← List.getLast?_eq_some_iff, List.getLast?_append, hname]
    rfl
  rw [hfront, List.dropLast_concat] at hwalk
  obtain ⟨hin, hnames⟩ := in_of_walk hwalk
  -- the last step is a name, so that it is put behind the others
  have hafter : Place.namesAfter place.names name = name :: place.names := by
    simp only [isDots, Bool.or_eq_true, decide_eq_true_eq, not_or] at hdots
    unfold Place.namesAfter
    rw [if_neg hdots.1, if_neg hdots.2]
  refine ⟨hin, ?_⟩
  unfold address
  rw [hfront, List.foldl_append, ← hnames]
  show (Place.namesAfter place.names name).reverse = _
  rw [hafter, List.reverse_cons]

/-- A path that leads to a name leads to it in a tree that has all directories. -/
theorem locate_of_keepsBut {before after : Files} {exception : List String}
    (hkeeps : before.KeepsBut after exception) {path : String} {place : Place} {name : String}
    (h : before.locate path = .ok (place, some name)) :
    ∃ place', after.locate path = .ok (place', some name) := by
  obtain ⟨hne, hlimit, hlast, hwalk⟩ := locate_eq_ok_iff.mp h
  obtain ⟨place', hwalk', -⟩ := walk_of_keepsBut hkeeps hwalk
  have hstart : after.start path = before.start path := by
    unfold start
    rw [hkeeps.home]
  exact ⟨place', locate_eq_ok_iff.mpr ⟨hne, hlimit, hlast, hstart ▸ hwalk'⟩⟩

/-! ### Reading -/

/-- What a path leads to is what its address leads to. -/
theorem entryAt?_address {files : Files} {path : String} {place : Place} {name : String}
    (h : files.locate path = .ok (place, some name)) :
    files.tree.entryAt? (files.address path) = place.entries.find? name := by
  obtain ⟨hin, haddress⟩ := in_of_locate h
  rw [haddress, hin.entryAt?_concat]

/-- A file is read where a path leads to a name that stands for it. -/
theorem read_eq_ok_iff {files : Files} {path : String} {content : List UInt8} :
    files.read path = .ok content ↔
      ∃ place name, files.locate path = .ok (place, some name) ∧ name.utf8ByteSize ≤ Place.nameLimit
        ∧ endsInSlash path = false
        ∧ files.tree.entryAt? (files.address path) = some (.file content) := by
  constructor
  · intro h
    unfold read at h
    obtain ⟨⟨place, name?⟩, hlocate, h⟩ := exists_of_bind_eq_ok h
    cases name? with
    | none => exact nomatch h
    | some name =>
      obtain ⟨found, hlook, h⟩ := exists_of_bind_eq_ok h
      obtain ⟨hlimit, hfind⟩ := Place.look_eq_ok_iff.mp hlook
      match found, h with
      | some (.file content'), h =>
        dsimp only at h
        split at h
        · exact nomatch h
        · next hslash =>
          cases h
          exact ⟨place, name, hlocate, hlimit, by simpa using hslash,
            (entryAt?_address hlocate).trans hfind⟩
  · rintro ⟨place, name, hlocate, hlimit, hslash, hentry⟩
    rw [entryAt?_address hlocate] at hentry
    have hlook : place.look name = .ok (some (.file content)) :=
      Place.look_eq_ok_iff.mpr ⟨hlimit, hentry⟩
    unfold read
    simp only [hlocate, hlook, ok_bind, hslash]
    rfl

/-- **Frame.** A path that leads to another file is read as before. -/
theorem read_of_keepsBut {before after : Files} {exception : List String}
    (hkeeps : before.KeepsBut after exception) {path : String} {content : List UInt8}
    (hother : before.address path ≠ exception) (h : before.read path = .ok content) :
    after.read path = .ok content := by
  obtain ⟨place, name, hlocate, hlimit, hslash, hentry⟩ := read_eq_ok_iff.mp h
  obtain ⟨place', hlocate'⟩ := locate_of_keepsBut hkeeps hlocate
  refine read_eq_ok_iff.mpr ⟨place', name, hlocate', hlimit, hslash, ?_⟩
  rw [hkeeps.address]
  exact hkeeps.tree.file _ content hother hentry

/-! ### Writing -/

/-- An entry that takes the place of a file or of nothing. -/
theorem keepsBut_put {files : Files} {path : String} {place : Place} {name : String}
    (h : files.locate path = .ok (place, some name)) (e : Entry)
    (hold : ∀ old, place.entries.find? name ≠ some (.directory old)) :
    files.KeepsBut (files.put place name e) (files.address path) := by
  obtain ⟨hin, haddress⟩ := in_of_locate h
  rw [haddress]
  exact ⟨rfl, Directory.keepsBut_update_put e hin hold⟩

/-- A file that was written has the content that it was given, and no other file has changed. -/
theorem write_eq_ok {files after : Files} {path : String} {bytes : List UInt8}
    (h : files.write path bytes = .ok after) :
    files.KeepsBut after (files.address path) ∧ after.read path = .ok bytes := by
  unfold write at h
  obtain ⟨⟨place, name?⟩, hlocate, h⟩ := exists_of_bind_eq_ok h
  cases name? with
  | none => exact nomatch h
  | some name =>
    dsimp only at h
    split at h
    · exact nomatch h
    next hslash =>
    obtain ⟨found, hlook, h⟩ := exists_of_bind_eq_ok h
    obtain ⟨hlimit, hfind⟩ := Place.look_eq_ok_iff.mp hlook
    have hold : ∀ old, found ≠ some (.directory old) := by
      rintro old rfl
      exact nomatch h
    have hafter : files.put place name (.file bytes) = after := by
      split at h
      · next old => exact absurd rfl (hold old)
      · exact Except.ok.inj h
    subst hafter
    have hkeeps : files.KeepsBut (files.put place name (.file bytes)) (files.address path) :=
      keepsBut_put hlocate _ (hfind ▸ hold)
    refine ⟨hkeeps, ?_⟩
    obtain ⟨place', hlocate'⟩ := locate_of_keepsBut hkeeps hlocate
    obtain ⟨hin, haddress⟩ := in_of_locate hlocate
    refine read_eq_ok_iff.mpr ⟨place', name, hlocate', hlimit, by simpa using hslash, ?_⟩
    -- the path leads to the changed directory still, and there to the new file
    have hchanged : (files.put place name (.file bytes)).tree.entryAt? place.names.reverse
        = some (.directory (place.entries.put name (.file bytes))) :=
      Directory.entryAt?_update _ hin
    rw [hkeeps.address, haddress, Directory.entryAt?_concat name hchanged, Directory.find?_put,
      if_pos rfl]

/-- Making directories changes no file. -/
theorem makeDirectory_eq_ok {files after : Files} {path : String}
    (h : files.makeDirectory path = .ok after) (exception : List String) :
    files.KeepsBut after exception := by
  unfold makeDirectory at h
  obtain ⟨⟨place, name?⟩, hlocate, h⟩ := exists_of_bind_eq_ok h
  cases name? with
  | none => exact nomatch h
  | some name =>
    obtain ⟨found, hlook, h⟩ := exists_of_bind_eq_ok h
    obtain ⟨-, hfind⟩ := Place.look_eq_ok_iff.mp hlook
    match found, h with
    | none, h =>
      cases h
      have hold : ∀ old, place.entries.find? name ≠ some (.directory old) := by
        intro old
        rw [hfind]
        exact nofun
      have hkeeps := keepsBut_put hlocate (.directory .empty) hold
      refine ⟨hkeeps.home, hkeeps.tree.of_entryAt?_eq_none ?_ exception⟩
      rw [entryAt?_address hlocate, hfind]

/-- A directory that was there or was made changes no file. -/
theorem ensureDirectory_eq_ok {files after : Files} {path : String}
    (h : files.ensureDirectory path = .ok after) (exception : List String) :
    files.KeepsBut after exception := by
  unfold ensureDirectory at h
  cases hmake : files.makeDirectory path with
  | ok made =>
    rw [hmake] at h
    cases h
    exact makeDirectory_eq_ok hmake exception
  | error e =>
    rw [hmake] at h
    dsimp only at h
    split at h
    · cases h
      exact .refl _ _
    · exact nomatch h

/-- Directories that were made one in another change no file. -/
theorem makeDirectories_eq_ok {files after : Files} {directories : List String}
    (h : files.makeDirectories directories = .ok after) (exception : List String) :
    files.KeepsBut after exception := by
  induction directories generalizing after with
  | nil =>
    cases h
    exact .refl _ _
  | cons directory above ih =>
    rw [makeDirectories] at h
    split at h
    · next made hmade =>
      cases h
      exact ensureDirectory_eq_ok hmade exception
    · -- the directories above are made first
      obtain ⟨held, habove, h⟩ := exists_of_bind_eq_ok h
      exact (ih habove).trans (ensureDirectory_eq_ok (eq_ok_of_mapError_eq_ok h) exception)
    · exact nomatch h

/-- Where not all directories could be made, those that were made change no file either. -/
theorem makeDirectories_eq_error {files : Files} {directories : List String}
    {setback : Setback FileError} (h : files.makeDirectories directories = .error setback)
    (exception : List String) : files.KeepsBut setback.files exception := by
  induction directories generalizing setback with
  | nil => exact nomatch h
  | cons directory above ih =>
    rw [makeDirectories] at h
    split at h
    · exact nomatch h
    · rcases error_or_exists_of_bind_eq_error h with habove | ⟨held, habove, h⟩
      · exact ih habove
      · -- the directories above are there, but the first one cannot be made in them
        obtain ⟨e, -, rfl⟩ := exists_of_mapError_eq_error h
        exact makeDirectories_eq_ok habove exception
    · cases h
      exact .refl _ _

end Files

end LightShow
