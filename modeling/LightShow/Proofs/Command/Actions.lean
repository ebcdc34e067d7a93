import LightShow.Command.Run
import LightShow.Proofs.Command.Files

namespace LightShow

/-!
# What is left after a command

* `saveFile_eq_ok` — a file that was saved is read as it was written, and other files as before;
* `saveFile_eq_error` — a file that could not be saved leaves no file changed;
* `Files.CanSave` — files can be saved under some paths, one after another;
* `Files.canSave_of_isFileName` — names in the home directory can be saved;
* `Outcome.Did` — what is printed and what is in the files when some actions were done;
* `Command.run_did` — a command does all actions of its plan where it can save its files.

A path may lead to a file that was saved before under another path. What is read there is what was
saved last.
-/

/-! ### Saving -/

/-- A file that was saved is read as it was written, and no other file has changed. The directories
    that were made for it take nothing away. -/
theorem saveFile_eq_ok {files after : Files} {path : String} {bytes : List UInt8}
    (h : saveFile files path bytes = .ok after) :
    files.KeepsBut after (files.address path) ∧ after.read path = .ok bytes := by
  unfold saveFile at h
  obtain ⟨held, hmade, h⟩ := exists_of_bind_eq_ok h
  have hdirectories : files.KeepsBut held (files.address path) :=
    Files.makeDirectories_eq_ok (eq_ok_of_mapError_eq_ok hmade) _
  obtain ⟨hkeeps, hread⟩ := Files.write_eq_ok (eq_ok_of_mapError_eq_ok h)
  rw [hdirectories.address] at hkeeps
  exact ⟨hdirectories.trans hkeeps, hread⟩

/-- A file that could not be saved leaves all files as they were. There may be new directories. -/
theorem saveFile_eq_error {files : Files} {path : String} {bytes : List UInt8}
    {setback : Setback Failure} (h : saveFile files path bytes = .error setback)
    (exception : List String) : files.KeepsBut setback.files exception := by
  unfold saveFile at h
  rcases error_or_exists_of_bind_eq_error h with hmake | ⟨held, hmade, h⟩
  · obtain ⟨given, hgiven, rfl⟩ := exists_of_mapError_eq_error hmake
    exact Files.makeDirectories_eq_error hgiven exception
  · -- the directories were made, but the file in them cannot be written
    obtain ⟨e, -, rfl⟩ := exists_of_mapError_eq_error h
    exact Files.makeDirectories_eq_ok (eq_ok_of_mapError_eq_ok hmade) exception

/-- A path with a slash at its end cannot be written, but the directory above it has been made. -/
example :
    let outcome := respond ["init", "--out", "new/sub/"] (.ofList ["work"] [])
    outcome.exit = 1
      ∧ outcome.files = { Files.ofList ["work", "new"] [] with home := ["work"] } := by
  decide +kernel

/-- Files can be saved under these paths, one after another, whatever they hold. -/
def Files.CanSave : Files → List String → Prop
  | _, [] => True
  | files, path :: rest =>
    ∀ bytes, ∃ after, saveFile files path bytes = .ok after ∧ after.CanSave rest

/-! ### Names in the home directory -/

/-- A path that is the name of a file. -/
structure IsFileName (path : String) : Prop where
  slash_notMem : '/' ∉ path.toList
  ne_empty : path ≠ ""
  isDots_eq_false : isDots path = false
  size_le : path.utf8ByteSize ≤ Place.nameLimit

instance : DecidablePred IsFileName := fun path =>
  decidable_of_decidable_of_iff (p := '/' ∉ path.toList ∧ path ≠ "" ∧ isDots path = false
      ∧ path.utf8ByteSize ≤ Place.nameLimit)
    ⟨fun ⟨hslash, hne, hdots, hsize⟩ => ⟨hslash, hne, hdots, hsize⟩,
      fun ⟨hslash, hne, hdots, hsize⟩ => ⟨hslash, hne, hdots, hsize⟩⟩

/-- A path without slashes is its only part. -/
theorem pathParts_of_not_mem {path : String} (h : '/' ∉ path.toList) : pathParts path = [path] := by
  have hfold : ∀ text : List Char, '/' ∉ text → text.foldr prepend ([], []) = (text, []) := by
    intro text htext
    induction text with
    | nil => rfl
    | cons c rest ih =>
      rw [List.mem_cons, not_or] at htext
      rw [List.foldr_cons, ih htext.2, prepend, if_neg (Ne.symm htext.1)]
  unfold pathParts
  rw [hfold _ h]
  simp

namespace IsFileName

variable {name : String}

theorem endsInSlash_eq_false (h : IsFileName name) : endsInSlash name = false :=
  decide_eq_false fun hends => h.slash_notMem (List.mem_of_getLast? hends)

theorem directoriesOf_eq_nil (h : IsFileName name) : directoriesOf name = [] := by
  have hidle : isIdle name = false := by
    have hdots := h.isDots_eq_false
    simp only [isDots, Bool.or_eq_false_iff, decide_eq_false_iff_not] at hdots
    simp [isIdle, h.ne_empty, hdots.1]
  have hparent : parentParts [name] = [] := by
    unfold parentParts
    simp [hidle]
  unfold directoriesOf
  rw [pathParts_of_not_mem h.slash_notMem, List.reverse_singleton, directoriesAbove,
    dif_pos hparent]

/-- A name leads to the home directory, where it stands as it is. -/
theorem locate_eq {files : Files} {place : Place} (h : IsFileName name)
    (hhome : files.walk files.home = .ok place) :
    files.locate name = .ok (place, some name) := by
  have hsteps : pathSteps name = [name] := by
    unfold pathSteps
    rw [pathParts_of_not_mem h.slash_notMem]
    simp [h.ne_empty]
  have hstart : files.start name = files.home := by
    have hrelative : isAbsolute name = false :=
      decide_eq_false fun habsolute => h.slash_notMem (List.mem_of_mem_head? habsolute)
    unfold Files.start
    rw [hrelative]
    rfl
  have hlimit : name.utf8ByteSize ≤ Files.pathLimit := Nat.le_trans h.size_le (by decide)
  refine Files.locate_eq_ok_iff.mpr ⟨h.ne_empty, hlimit, ?_, ?_⟩
  · rw [hsteps]
    simp [h.isDots_eq_false]
  · rw [hsteps, hstart, List.dropLast_concat]
    exact hhome

/-- A file of the home directory is read under its name. -/
theorem read_eq {files : Files} {place : Place} {content : List UInt8} (h : IsFileName name)
    (hhome : files.walk files.home = .ok place)
    (hfile : place.entries.find? name = some (.file content)) : files.read name = .ok content := by
  have hlocate := h.locate_eq hhome
  exact Files.read_eq_ok_iff.mpr ⟨place, name, hlocate, h.size_le, h.endsInSlash_eq_false,
    (Files.entryAt?_address hlocate).trans hfile⟩

/-- A name that does not stand for a directory can be given to a file. -/
theorem saveFile_eq {files : Files} {place : Place} (h : IsFileName name)
    (hhome : files.walk files.home = .ok place)
    (hfree : ∀ inner, place.entries.find? name ≠ some (.directory inner)) (bytes : List UInt8) :
    saveFile files name bytes = .ok (files.put place name (.file bytes)) := by
  have hlook : place.look name = .ok (place.entries.find? name) :=
    Place.look_eq_ok_iff.mpr ⟨h.size_le, rfl⟩
  have hwrite : files.write name bytes = .ok (files.put place name (.file bytes)) := by
    unfold Files.write
    simp only [h.locate_eq hhome, h.endsInSlash_eq_false, hlook, ok_bind]
    exact if_neg Bool.false_ne_true
  unfold saveFile
  rw [h.directoriesOf_eq_nil]
  simp only [Files.makeDirectories, hwrite, ok_bind, mapError_ok]

end IsFileName

/-- An entry that is put into the home directory is found there. -/
theorem Files.walk_home_put {files : Files} {place : Place} {name : String} (e : Entry)
    (hname : IsFileName name) (hhome : files.walk files.home = .ok place)
    (hfree : ∀ inner, place.entries.find? name ≠ some (.directory inner)) :
    (files.put place name e).walk files.home = .ok ⟨place.names, place.entries.put name e⟩ := by
  have hkeeps := Files.keepsBut_put (hname.locate_eq hhome) e hfree
  obtain ⟨⟨names, entries⟩, hwalk, hnames⟩ := Files.walk_of_keepsBut hkeeps hhome
  obtain rfl : names = place.names := hnames
  have hentries : (files.put place name e).tree.entryAt? place.names.reverse
      = some (.directory entries) := (Files.in_of_walk hwalk).1
  have hput : (files.put place name e).tree.entryAt? place.names.reverse
      = some (.directory (place.entries.put name e)) :=
    Directory.entryAt?_update _ (Files.in_of_walk hhome).1
  cases Option.some.inj (hentries.symm.trans hput)
  exact hwalk

/-- Names in the home directory can be saved unless they stand for directories. -/
theorem Files.canSave_of_isFileName {files : Files} {place : Place} {names : List String}
    (hhome : files.walk files.home = .ok place) (hnames : ∀ name ∈ names, IsFileName name)
    (hfree : ∀ name ∈ names, ∀ inner, place.entries.find? name ≠ some (.directory inner)) :
    files.CanSave names := by
  induction names generalizing files place with
  | nil => trivial
  | cons name rest ih =>
    intro bytes
    have hname : IsFileName name := hnames name List.mem_cons_self
    have hfree' := hfree name List.mem_cons_self
    refine ⟨_, hname.saveFile_eq hhome hfree' bytes, ?_⟩
    have hhome' := Files.walk_home_put (.file bytes) hname hhome hfree'
    refine ih hhome' (fun other hother => hnames other (List.mem_cons_of_mem _ hother)) ?_
    intro other hother inner
    rw [Directory.find?_put]
    split
    · exact nofun
    · exact hfree other (List.mem_cons_of_mem _ hother) inner

/-! ### Single actions -/

namespace Action

/-- The path under which a file is saved. -/
def path? : Action → Option String
  | .save path _ => some path
  | .print _ => none

/-- What is printed. -/
def text : Action → String
  | .save _ _ => ""
  | .print text => text

end Action

namespace Outcome

/-- A failed call does nothing more. -/
theorem perform_of_failed {o : Outcome} (hexit : o.exit ≠ 0) (action : Action) :
    o.perform action = o := if_pos hexit

/-- A text is printed behind the others. -/
theorem perform_print {o : Outcome} (hexit : o.exit = 0) (text : String) :
    o.perform (.print text) = { o with stdout := o.stdout ++ text } :=
  if_neg (not_not_intro hexit)

/-- A file that can be saved is reported. -/
theorem perform_save {o : Outcome} {path : String} {bytes : List UInt8} {after : Files}
    (hexit : o.exit = 0) (hsave : saveFile o.files path bytes = .ok after) :
    o.perform (.save path bytes)
      = { o with stderr := o.stderr ++ "wrote " ++ path ++ "\n", files := after } := by
  unfold perform
  rw [if_neg (not_not_intro hexit)]
  dsimp only
  rw [hsave]

/-- A file that cannot be saved ends the call, with the directories that were made for it. -/
theorem perform_save_of_error {o : Outcome} {path : String} {bytes : List UInt8}
    {setback : Setback Failure} (hexit : o.exit = 0)
    (hsave : saveFile o.files path bytes = .error setback) :
    o.perform (.save path bytes)
      = { o with exit := 1, stderr := o.stderr ++ setback.error.report,
                 files := setback.files } := by
  unfold perform
  rw [if_neg (not_not_intro hexit)]
  dsimp only
  rw [hsave]

/-- What an action can do to the files: nothing, or change the one that it saves. -/
theorem files_perform (o : Outcome) (action : Action) :
    (o.perform action).files = o.files
      ∨ ∃ saved ∈ action.path?,
        o.files.KeepsBut (o.perform action).files (o.files.address saved) := by
  by_cases hexit : o.exit = 0
  · cases action with
    | print text =>
      rw [perform_print hexit]
      exact .inl rfl
    | save path bytes =>
      refine .inr ⟨path, rfl, ?_⟩
      cases hsave : saveFile o.files path bytes with
      | ok after =>
        rw [perform_save hexit hsave]
        exact (saveFile_eq_ok hsave).1
      | error setback =>
        rw [perform_save_of_error hexit hsave]
        exact saveFile_eq_error hsave _
  · rw [perform_of_failed hexit]
    exact .inl rfl

/-- Paths lead to the same names after an action. -/
theorem address_perform (o : Outcome) (action : Action) (path : String) :
    (o.perform action).files.address path = o.files.address path := by
  rcases files_perform o action with hfiles | ⟨saved, -, hkeeps⟩
  · rw [hfiles]
  · exact hkeeps.address path

/-- A path that leads to another file than the one that is saved is read as before. -/
theorem read_perform {o : Outcome} {action : Action} {path : String} {content : List UInt8}
    (hother : ∀ saved ∈ action.path?, o.files.address path ≠ o.files.address saved)
    (h : o.files.read path = .ok content) : (o.perform action).files.read path = .ok content := by
  rcases files_perform o action with hfiles | ⟨saved, hsaved, hkeeps⟩
  · rw [hfiles]
    exact h
  · exact Files.read_of_keepsBut hkeeps (hother saved hsaved) h

/-- An action is done where its file can be saved. -/
theorem perform_of_canSave {o : Outcome} {action : Action} {rest : List String}
    (hexit : o.exit = 0) (h : o.files.CanSave (action.path?.toList ++ rest)) :
    (o.perform action).exit = 0 ∧ (o.perform action).stdout = o.stdout ++ action.text
      ∧ (o.perform action).files.CanSave rest := by
  cases action with
  | print text =>
    rw [perform_print hexit]
    exact ⟨hexit, rfl, h⟩
  | save path bytes =>
    obtain ⟨after, hsave, hrest⟩ := h bytes
    rw [perform_save hexit hsave]
    exact ⟨hexit, String.append_empty.symm, hrest⟩

/-- A file is read as it was saved. -/
theorem read_perform_save {o : Outcome} {path : String} {bytes : List UInt8} {rest : List String}
    (hexit : o.exit = 0) (h : o.files.CanSave (path :: rest)) :
    (o.perform (.save path bytes)).files.read path = .ok bytes := by
  obtain ⟨after, hsave, -⟩ := h bytes
  rw [perform_save hexit hsave]
  exact (saveFile_eq_ok hsave).2

end Outcome

/-! ### All actions of a command -/

/-- The paths under which some actions save files, in their order. -/
def savedPaths (actions : List Action) : List String := actions.filterMap Action.path?

@[simp] theorem savedPaths_cons (action : Action) (actions : List Action) :
    savedPaths (action :: actions) = action.path?.toList ++ savedPaths actions := by
  cases action <;> rfl

/-- What some actions print. -/
def printed (actions : List Action) : String := String.join (actions.map Action.text)

@[simp] theorem printed_cons (action : Action) (actions : List Action) :
    printed (action :: actions) = action.text ++ printed actions := by
  unfold printed
  rw [List.map_cons, String.join_cons]

namespace Outcome

/-- Paths lead to the same names after any actions. -/
theorem address_foldl_perform (o : Outcome) (actions : List Action) (path : String) :
    (actions.foldl perform o).files.address path = o.files.address path := by
  induction actions generalizing o with
  | nil => rfl
  | cons action rest ih => rw [List.foldl_cons, ih, address_perform]

/-- A path that leads to none of the files that are saved is read as before. -/
theorem read_foldl_perform {o : Outcome} {actions : List Action} {path : String}
    {content : List UInt8}
    (hother : ∀ saved ∈ savedPaths actions, o.files.address path ≠ o.files.address saved)
    (h : o.files.read path = .ok content) :
    (actions.foldl perform o).files.read path = .ok content := by
  induction actions generalizing o with
  | nil => exact h
  | cons action rest ih =>
    rw [savedPaths_cons] at hother
    apply ih
    · intro saved hs
      rw [address_perform, address_perform]
      exact hother saved (List.mem_append_right _ hs)
    · apply read_perform _ h
      intro saved hs
      exact hother saved (List.mem_append_left _ (Option.mem_toList.mpr hs))

/-- Actions are done where their files can be saved. -/
theorem foldl_perform_of_canSave {o : Outcome} {actions : List Action} {rest : List String}
    (hexit : o.exit = 0) (h : o.files.CanSave (savedPaths actions ++ rest)) :
    (actions.foldl perform o).exit = 0
      ∧ (actions.foldl perform o).stdout = o.stdout ++ printed actions
      ∧ (actions.foldl perform o).files.CanSave rest := by
  induction actions generalizing o with
  | nil => exact ⟨hexit, String.append_empty.symm, h⟩
  | cons action actions ih =>
    rw [savedPaths_cons, List.append_assoc] at h
    obtain ⟨hexit', hstdout, hrest⟩ := perform_of_canSave hexit h
    obtain ⟨hexit'', hstdout', hrest'⟩ := ih hexit' hrest
    refine ⟨hexit'', ?_, hrest'⟩
    rw [List.foldl_cons, hstdout', hstdout, String.append_assoc, printed_cons]

/-- A file that is read as it was saved is still read so after actions that leave it alone. -/
theorem read_foldl_of_read_perform {o : Outcome} {front behind : List Action} {path : String}
    {bytes : List UInt8}
    (hsaved : ((front.foldl perform o).perform (.save path bytes)).files.read path = .ok bytes)
    (hbehind : ∀ saved ∈ savedPaths behind, o.files.address path ≠ o.files.address saved) :
    ((front ++ .save path bytes :: behind).foldl perform o).files.read path = .ok bytes := by
  rw [List.foldl_append, List.foldl_cons]
  refine read_foldl_perform ?_ hsaved
  intro saved hs
  rw [address_perform, address_perform, address_foldl_perform, address_foldl_perform]
  exact hbehind saved hs

/-- What was saved last is read. -/
theorem read_foldl_perform_save {o : Outcome} {front behind : List Action} {path : String}
    {bytes : List UInt8} {rest : List String} (hexit : o.exit = 0)
    (h : o.files.CanSave (savedPaths front ++ path :: rest))
    (hbehind : ∀ saved ∈ savedPaths behind, o.files.address path ≠ o.files.address saved) :
    ((front ++ .save path bytes :: behind).foldl perform o).files.read path = .ok bytes := by
  obtain ⟨hexit', -, hsave⟩ := foldl_perform_of_canSave hexit h
  exact read_foldl_of_read_perform (read_perform_save hexit' hsave) hbehind

/-- Some actions were done, from given files on, and after them files can be saved under the paths
    of `rest`. -/
structure Did (start : Files) (actions : List Action) (rest : List String) (o : Outcome) :
    Prop where
  exit : o.exit = 0
  stdout : o.stdout = printed actions
  canSave : o.files.CanSave rest
  address : ∀ path, o.files.address path = start.address path
  /-- What was saved last is read. -/
  read_saved : ∀ front path bytes behind, actions = front ++ .save path bytes :: behind →
    (∀ saved ∈ savedPaths behind, start.address path ≠ start.address saved) →
    o.files.read path = .ok bytes
  /-- Where nothing was saved, what was there is read. -/
  read_other : ∀ path content,
    (∀ saved ∈ savedPaths actions, start.address path ≠ start.address saved) →
    start.read path = .ok content → o.files.read path = .ok content

end Outcome

/-- A command with a plan carries it out, one action after another. -/
theorem Command.run_eq_foldl {command : Command} {files : Files} {actions : List Action}
    (hplan : command.plan files.read = .ok actions) :
    command.run files = actions.foldl Outcome.perform ⟨0, "", "", files⟩ := by
  unfold Command.run
  rw [hplan]

/-- **All actions.** A command does what its plan says where it can save its files. -/
theorem Command.run_did {command : Command} {files : Files} {actions : List Action}
    {rest : List String} (hplan : command.plan files.read = .ok actions)
    (h : files.CanSave (savedPaths actions ++ rest)) :
    (command.run files).Did files actions rest := by
  rw [run_eq_foldl hplan]
  have hstart : (⟨0, "", "", files⟩ : Outcome).exit = 0 := rfl
  obtain ⟨hexit, hstdout, hcanSave⟩ := Outcome.foldl_perform_of_canSave hstart h
  refine ⟨hexit, ?_, hcanSave, Outcome.address_foldl_perform _ actions, ?_, ?_⟩
  · rw [hstdout, String.empty_append]
  · rintro front path bytes behind rfl hbehind
    have hpaths : savedPaths (front ++ .save path bytes :: behind) ++ rest
        = savedPaths front ++ path :: (savedPaths behind ++ rest) := by
      unfold savedPaths
      rw [List.filterMap_append, List.append_assoc]
      rfl
    rw [hpaths] at h
    exact Outcome.read_foldl_perform_save hstart h hbehind
  · intro path content hother hread
    exact Outcome.read_foldl_perform hother hread

end LightShow
