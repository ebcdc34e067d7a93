import LightShow.Command.Directory
import LightShow.Command.Path

namespace LightShow

/-!
# Files

* `FileError` — why a file cannot be read or written, with the text of the system;
* `Files` — a directory tree in which a program runs;
* `Files.locate` — the directory and the name to which a path leads;
* `Files.read`, `Files.makeDirectories`, `Files.write` — what a command does with files;
* `Setback` — why a change was given up, with the files as it left them.

A path is followed step by step. A step can only be taken in a directory, so that a file in the
middle of a path is an error even if the path leads back from it.
-/

/-- Why a file cannot be read or written. -/
inductive FileError where
  | notFound
  | notADirectory
  | isADirectory
  | alreadyExists
  | nameTooLong
  /-- A text that is not UTF-8. -/
  | invalidText
  /-- Another reason, given by the system. -/
  | other (reason : String)
  deriving DecidableEq

/-- The text of an error. -/
def FileError.message : FileError → String
  | .notFound => "No such file or directory (os error 2)"
  | .notADirectory => "Not a directory (os error 20)"
  | .isADirectory => "Is a directory (os error 21)"
  | .alreadyExists => "File exists (os error 17)"
  | .nameTooLong => "File name too long (os error 36)"
  | .invalidText => "stream did not contain valid UTF-8"
  | .other reason => reason

/-! ### Places -/

/-- A directory of a tree. -/
structure Place where
  /-- Its name and those of the directories above it, the innermost one first. -/
  names : List String
  /-- Its entries. -/
  entries : Directory
  deriving DecidableEq

namespace Place

/-- The root of a tree. -/
def root (tree : Directory) : Place := ⟨[], tree⟩

/-- The directory above, or the root itself. -/
def outer (tree : Directory) (place : Place) : Place :=
  ⟨place.names.tail, tree.descend place.names.tail.reverse⟩

/-- The longest name in bytes. -/
def nameLimit : Nat := 255

/-- What a name stands for, if it stands for anything. -/
def look (place : Place) (name : String) : Except FileError (Option Entry) :=
  if nameLimit < name.utf8ByteSize then .error .nameTooLong else .ok (place.entries.find? name)

/-- The directory to which a step leads. -/
def enter (tree : Directory) (place : Place) (step : String) : Except FileError Place :=
  if step = "." then .ok place
  else if step = ".." then .ok (place.outer tree)
  else do
    match ← place.look step with
    | some (.directory inner) => .ok ⟨step :: place.names, inner⟩
    | some (.file _) => .error .notADirectory
    | none => .error .notFound

end Place

/-! ### File trees -/

/-- A directory tree in which a program runs. -/
structure Files where
  /-- The tree, from its root. -/
  tree : Directory
  /-- The directory in which paths begin that do not begin at the root. -/
  home : List String
  deriving DecidableEq

namespace Files

/-- The tree of some files in a directory. -/
def ofList (home : List String) (files : List (String × List UInt8)) : Files where
  tree := files.foldl (fun tree file =>
      let steps := (pathSteps file.1).filter (¬ isDots ·)
      match steps.getLast? with
      | none => tree
      | some name => tree.update (·.put name (.file file.2)) (home ++ steps.dropLast))
    (Directory.empty.update id home)
  home := home

/-- The steps from the root to the directory in which a path begins. -/
def start (files : Files) (path : String) : List String :=
  if isAbsolute path then [] else files.home

/-- The directory to which steps lead from the root. -/
def walk (files : Files) (steps : List String) : Except FileError Place :=
  steps.foldlM (Place.enter files.tree) (.root files.tree)

/-- The longest path in bytes. -/
def pathLimit : Nat := 4095

/-- The directory to which a path leads and the name that it has there; a path whose last step is
    not a name leads to the directory itself. -/
def locate (files : Files) (path : String) : Except FileError (Place × Option String) :=
  if path = "" then .error .notFound
  else if pathLimit < path.utf8ByteSize then .error .nameTooLong
  else
    let steps := files.start path ++ pathSteps path
    match (pathSteps path).getLast?.filter (¬ isDots ·) with
    | none => do return (← files.walk steps, none)
    | some name => do return (← files.walk steps.dropLast, some name)

/-- The tree with a new entry for a name at a place. -/
def put (files : Files) (place : Place) (name : String) (entry : Entry) : Files :=
  { files with tree := files.tree.update (·.put name entry) place.names.reverse }

/-! ### Reading and writing -/

/-- Whether a path leads to a directory. -/
def isDirectory (files : Files) (path : String) : Bool :=
  match files.locate path with
  | .error _ => false
  | .ok (_, none) => true
  | .ok (place, some name) =>
    match place.look name with
    | .ok (some (.directory _)) => true
    | _ => false

/-- The bytes of a file. -/
def read (files : Files) (path : String) : Except FileError (List UInt8) := do
  match ← files.locate path with
  | (_, none) => .error .isADirectory
  | (place, some name) =>
    match ← place.look name with
    | none => .error .notFound
    | some (.directory _) => .error .isADirectory
    | some (.file content) => if endsInSlash path then .error .notADirectory else .ok content

/-- Makes a directory in one that is there. -/
def makeDirectory (files : Files) (path : String) : Except FileError Files := do
  match ← files.locate path with
  | (_, none) => .error .alreadyExists
  | (place, some name) =>
    match ← place.look name with
    | some _ => .error .alreadyExists
    | none => .ok (files.put place name (.directory .empty))

/-- Makes a directory that may already be there. -/
def ensureDirectory (files : Files) (path : String) : Except FileError Files :=
  match files.makeDirectory path with
  | .ok files => .ok files
  | .error e => if files.isDirectory path then .ok files else .error e

/-- Gives a file a content. Its directory has to be there. -/
def write (files : Files) (path : String) (bytes : List UInt8) : Except FileError Files := do
  match ← files.locate path with
  | (_, none) => .error .isADirectory
  | (place, some name) =>
    if endsInSlash path then .error .isADirectory
    else
      match ← place.look name with
      | some (.directory _) => .error .isADirectory
      | _ => .ok (files.put place name (.file bytes))

end Files

/-! ### Changes in several steps -/

/-- A change that was given up half-way. What its first steps did is not undone. -/
structure Setback (ε : Type) where
  error : ε
  /-- The files as they were left. -/
  files : Files
  deriving DecidableEq

/-- The same setback with its error in other words. -/
def Setback.mapError {ε ε' : Type} (f : ε → ε') (setback : Setback ε) : Setback ε' :=
  ⟨f setback.error, setback.files⟩

/-- Makes the first of some directories. Each of the others holds the one before it, and is made if
    that cannot be made without it. -/
def Files.makeDirectories (files : Files) : List String → Except (Setback FileError) Files
  | [] => .ok files
  | directory :: above =>
    match files.ensureDirectory directory with
    | .ok made => .ok made
    | .error .notFound => do
      let held ← files.makeDirectories above
      (held.ensureDirectory directory).mapError (⟨·, held⟩)
    | .error e => .error ⟨e, files⟩

end LightShow
