import LightShow.Command.Run

namespace LightShow

/-!
# The program

Reads the files that a command names, and then carries out what the command plans to do.
-/

/-- The number of an error. Some calls report the negative of it. -/
def errorNumber (code : UInt32) : UInt32 := if code < 0x80000000 then code else 0 - code

/-- The error of a number that the system gave, unless there is no name for it here. -/
def numberedError? (code : UInt32) : Option FileError :=
  match errorNumber code with
  | 2 => some .notFound
  | 17 => some .alreadyExists
  | 20 => some .notADirectory
  | 21 => some .isADirectory
  | 36 => some .nameTooLong
  | _ => none

/-- The error that the system reports. -/
def fileErrorOf (e : IO.Error) : FileError :=
  match e with
  | .noFileOrDirectory _ code _ | .alreadyExists _ code _ | .inappropriateType _ code _
  | .invalidArgument _ code _ => (numberedError? code).getD (.other (toString e))
  | _ => .other (toString e)

/-- An action of the system, with its error as a value. -/
def attempt {α : Type} (action : IO α) : IO (Except FileError α) := do
  try return .ok (← action)
  catch e => return .error (fileErrorOf e)

/-- Reads files. -/
def readAll (paths : List String) : IO (List (String × Except FileError (List UInt8))) :=
  paths.mapM fun path : String => do
    return (path, (← attempt (IO.FS.readBinFile path)).map (·.data.toList))

/-- Makes a directory that may already be there, which the second attempt finds out. -/
def ensureDirectory (path : String) : IO (Except FileError Unit) := do
  match ← attempt (IO.FS.createDir path) with
  | .ok _ => return .ok ()
  | .error .notFound => return .error .notFound
  | .error e =>
    match ← attempt (IO.FS.createDirAll path) with
    | .ok _ => return .ok ()
    | .error _ => return .error e

/-- Makes the first of some directories. Each of the others holds the one before it, and is made if
    that cannot be made without it. -/
def makeDirectories : List String → IO (Except FileError Unit)
  | [] => return .ok ()
  | directory :: above => do
    match ← ensureDirectory directory with
    | .error .notFound =>
      match ← makeDirectories above with
      | .error e => return .error e
      | .ok _ => ensureDirectory directory
    | result => return result

/-- Saves a file, whose directory is made if it is missing. -/
def save (path : String) (bytes : List UInt8) : IO (Except Failure Unit) := do
  let directories := directoriesOf path
  if let .error e ← makeDirectories directories then
    return .error (.aboutDirectories directories e)
  match ← attempt (IO.FS.writeBinFile path ⟨bytes.toArray⟩) with
  | .ok _ => return .ok ()
  | .error e => return .error (.about "write" path e.message)

/-- Prints about a failure. -/
def fail (f : Failure) : IO UInt32 := do
  IO.eprint f.report
  return 1

/-- Carries out actions up to the first failure. -/
def performAll : List Action → IO UInt32
  | [] => return 0
  | .print text :: rest => do
    IO.print text
    performAll rest
  | .save path bytes :: rest => do
    match ← save path bytes with
    | .error f => fail f
    | .ok _ =>
      IO.eprintln ("wrote " ++ path)
      performAll rest

/-- Runs a command. -/
def runCommand (command : Command) : IO UInt32 := do
  let contents ← readAll command.inputs
  let read := fun path => (contents.lookup path).getD (.error .notFound)
  match command.plan read with
  | .error f => fail f
  | .ok actions => performAll actions

end LightShow

open LightShow in
/-- Runs the command of the arguments. -/
def main (arguments : List String) : IO UInt32 := do
  match Request.ofArguments? arguments with
  | none =>
    IO.eprint usage
    return 2
  | some .help =>
    IO.print usage
    return 0
  | some .version =>
    IO.print versionLine
    return 0
  | some (.run command) => runCommand command
