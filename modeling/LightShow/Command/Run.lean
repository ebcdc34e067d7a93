import LightShow.Command.Arguments
import LightShow.Command.Files
import LightShow.Decimal.Fixed
import LightShow.Digest.Sha256
import LightShow.Lanes
import LightShow.Layout.Json
import LightShow.Project.Starter
import LightShow.Show.Artifact

namespace LightShow

/-!
# Running commands

* `Failure` — a failed command's message, with its cause;
* `Action` — what a command writes or prints;
* `Command.plan` — the actions of a command, given how files are read;
* `Outcome`, `respond` — what a program call with some arguments prints and leaves behind.

A command reads all its files before it writes the first one, so that a command that fails while it
reads or computes writes nothing.
-/

/-! ### Failures -/

/-- A message, and what lies behind it. -/
structure Failure where
  message : String
  cause : Option String
  deriving DecidableEq

namespace Failure

/-- The failure that an error amounts to. -/
def ofError (e : ShowError) : Failure := ⟨e.message, none⟩

/-- What a failed command was about to do, in front of a path, and why it could not. -/
def about (action path cause : String) : Failure := ⟨action ++ " '" ++ path ++ "'", some cause⟩

/-- The lines of a cause, indented. -/
def indented (cause : String) : String :=
  "\n".intercalate ((cause.splitOn "\n").map ("    " ++ ·))

/-- What is printed about a failure. -/
def report (f : Failure) : String :=
  "Error: " ++ f.message ++ "\n" ++
    match f.cause with
    | none => ""
    | some cause => "\nCaused by:\n" ++ indented cause ++ "\n"

end Failure

/-! ### Reading -/

/-- How files are read. -/
abbrev FileReader := String → Except FileError (List UInt8)

/-- The UTF-8 bytes of a text. -/
def utf8 (text : String) : List UInt8 := text.toUTF8.data.toList

/-- The text of UTF-8 bytes. -/
def ofUtf8? (bytes : List UInt8) : Option String := String.fromUTF8? ⟨bytes.toArray⟩

/-- The text of a file; `action` says what it is read for. -/
def readText (read : FileReader) (action path : String) : Except Failure String :=
  match read path with
  | .error e => .error (.about action path e.message)
  | .ok bytes =>
    match ofUtf8? bytes with
    | some text => .ok text
    | none => .error (.about action path FileError.invalidText.message)

/-- The project of a file. -/
def readProject (read : FileReader) (path : String) : Except Failure Project := do
  let text ← readText read "read project" path
  (Project.parse text).mapError .ofError

/-- The layout of a file, or the standard one. -/
def readLayout (read : FileReader) : Option String → Except Failure Layout
  | none => .ok .standard
  | some path => do
    let text ← readText read "read layout" path
    (Layout.parse text).mapError fun e => .about "parse layout" path e.message

/-- The project of an artifact in a file. -/
def readArtifact (read : FileReader) (path : String) : Except Failure Project := do
  let text ← readText read "read artifact" path
  (Project.ofArtifact text).mapError fun e => .about "import" path e.message

/-! ### Plans -/

/-- Something that a command does. -/
inductive Action where
  /-- Gives a file a content. -/
  | save (path : String) (bytes : List UInt8)
  /-- Prints a text. -/
  | print (text : String)
  deriving DecidableEq

/-- A line about an LED: its index, part, place, color and state. -/
def frameLine (layout : Layout) (led : Nat) (state : LedState) : String :=
  let index := led.toUInt16
  let position := layout.position index .handsDown
  let places := fun x => String.ofList ((Double.ofFloat x).fixed 3)
  "\t".intercalate [decimalText led, (layout.partAt index).getD "-", places position.1,
    places position.2, state.display.hex, if state.isIdle then "idle" else "lit"] ++ "\n"

/-- The lines about the LEDs of a suit. -/
def frameLines (layout : Layout) (states : List LedState) : String :=
  String.join (states.zipIdx.map fun led => frameLine layout led.2 led.1)

namespace Command

/-- The files that a command reads. -/
def inputs : Command → List String
  | .init _ _ => []
  | .compile input _ _ table _ => input :: table.toList
  | .recover input _ => [input]
  | .frame input _ _ table => input :: table.toList
  | .lanes input _ => [input]
  | .layout _ => []

/-- What a command does. -/
def plan (read : FileReader) : Command → Except Failure (List Action)
  | .init out empty =>
    let project := if empty then Project.starter 30000 else Project.demo
    .ok [.save out (utf8 project.toJson.pretty)]
  | .compile input out binary table options => do
    let project ← readProject read input
    let layout ← readLayout read table
    let compiled ← (project.compile layout options).mapError .ofError
    let artifact := utf8 compiled.artifact
    return [.save out artifact, .print ("sha256: " ++ Sha256.hexDigest artifact ++ "\n")]
      ++ (binary.map fun path => Action.save path (Event.bytes compiled.events)).toList
  | .recover input out => do
    let project ← readArtifact read input
    return [.save out (utf8 project.toJson.pretty)]
  | .frame input suit time table => do
    let project ← readProject read input
    let layout ← readLayout read table
    match project.suit? suit with
    | none =>
      .error ⟨"suit " ++ decimalText suit.toNat ++ " is not part of the project", none⟩
    | some s => return [.print (frameLines layout (s.states layout project.cues time.toFloat))]
  | .lanes input suit => do
    let project ← readProject read input
    return [.print ((project.lanesFor suit).toJson.pretty ++ "\n")]
  | .layout none => .ok [.print (Layout.standard.toJson.pretty ++ "\n")]
  | .layout (some out) => .ok [.save out (utf8 Layout.standard.toJson.pretty)]

end Command

/-! ### Calls -/

/-- What a program call prints and leaves behind. -/
structure Outcome where
  /-- Zero if all went well, one if the command failed, two if it could not be understood. -/
  exit : Nat
  stdout : String
  stderr : String
  files : Files
  deriving DecidableEq

/-- The failure to make the directories above a file, of which the innermost one is named. -/
def Failure.aboutDirectories (directories : List String) (e : FileError) : Failure :=
  .about "create output dir" (directories.headD "") e.message

/-- The files with one of a new content, whose directory is made if it is missing, and stays even if
    the file cannot be written. -/
def saveFile (files : Files) (path : String) (bytes : List UInt8) :
    Except (Setback Failure) Files := do
  let directories := directoriesOf path
  let held ← (files.makeDirectories directories).mapError
    (·.mapError (.aboutDirectories directories))
  (held.write path bytes).mapError fun e => ⟨.about "write" path e.message, held⟩

namespace Outcome

/-- The outcome after one more action; a failure ends the call. -/
def perform (o : Outcome) (action : Action) : Outcome :=
  if o.exit ≠ 0 then o
  else
    match action with
    | .print text => { o with stdout := o.stdout ++ text }
    | .save path bytes =>
      match saveFile o.files path bytes with
      | .ok files => { o with stderr := o.stderr ++ "wrote " ++ path ++ "\n", files := files }
      | .error setback =>
        { o with exit := 1, stderr := o.stderr ++ setback.error.report, files := setback.files }

end Outcome

/-- The outcome of a command. -/
def Command.run (command : Command) (files : Files) : Outcome :=
  match command.plan files.read with
  | .error f => ⟨1, "", f.report, files⟩
  | .ok actions => actions.foldl Outcome.perform ⟨0, "", "", files⟩

/-- How the program is called. -/
def usage : String :=
  "Usage: lumina <init|compile|import|frame|lanes|layout> [flags]\n"

/-- The name and the version of the program. -/
def versionLine : String := "lumina 0.1.0\n"

/-- The outcome of a program call with some arguments. -/
def respond (arguments : List String) (files : Files) : Outcome :=
  match Request.ofArguments? arguments with
  | none => ⟨2, "", usage, files⟩
  | some .help => ⟨0, usage, "", files⟩
  | some .version => ⟨0, versionLine, "", files⟩
  | some (.run command) => command.run files

end LightShow
