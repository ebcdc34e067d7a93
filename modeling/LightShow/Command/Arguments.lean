import LightShow.Decimal.Reading
import LightShow.Show.Basic

namespace LightShow

/-!
# Command-line arguments

* `Command` — what the program can be told to do;
* `Flag` — a flag with the values that it takes;
* `readFlags?` — the flags of an argument list;
* `Request.ofArguments?` — the command of an argument list, or a wish for help or the version.

A value stands behind its flag or after an equals sign. A value that begins with a minus sign has to
stand after an equals sign. No flag may be given twice, and there are no arguments besides flags.
-/

/-- What the program can be told to do. -/
inductive Command where
  /-- Write a project to start from. -/
  | init (out : String) (empty : Bool)
  /-- Compile a project into an artifact. -/
  | compile (input out : String) (binary layout : Option String) (options : Options)
  /-- Write the project of an artifact. -/
  | recover (input out : String)
  /-- Print what the LEDs of a suit show at a time. -/
  | frame (input : String) (suit : UInt8) (time : Double) (layout : Option String)
  /-- Print the lanes of the cues for a suit. -/
  | lanes (input : String) (suit : UInt8)
  /-- Print or write the standard layout. -/
  | layout (out : Option String)
  deriving DecidableEq

/-- What an argument list asks for. -/
inductive Request where
  | run (command : Command)
  | help
  | version
  deriving DecidableEq

/-! ### Values -/

/-- The path of a file; it must not be empty. -/
def pathOf? (text : String) : Option String := if text.isEmpty then none else some text

/-- A number from zero to below a bound, with an optional sign. -/
def boundedOf? (bound : Nat) (text : String) : Option Nat :=
  (integerOf? text.toList).bind fun n => if 0 ≤ n ∧ n < bound then some n.toNat else none

/-- A number from zero to below `2 ^ 64`, with an optional plus sign. -/
def countOf? (text : String) : Option Nat :=
  if text.toList.head? = some '-' then none else boundedOf? UInt64.size text

/-- The suit id of a text. -/
def suitOf? (text : String) : Option UInt8 := (boundedOf? UInt8.size text).map UInt8.ofNat

/-- The sampling step of a text. -/
def stepOf? (text : String) : Option UInt32 := (boundedOf? UInt32.size text).map UInt32.ofNat

/-- The time of a text. -/
def timeOf? (text : String) : Option Double := Double.ofText? text.toList

/-! ### Flags -/

/-- A flag. -/
structure Flag where
  /-- The name, without the two minus signs. -/
  name : String
  /-- Which values are accepted; nothing for a flag without a value. -/
  accepts : Option (String → Bool)

namespace Flag

/-- A flag without a value. -/
def switch (name : String) : Flag := ⟨name, none⟩

/-- A flag with a value that a function has to understand. -/
def value {α : Type} (name : String) (read : String → Option α) : Flag :=
  ⟨name, some fun text => (read text).isSome⟩

end Flag

/-- The flags that were given, with their values; a flag without a value has the empty one. -/
abbrev Given := List (String × String)

/-- What a list of flags asks for. -/
inductive FlagReading where
  | given (flags : Given)
  | help

/-- What is before and after the first equals sign. -/
def splitFlag (text : List Char) : String × Option String :=
  match text.dropWhile (· ≠ '=') with
  | [] => (String.ofList text, none)
  | _ :: value => (String.ofList (text.takeWhile (· ≠ '=')), some (String.ofList value))

/-- Whether an argument looks like a flag, so that it is no value of the flag before it. -/
def looksLikeFlag : List Char → Bool
  | '-' :: _ :: _ => true
  | _ => false

/-- The flags with one more, unless that was given before or has a value that is not accepted. -/
def addFlag? (given : Given) (flag : Flag) (value : String) : Option Given :=
  if (given.lookup flag.name).isSome then none
  else if flag.accepts.all (· value) then some ((flag.name, value) :: given)
  else none

/-- The value of a flag, attached to it or taken from the arguments behind it, and how many
    arguments that takes. -/
def valueOf? (flag : Flag) (attached : Option String) (rest : List String) :
    Option (String × Nat) :=
  match flag.accepts, attached with
  | none, none => some ("", 0)
  | none, some _ => none
  | some _, some value => some (value, 0)
  | some _, none =>
    match rest with
    | [] => none
    | value :: _ => if looksLikeFlag value.toList then none else some (value, 1)

/-- Reads a list of flags. -/
def readFlags? (flags : List Flag) (given : Given) : List String → Option FlagReading
  | [] => some (.given given)
  | argument :: rest =>
    match argument.toList with
    | ['-', '-'] => if rest.isEmpty then some (.given given) else none
    | '-' :: '-' :: text =>
      let (name, attached) := splitFlag text
      if name = "help" then if attached.isNone then some .help else none
      else
        (flags.find? (·.name == name)).bind fun flag =>
          (valueOf? flag attached rest).bind fun (value, taken) =>
            (addFlag? given flag value).bind fun given =>
              readFlags? flags given (rest.drop taken)
    | '-' :: 'h' :: _ => some .help
    | _ => none
termination_by arguments => arguments.length
decreasing_by simp only [List.length_drop, List.length_cons]; omega

/-! ### Commands -/

/-- The flags of every command. -/
def commandFlags? : String → Option (List Flag)
  | "init" => some [.value "out" pathOf?, .switch "empty"]
  | "compile" =>
    some [.value "in" pathOf?, .value "out" pathOf?, .value "binary" pathOf?,
      .value "layout" pathOf?, .value "step-ms" stepOf?, .switch "parallel",
      .value "threads" countOf?, .value "chunk-size" countOf?]
  | "import" => some [.value "in" pathOf?, .value "out" pathOf?]
  | "frame" =>
    some [.value "in" pathOf?, .value "suit" suitOf?, .value "time" timeOf?,
      .value "layout" pathOf?]
  | "lanes" => some [.value "in" pathOf?, .value "suit" suitOf?]
  | "layout" => some [.value "out" pathOf?]
  | _ => none

namespace Given

/-- The value of a flag, if it was given. -/
def value? (given : Given) (name : String) : Option String := given.lookup name

/-- Whether a flag was given. -/
def has (given : Given) (name : String) : Bool := (given.value? name).isSome

/-- The sampling options. -/
def options (given : Given) : Options :=
  let defaults : Options := {}
  { step := ((given.value? "step-ms").bind stepOf?).getD defaults.step
    parallel := given.has "parallel"
    threads := (given.value? "threads").bind countOf?
    batch := ((given.value? "chunk-size").bind countOf?).getD defaults.batch }

end Given

/-- The command of a name and its flags, if no flag is missing. -/
def Command.ofFlags? (name : String) (given : Given) : Option Command :=
  match name with
  | "init" => do return .init (← given.value? "out") (given.has "empty")
  | "compile" => do
    return .compile (← given.value? "in") (← given.value? "out") (given.value? "binary")
      (given.value? "layout") given.options
  | "import" => do return .recover (← given.value? "in") (← given.value? "out")
  | "frame" => do
    return .frame (← given.value? "in") (← (given.value? "suit").bind suitOf?)
      (← (given.value? "time").bind timeOf?) (given.value? "layout")
  | "lanes" => do
    return .lanes (← given.value? "in") (← (given.value? "suit").bind suitOf?)
  | "layout" => some (.layout (given.value? "out"))
  | _ => none

/-- Asks for help in general or for a command. -/
def helpFor? : List String → Option Request
  | [] => some .help
  | [name] => if name = "help" ∨ (commandFlags? name).isSome then some .help else none
  | _ => none

/-- What an argument list asks for; nothing if it cannot be understood. -/
def Request.ofArguments? : List String → Option Request
  | [] => none
  | "--help" :: _ => some .help
  | "--version" :: _ => some .version
  | "help" :: topic => helpFor? topic
  | name :: rest =>
    match name.toList with
    | '-' :: 'h' :: _ => some .help
    | '-' :: 'V' :: _ => some .version
    | _ => do
      match ← readFlags? (← commandFlags? name) [] rest with
      | .help => some .help
      | .given given => (Command.ofFlags? name given).map .run

end LightShow
