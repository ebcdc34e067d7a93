import LightShow.Project.Json
import LightShow.Show.Basic
import LightShow.Text.Search

namespace LightShow

/-!
# Artifacts

* `Show.artifact` — a source text for the player on the suits: the project in a comment, and the
  events as a table;
* `Project.ofArtifact` — the project in such a text.

The comment would end at a `*/` in the project, so that a backslash is put between the two
characters. They can only stand in a string there, and a string means the same with it.
-/

/-- Opens the comment with the project. -/
def saveStart : List Char := "/*__LUMINA_SAVE_DATA_START__".toList

/-- Closes the comment with the project. -/
def saveEnd : List Char := "__LUMINA_SAVE_DATA_END__*/".toList

/-- A character after another one, parted from it if the two would close a comment. -/
def guardedChar (previous : Option Char) (c : Char) : List Char :=
  if previous = some '*' ∧ c = '/' then ['\\', '/'] else [c]

/-- A text with a backslash in every `*/`. -/
def guardComment (text : List Char) : List Char :=
  (List.zipWith guardedChar (none :: text.map some) text).flatten

/-- The fields of a table row. -/
def Event.columns (e : Event) : List Nat :=
  [e.time.toNat, e.suit.toNat, e.led.toNat, e.color.red.toNat, e.color.green.toNat,
    e.color.blue.toNat]

/-- A row of the table, with its line end. -/
def Event.row (e : Event) : List Char :=
  [' ', ' ', '\x7b'] ++ [',', ' '].intercalate (e.columns.map decimalChars)
    ++ ['\x7d', ',', '\n']

namespace Show

/-- The project as it stands in the comment. -/
def savedProject (s : Show) : List Char := guardComment (s.project.toJson.chars .compact)

/-- The characters of the artifact of a show. -/
def artifactChars (s : Show) : List Char :=
  saveStart ++ '\n' :: s.savedProject ++ '\n' :: saveEnd
    ++ ("\n\n// Generated by Lumina\n"
      ++ "struct Cmd \x7b uint32_t ms; uint8_t suit; uint16_t led; uint8_t r, g, b; \x7d;\n\n"
      ++ "const Cmd choreography[] = \x7b\n").toList
    ++ s.events.flatMap Event.row
    ++ ("\x7d;\n\nconst uint32_t FRAME_COUNT = " ++ decimalText s.frameCount
      ++ ";\nconst uint32_t TOTAL_DURATION = " ++ decimalText s.totalDuration.toNat ++ ";").toList

/-- The artifact of a show. -/
def artifact (s : Show) : String := String.ofList s.artifactChars

end Show

/-- The text between the first opening mark and the first closing mark after it. -/
def savedBlock? (text : List Char) : Option (List Char) :=
  (cutAt? saveStart text).bind fun outer => (cutAt? saveEnd outer.2).map (·.1)

/-- The project of an artifact. -/
def Project.ofArtifact (text : String) : Except ShowError Project :=
  match savedBlock? text.toList with
  | none => .error .noProject
  | some block => Project.parse (String.ofList (trimBlanks block))

end LightShow
