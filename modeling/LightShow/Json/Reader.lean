import LightShow.Json.Token.Lexer

namespace LightShow

/-!
# Reading tokens into a JSON value

* `Enclosure` — an array or object that a value stands in;
* `Reader`, `Reader.step?` — a machine that reads one token at a time;
* `Json.ofTokens?`, `Json.parse?` — the value of a list of tokens and of a text.

What encloses the value being read is kept in a list, so that values may be nested to any depth.
-/

/-- An array or object begun, up to the value being read. Items and members are held with the last
    one first. -/
inductive Enclosure where
  | item (items : List Json)
  | member (members : List (Option String × Json)) (key : Option String)

/-- What may stand next. `around` are the arrays and objects around it, the innermost first. -/
inductive Reader where
  /-- A value. -/
  | value (around : List Enclosure)
  /-- The first item of an array or its end. -/
  | firstItem (around : List Enclosure)
  /-- A comma or the end of an array. -/
  | afterItem (items : List Json) (around : List Enclosure)
  /-- The first name of an object or its end. -/
  | firstMember (around : List Enclosure)
  /-- A name. -/
  | name (members : List (Option String × Json)) (around : List Enclosure)
  /-- The colon after a name. -/
  | colon (members : List (Option String × Json)) (key : Option String) (around : List Enclosure)
  /-- A comma or the end of an object. -/
  | afterMember (members : List (Option String × Json)) (around : List Enclosure)
  /-- Nothing. -/
  | done (value : Json)

namespace Reader

/-- Goes on after a complete value. -/
def complete (value : Json) : List Enclosure → Reader
  | [] => .done value
  | .item items :: around => .afterItem (value :: items) around
  | .member members key :: around => .afterMember ((key, value) :: members) around

/-- Reads the first token of a value. -/
def begin? (around : List Enclosure) : Token → Option Reader
  | .null => some (complete .null around)
  | .bool b => some (complete (.bool b) around)
  | .number literal => some (complete (.number literal) around)
  | .string text => some (complete (.string text) around)
  | .openArray => some (.firstItem around)
  | .openObject => some (.firstMember around)
  | _ => none

/-- Reads one token; nothing if it cannot stand here. -/
def step? : Reader → Token → Option Reader
  | .value around, token => begin? around token
  | .firstItem around, .closeArray => some (complete (.array []) around)
  | .firstItem around, token => begin? (.item [] :: around) token
  | .afterItem items around, .comma => some (.value (.item items :: around))
  | .afterItem items around, .closeArray => some (complete (.array items.reverse) around)
  | .firstMember around, .closeObject => some (complete (.object []) around)
  | .firstMember around, .string key => some (.colon [] key around)
  | .name members around, .string key => some (.colon members key around)
  | .colon members key around, .colon => some (.value (.member members key :: around))
  | .afterMember members around, .comma => some (.name members around)
  | .afterMember members around, .closeObject =>
    some (complete (.object members.reverse) around)
  | _, _ => none

end Reader

namespace Json

/-- The value that a list of tokens spells. -/
def ofTokens? (tokens : List Token) : Option Json :=
  match tokens.foldlM Reader.step? (.value []) with
  | some (.done value) => some value
  | _ => none

/-- The value of a JSON text. -/
def parse? (text : String) : Option Json := (Token.scan? text.toList).bind ofTokens?

end Json

end LightShow
