import LightShow.Json.Basic
import LightShow.NameTable

namespace LightShow

/-!
# Taking values out of a JSON tree

* `toNat?`, `toDouble?`, `toText?` — scalars;
* `toList?`, `toTable?` — arrays, and objects that map names to values;
* `fields?` — the fields of a record, by name or by position;
* `variant?`, `choice?` — one of several named forms.

Every reader answers nothing where the tree does not have the form that is asked for.
-/

namespace Json

variable {α : Type}

/-! ### Scalars -/

/-- A natural number below a bound. Only a literal without sign, point and exponent counts. -/
def toNat? (bound : Nat) : Json → Option Nat
  | .number literal => literal.toNat?.filter (· < bound)
  | _ => none

/-- A natural number of eight bits. -/
def toUInt8? (j : Json) : Option UInt8 := (j.toNat? UInt8.size).map UInt8.ofNat

/-- A natural number of sixteen bits. -/
def toUInt16? (j : Json) : Option UInt16 := (j.toNat? UInt16.size).map UInt16.ofNat

/-- A natural number of thirty-two bits. -/
def toUInt32? (j : Json) : Option UInt32 := (j.toNat? UInt32.size).map UInt32.ofNat

/-- The double nearest to a number, unless that is infinite. -/
def toDouble? : Json → Option Double
  | .number literal => literal.toDouble?
  | _ => none

/-- A text. -/
def toText? : Json → Option String
  | .string text => text
  | _ => none

/-! ### Lists and tables -/

/-- The items of an array. -/
def toList? (read : Json → Option α) : Json → Option (List α)
  | .array items => items.mapM read
  | _ => none

/-- A member whose name is a text, with its value read. -/
def tableMember? (read : Json → Option α) (member : Option String × Json) : Option (String × α) :=
  member.1.bind fun name => (read member.2).map (name, ·)

/-- The members of an object by their names; of two members of one name the later one counts. -/
def toTable? (read : Json → Option α) : Json → Option (NameTable α)
  | .object members =>
    (members.mapM (tableMember? read)).map .ofList
  | _ => none

/-- The object of a table. -/
def ofTable (write : α → Json) (table : NameTable α) : Json :=
  record (table.entries.map fun entry => (entry.1, write entry.2))

/-! ### Records -/

/-- The members of an object whose names are texts. -/
def named? (members : List (Option String × Json)) : Option (List (String × Json)) :=
  members.mapM fun member => member.1.map (·, member.2)

/-- The values of the fields with the given names, in the order of the names. A record is an object,
    in which each of the names stands at most once and other members are passed over, or an array
    of the first fields in order. -/
def fields? (names : List String) : Json → Option (List (Option Json))
  | .object members => do
    let members ← named? members
    if names.all fun name => (members.filter (·.1 == name)).length ≤ 1 then
      return names.map (List.lookup · members)
    else none
  | .array items =>
    if items.length ≤ names.length then
      some (items.map some ++ List.replicate (names.length - items.length) none)
    else none
  | _ => none

/-- The value of a field that must be there. -/
def required? (read : Json → Option α) (field : Option Json) : Option α := field.bind read

/-- The value of a field that may be missing or `null`. -/
def optional? (read : Json → Option α) : Option Json → Option (Option α)
  | none => some none
  | some .null => some none
  | some j => (read j).map some

/-- The value of a field that has a default where it is missing. -/
def withDefault? (default : α) (read : Json → Option α) : Option Json → Option α
  | none => some default
  | some j => read j

/-! ### Named forms -/

/-- A name, alone or as the only member of an object, and that member's value. -/
def variant? : Json → Option (String × Option Json)
  | .string name => name.map (·, none)
  | .object [(name, value)] => name.map (·, some value)
  | _ => none

/-- One of several values that are written by their names; a name may also stand before `null`. -/
def choice? (all : List α) (nameOf : α → String) (j : Json) : Option α :=
  match j.variant? with
  | some (name, none) => all.find? (nameOf · == name)
  | some (name, some .null) => all.find? (nameOf · == name)
  | _ => none

end Json

end LightShow
