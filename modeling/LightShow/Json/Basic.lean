import LightShow.Json.Numeral

namespace LightShow

/-!
# JSON values

* `Json` — a JSON document as a tree. Objects keep their members in order, repeated ones too, and
  numbers keep their literals.

A string in which a `\u` escape stands for half of a surrogate pair without the other half has no
text; the tree holds `none` in its place, so that such a string may still stand where nobody reads
it.
-/

/-- A JSON value. -/
inductive Json where
  | null
  | bool (value : Bool)
  | number (literal : Numeral)
  | string (text : Option String)
  | array (items : List Json)
  | object (members : List (Option String × Json))
  deriving Inhabited

namespace Json

/-- The string with this text. -/
def text (s : String) : Json := .string (some s)

/-- The literal of a natural number. -/
def nat (n : Nat) : Json := .number (Numeral.ofNat n)

/-- The literal of a finite double, and `null` for the others. -/
def double (d : Double) : Json := if d.isFinite then .number (Numeral.ofDouble d) else .null

/-- The object with these members. -/
def record (members : List (String × Json)) : Json :=
  .object (members.map fun member => (some member.1, member.2))

end Json

end LightShow
