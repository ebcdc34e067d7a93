import LightShow.Json.Token

namespace LightShow

/-!
# Writing JSON text

* `Spacing` — the blanks that a writer puts between tokens, `Spacing.compact` and
  `Spacing.pretty`;
* `Json.laidOut` — the tokens of a value, each with the blanks in front of it;
* `Json.compact`, `Json.pretty` — the text of a value.
-/

/-- The blanks between tokens. -/
structure Spacing where
  /-- Stands before an item, a member and a closing bracket, at the given depth. -/
  lineBreak : Nat → List Char
  /-- Stands before the value of a member. -/
  afterColon : List Char

namespace Spacing

/-- No blanks. -/
def compact : Spacing := ⟨fun _ => [], []⟩

/-- Every item and member on a line of its own, indented by two blanks for each level. -/
def pretty : Spacing := ⟨fun depth => '\n' :: List.replicate (2 * depth) ' ', [' ']⟩

end Spacing

namespace Json

mutual

/-- The tokens of a value with the blanks in front of each; `lead` stands in front of the first.
    Empty arrays and objects are not broken. -/
def laidOut (s : Spacing) (depth : Nat) (lead : List Char) : Json → List (List Char × Token)
  | .null => [(lead, .null)]
  | .bool b => [(lead, .bool b)]
  | .number literal => [(lead, .number literal)]
  | .string text => [(lead, .string text)]
  | .array [] => [(lead, .openArray), ([], .closeArray)]
  | .array (item :: items) =>
    (lead, .openArray) :: laidOut s (depth + 1) (s.lineBreak (depth + 1)) item
      ++ itemsLaidOut s (depth + 1) items ++ [(s.lineBreak depth, .closeArray)]
  | .object [] => [(lead, .openObject), ([], .closeObject)]
  | .object ((key, value) :: members) =>
    (lead, .openObject) :: (s.lineBreak (depth + 1), .string key) :: ([], .colon)
      :: laidOut s (depth + 1) s.afterColon value
      ++ membersLaidOut s (depth + 1) members ++ [(s.lineBreak depth, .closeObject)]

/-- The items of an array after the first one. -/
def itemsLaidOut (s : Spacing) (depth : Nat) : List Json → List (List Char × Token)
  | [] => []
  | item :: items =>
    ([], .comma) :: laidOut s depth (s.lineBreak depth) item ++ itemsLaidOut s depth items

/-- The members of an object after the first one. -/
def membersLaidOut (s : Spacing) (depth : Nat) :
    List (Option String × Json) → List (List Char × Token)
  | [] => []
  | (key, value) :: members =>
    ([], .comma) :: (s.lineBreak depth, .string key) :: ([], .colon)
      :: laidOut s depth s.afterColon value ++ membersLaidOut s depth members

end

/-- The text of a value. -/
def chars (s : Spacing) (value : Json) : List Char :=
  (value.laidOut s 0 []).flatMap fun part => part.1 ++ part.2.spelling

/-- The text of a value without blanks. -/
def compact (value : Json) : String := String.ofList (value.chars .compact)

/-- The text of a value over several lines. -/
def pretty (value : Json) : String := String.ofList (value.chars .pretty)

end Json

end LightShow
