import LightShow.Json.Basic
import LightShow.Text.Hex

namespace LightShow

/-!
# JSON tokens

* `Token` — the words of JSON text;
* `Token.spelling` — the text of a token;
* `quoted` — a string in quotation marks, with `"`, `\` and control characters escaped.
-/

/-- A word of JSON text. -/
inductive Token where
  | openArray
  | closeArray
  | openObject
  | closeObject
  | comma
  | colon
  | null
  | bool (value : Bool)
  | number (literal : Numeral)
  | string (text : Option String)
  deriving DecidableEq

/-- A character inside of quotation marks. -/
def escaped (c : Char) : List Char :=
  if c = '"' then ['\\', '"']
  else if c = '\\' then ['\\', '\\']
  else if c = '\x08' then ['\\', 'b']
  else if c = '\x0c' then ['\\', 'f']
  else if c = '\n' then ['\\', 'n']
  else if c = '\r' then ['\\', 'r']
  else if c = '\t' then ['\\', 't']
  else if c.toNat < 0x20 then ['\\', 'u', '0', '0'] ++ hexByte c.toNat.toUInt8
  else [c]

/-- A text in quotation marks. -/
def quoted (s : String) : List Char := '"' :: (s.toList.flatMap escaped ++ ['"'])

/-- The text of a token. A string without text is written as half of a surrogate pair. -/
def Token.spelling : Token → List Char
  | .openArray => ['[']
  | .closeArray => [']']
  | .openObject => ['\x7b']
  | .closeObject => ['\x7d']
  | .comma => [',']
  | .colon => [':']
  | .null => ['n', 'u', 'l', 'l']
  | .bool true => ['t', 'r', 'u', 'e']
  | .bool false => ['f', 'a', 'l', 's', 'e']
  | .number literal => literal.spelling
  | .string (some s) => quoted s
  | .string none => ['"', '\\', 'u', 'd', '8', '0', '0', '"']

end LightShow
