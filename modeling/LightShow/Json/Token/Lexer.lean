import LightShow.Json.Token

namespace LightShow

/-!
# Reading JSON text into tokens

* `Content` — the content of a string read so far;
* `NumeralPart` — a number read so far, and `NumeralPart.next?` its next character;
* `Lexer`, `Lexer.step?` — a machine that reads one character at a time;
* `Token.scan?` — the tokens of a text.

Blanks are the space, the tab and the two line ends, and nothing else. A number has a digit on both
sides of its point and at least one digit of exponent, and ends where a character does not continue
it; a digit does not continue a zero, but begins another number, which may not follow there. Strings
hold no control characters.
-/

/-! ### Strings -/

/-- Whether a code unit is the first half of a surrogate pair. -/
def isHighSurrogate (unit : Nat) : Bool := 0xd800 ≤ unit && unit < 0xdc00

/-- Whether a code unit is the second half of a surrogate pair. -/
def isLowSurrogate (unit : Nat) : Bool := 0xdc00 ≤ unit && unit < 0xe000

/-- The character of a surrogate pair. -/
def pairChar (high low : Nat) : Char :=
  Char.ofNat (0x10000 + (high - 0xd800) * 0x400 + (low - 0xdc00))

/-- The content of a string read so far. -/
structure Content where
  /-- The characters, the last one first. -/
  reversed : List Char
  /-- The first half of a pair whose second half must follow. -/
  pending : Option Nat
  /-- Whether every half of a pair has found its other half so far. -/
  paired : Bool

namespace Content

/-- The empty string. -/
def empty : Content := ⟨[], none, true⟩

/-- Adds a character. -/
def push (t : Content) (c : Char) : Content :=
  ⟨c :: t.reversed, none, t.paired && t.pending.isNone⟩

/-- Adds the code unit of a `\u` escape. -/
def pushUnit (t : Content) (unit : Nat) : Content :=
  match t.pending with
  | some high =>
    if isLowSurrogate unit then ⟨pairChar high unit :: t.reversed, none, t.paired⟩
    else ⟨t.reversed, none, false⟩
  | none =>
    if isHighSurrogate unit then ⟨t.reversed, some unit, t.paired⟩
    else if isLowSurrogate unit then ⟨t.reversed, none, false⟩
    else t.push (Char.ofNat unit)

/-- The text, if every surrogate pair is complete. -/
def text? (t : Content) : Option String :=
  if t.paired && t.pending.isNone then some (String.ofList t.reversed.reverse) else none

end Content

/-- The character that a short escape stands for. -/
def shortEscape? : Char → Option Char
  | '"' => some '"'
  | '\\' => some '\\'
  | '/' => some '/'
  | 'b' => some '\x08'
  | 'f' => some '\x0c'
  | 'n' => some '\n'
  | 'r' => some '\r'
  | 't' => some '\t'
  | _ => none

/-! ### Numbers -/

/-- A number read so far. -/
inductive NumeralPart where
  /-- A minus sign. -/
  | sign
  /-- At least one digit of the whole part. -/
  | whole (negative : Bool) (value : Nat)
  /-- The point. -/
  | point (negative : Bool) (whole : Nat)
  /-- At least one digit after the point; the last one first. -/
  | fraction (negative : Bool) (whole : Nat) (reversed : List Digit)
  /-- The mark of the exponent. -/
  | mark (mantissa : Numeral)
  /-- The sign of the exponent. -/
  | markSign (mantissa : Numeral) (negative : Bool)
  /-- At least one digit of the exponent. -/
  | exponent (mantissa : Numeral) (negative : Bool) (value : Nat)

namespace NumeralPart

/-- The literal, if the number may end here. -/
def literal? : NumeralPart → Option Numeral
  | .whole negative value => some ⟨negative, value, [], none⟩
  | .fraction negative n reversed => some ⟨negative, n, reversed.reverse, none⟩
  | .exponent mantissa negative value =>
    some { mantissa with exponent := some (if negative then -(value : Int) else value) }
  | _ => none

/-- The number with one more digit, if a digit may stand here. -/
def digit? (part : NumeralPart) (d : Digit) : Option NumeralPart :=
  match part with
  | .sign => some (.whole true d)
  | .whole negative value => if value = 0 then none else some (.whole negative (10 * value + d))
  | .point negative n => some (.fraction negative n [d])
  | .fraction negative n reversed => some (.fraction negative n (d :: reversed))
  | .mark mantissa => some (.exponent mantissa false d)
  | .markSign mantissa negative => some (.exponent mantissa negative d)
  | .exponent mantissa negative value => some (.exponent mantissa negative (10 * value + d))

/-- The number with its exponent begun, if an exponent may stand here. -/
def mark? (part : NumeralPart) : Option NumeralPart :=
  match part with
  | .whole _ _ => part.literal?.map .mark
  | .fraction _ _ _ => part.literal?.map .mark
  | _ => none

/-- The number with one more character, if the character continues it. -/
def next? (part : NumeralPart) (c : Char) : Option NumeralPart :=
  match digitValue? c with
  | some d => part.digit? d
  | none =>
    if c = '.' then
      match part with
      | .whole negative value => some (.point negative value)
      | _ => none
    else if c = 'e' ∨ c = 'E' then part.mark?
    else if c = '+' ∨ c = '-' then
      match part with
      | .mark mantissa => some (.markSign mantissa (c == '-'))
      | _ => none
    else none

end NumeralPart

/-! ### The machine -/

/-- What the machine is reading. -/
inductive Scan where
  /-- Nothing, or blanks. -/
  | between
  /-- One of the three words, of which `rest` must follow. -/
  | word (rest : List Char) (token : Token)
  | number (part : NumeralPart)
  | string (content : Content)
  /-- A backslash in a string. -/
  | escape (content : Content)
  /-- A `\u` escape, of which `missing` digits must follow. -/
  | codeUnit (content : Content) (missing : Nat) (value : Nat)

/-- The tokens read so far, the last one first, and what is being read. -/
structure Lexer where
  /-- The finished tokens, the last one first. -/
  reversed : List Token
  /-- What has been begun. -/
  scan : Scan

namespace Lexer

/-- The machine before the first character. -/
def start : Lexer := ⟨[], .between⟩

/-- Whether a character may stand between tokens. -/
def isSpace (c : Char) : Bool := c == ' ' || c == '\t' || c == '\n' || c == '\r'

/-- Finishes a token. -/
def push (tokens : List Token) (token : Token) : Lexer := ⟨token :: tokens, .between⟩

/-- Begins a token with its first character. -/
def begin? (tokens : List Token) (c : Char) : Option Lexer :=
  if isSpace c then some ⟨tokens, .between⟩
  else match c with
    | '[' => some (push tokens .openArray)
    | ']' => some (push tokens .closeArray)
    | '\x7b' => some (push tokens .openObject)
    | '\x7d' => some (push tokens .closeObject)
    | ',' => some (push tokens .comma)
    | ':' => some (push tokens .colon)
    | '"' => some ⟨tokens, .string .empty⟩
    | 'n' => some ⟨tokens, .word ['u', 'l', 'l'] .null⟩
    | 't' => some ⟨tokens, .word ['r', 'u', 'e'] (.bool true)⟩
    | 'f' => some ⟨tokens, .word ['a', 'l', 's', 'e'] (.bool false)⟩
    | '-' => some ⟨tokens, .number .sign⟩
    | _ => (digitValue? c).map fun d => ⟨tokens, .number (.whole false d)⟩

/-- Reads a character inside of a string. -/
def inString? (tokens : List Token) (content : Content) (c : Char) : Option Lexer :=
  if c = '"' then some (push tokens (.string content.text?))
  else if c = '\\' then some ⟨tokens, .escape content⟩
  else if c.toNat < 0x20 then none
  else some ⟨tokens, .string (content.push c)⟩

/-- Reads the character after a backslash. -/
def inEscape? (tokens : List Token) (content : Content) (c : Char) : Option Lexer :=
  if c = 'u' then some ⟨tokens, .codeUnit content 4 0⟩
  else (shortEscape? c).map fun e => ⟨tokens, .string (content.push e)⟩

/-- Reads a digit of a `\u` escape. -/
def inCodeUnit? (tokens : List Token) (content : Content) (missing value : Nat) (c : Char) :
    Option Lexer :=
  (hexValue? c).map fun d =>
    if missing ≤ 1 then ⟨tokens, .string (content.pushUnit (16 * value + d))⟩
    else ⟨tokens, .codeUnit content (missing - 1) (16 * value + d)⟩

/-- Reads one character; nothing if it cannot stand here. -/
def step? (l : Lexer) (c : Char) : Option Lexer :=
  match l.scan with
  | .between => begin? l.reversed c
  | .word [] _ => none
  | .word (d :: rest) token =>
    if c ≠ d then none
    else if rest.isEmpty then some (push l.reversed token)
    else some ⟨l.reversed, .word rest token⟩
  | .number part =>
    match part.next? c with
    | some part => some ⟨l.reversed, .number part⟩
    | none => part.literal?.bind fun literal => begin? (.number literal :: l.reversed) c
  | .string content => inString? l.reversed content c
  | .escape content => inEscape? l.reversed content c
  | .codeUnit content missing value => inCodeUnit? l.reversed content missing value c

/-- The tokens, if the text may end here. -/
def finish? (l : Lexer) : Option (List Token) :=
  match l.scan with
  | .between => some l.reversed.reverse
  | .number part => part.literal?.map fun literal => (.number literal :: l.reversed).reverse
  | _ => none

end Lexer

/-- The tokens of a text; nothing if it cannot be divided into tokens. -/
def Token.scan? (text : List Char) : Option (List Token) :=
  (text.foldlM Lexer.step? Lexer.start).bind Lexer.finish?

end LightShow
