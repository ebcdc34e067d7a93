import LightShow.Json.Printer
import LightShow.Json.Token.Lexer
import Mathlib.Data.List.Induction

namespace LightShow

/-!
# The texts of a JSON value

Which texts spell a value, said without a machine that reads them: blanks, escapes, the mark and the
sign of an exponent and its leading zeros are left to the writer.

* `Numeral.WrittenAs`, `Content.WrittenAs`, `Token.WrittenAs` — the texts of a number, of the content
  of a string, and of a token;
* `Token.Spaced` — the texts of a list of tokens, with any blanks between them;
* `Json.words`, `Json.WrittenAs` — the tokens and the texts of a value;
* `Json.writtenAs_chars` — what is printed for a value is a text of it.
-/

/-! ### Tokens -/

/-- The texts of the sign of an exponent that is negative or not. -/
def exponentSigns : Bool → List (List Char)
  | true => [['-']]
  | false => [[], ['+']]

/-- The texts of a number. Up to the exponent there is only one: no zero stands in front of other
    digits, and there are digits on both sides of a point. -/
inductive Numeral.WrittenAs : Numeral → List Char → Prop where
  | plain (negative : Bool) (whole : Nat) (fraction : List Digit) :
      WrittenAs ⟨negative, whole, fraction, none⟩ (spelling ⟨negative, whole, fraction, none⟩)
  | power (negative : Bool) (whole : Nat) (fraction : List Digit) {mark : Char}
      (hmark : mark = 'e' ∨ mark = 'E') {down : Bool} {sign : List Char}
      (hsign : sign ∈ exponentSigns down) {digits : List Digit} (hdigits : digits ≠ []) :
      WrittenAs
        ⟨negative, whole, fraction, some (if down then -(valueOf digits : Int) else valueOf digits)⟩
        (spelling ⟨negative, whole, fraction, none⟩ ++ mark :: (sign ++ digits.map digitChar))

/-- What one character, or an escape in its place, adds to the content of a string. -/
inductive Content.Adds : Content → List Char → Content → Prop where
  | char (t : Content) {c : Char} (hquote : c ≠ '"') (hbackslash : c ≠ '\\')
      (hcontrol : ¬ c.toNat < 0x20) : Adds t [c] (t.push c)
  | short (t : Content) {letter c : Char} (h : shortEscape? letter = some c) :
      Adds t ['\\', letter] (t.push c)
  | unit (t : Content) {digits : List Char} {unit : Nat} (hlength : digits.length = 4)
      (h : hexNumber? digits = some unit) : Adds t ('\\' :: 'u' :: digits) (t.pushUnit unit)

/-- The texts of the content of a string. -/
inductive Content.WrittenAs : Content → List Char → Prop where
  | empty : WrittenAs .empty []
  | snoc {t t' : Content} {text part : List Char} (h : t.WrittenAs text) (hpart : t.Adds part t') :
      WrittenAs t' (text ++ part)

/-- Whether a token has one text only. -/
def Token.isFixed : Token → Bool
  | .number _ | .string _ => false
  | _ => true

/-- The texts of a token. -/
inductive Token.WrittenAs : Token → List Char → Prop where
  | fixed {t : Token} (h : t.isFixed = true) : WrittenAs t t.spelling
  | number {literal : Numeral} {text : List Char} (h : literal.WrittenAs text) :
      WrittenAs (.number literal) text
  | string {content : Content} {text : List Char} (h : content.WrittenAs text) :
      WrittenAs (.string content.text?) ('"' :: (text ++ ['"']))

/-- The texts of tokens. Blanks may stand between them, in front of the first one and behind the last
    one. -/
inductive Token.Spaced : List Token → List Char → Prop where
  | empty : Spaced [] []
  | blank {tokens : List Token} {text : List Char} {c : Char} (h : Spaced tokens text)
      (hc : Lexer.isSpace c = true) : Spaced tokens (text ++ [c])
  | snoc {tokens : List Token} {text : List Char} {t : Token} {part : List Char}
      (h : Spaced tokens text) (ht : t.WrittenAs part) : Spaced (tokens ++ [t]) (text ++ part)

/-! ### Values -/

namespace Json

mutual

/-- The tokens of a value. -/
def words : Json → List Token
  | .null => [.null]
  | .bool b => [.bool b]
  | .number literal => [.number literal]
  | .string text => [.string text]
  | .array [] => [.openArray, .closeArray]
  | .array (item :: items) => .openArray :: words item ++ itemWords items ++ [.closeArray]
  | .object [] => [.openObject, .closeObject]
  | .object ((key, value) :: members) =>
    .openObject :: .string key :: .colon :: words value ++ memberWords members ++ [.closeObject]

/-- The tokens of the items of an array after the first one. -/
def itemWords : List Json → List Token
  | [] => []
  | item :: items => .comma :: words item ++ itemWords items

/-- The tokens of the members of an object after the first one. -/
def memberWords : List (Option String × Json) → List Token
  | [] => []
  | (key, value) :: members => .comma :: .string key :: .colon :: words value ++ memberWords members

end

/-- Whether a text spells a value. -/
def WrittenAs (value : Json) (text : String) : Prop := Token.Spaced value.words text.toList

/-- One more item adds a comma and its own tokens. -/
theorem itemWords_concat (items : List Json) (item : Json) :
    itemWords (items ++ [item]) = itemWords items ++ .comma :: item.words := by
  induction items with
  | nil => simp [itemWords]
  | cons other items ih => simp [itemWords, ih]

/-- One more member adds a comma, its key, a colon and the tokens of its value. -/
theorem memberWords_concat (members : List (Option String × Json)) (key : Option String)
    (value : Json) :
    memberWords (members ++ [(key, value)])
      = memberWords members ++ .comma :: .string key :: .colon :: value.words := by
  induction members with
  | nil => simp [memberWords]
  | cons other members ih => simp [memberWords, ih]

end Json

/-! ### What is printed -/

/-- The printed form of a number is one of its texts. -/
theorem Numeral.writtenAs_spelling (n : Numeral) : n.WrittenAs n.spelling := by
  obtain ⟨negative, whole, fraction, exponent⟩ := n
  cases exponent with
  | none => exact .plain negative whole fraction
  | some e =>
    -- of the marks and signs that may be written, a small mark and always a sign
    have hsign : [if e < 0 then '-' else '+'] ∈ exponentSigns (decide (e < 0)) := by
      by_cases h : e < 0 <;> simp [exponentSigns, h]
    -- sign and digits give the exponent back
    have hvalue : (if decide (e < 0) then -(valueOf (numeralOf e.natAbs) : Int)
        else valueOf (numeralOf e.natAbs)) = e := by
      rw [valueOf_numeralOf]
      by_cases h : e < 0
      · rw [if_pos (decide_eq_true h)]
        omega
      · rw [if_neg (by simpa using h)]
        omega
    have hpower := WrittenAs.power negative whole fraction (.inl rfl) hsign
      (numeralOf_ne_nil e.natAbs)
    rw [hvalue] at hpower
    simpa [spelling, exponentSpelling, decimalChars] using hpower

/-- A character with its escape, where no half of a surrogate pair waits for the other half. -/
theorem Content.adds_escaped {t : Content} (ht : t.pending = none) (c : Char) :
    t.Adds (escaped c) (t.push c) := by
  have hshort : ∀ letter, shortEscape? letter = some c → t.Adds ['\\', letter] (t.push c) :=
    fun _ => .short t
  -- the seven characters with a short escape, the other control characters, and all others
  unfold escaped
  split
  · next h => exact hshort '"' (by rw [h]; rfl)
  split
  · next h => exact hshort '\\' (by rw [h]; rfl)
  split
  · next h => exact hshort 'b' (by rw [h]; rfl)
  split
  · next h => exact hshort 'f' (by rw [h]; rfl)
  split
  · next h => exact hshort 'n' (by rw [h]; rfl)
  split
  · next h => exact hshort 'r' (by rw [h]; rfl)
  split
  · next h => exact hshort 't' (by rw [h]; rfl)
  split
  · next hcontrol =>
    -- two zeros and the two digits of the byte are the number of the character
    have hbyte : c.toNat.toUInt8.toNat = c.toNat := by
      rw [Nat.toUInt8, UInt8.toNat_ofNat', Nat.mod_eq_of_lt (by omega)]
    have hhigh := hexValue?_hexDigit (n := c.toNat / 16) (by omega)
    have hlow := hexValue?_hexDigit (n := c.toNat % 16) (by omega)
    have hzero : hexValue? '0' = some 0 := rfl
    have hunit : hexNumber? (['0', '0'] ++ hexByte c.toNat.toUInt8) = some c.toNat := by
      unfold hexNumber? hexByte
      simp [hbyte, hhigh, hlow, hzero]
      omega
    -- a control character is no half of a surrogate pair
    have hpush : t.pushUnit c.toNat = t.push c := by
      have hnotHigh : isHighSurrogate c.toNat = false := by
        unfold isHighSurrogate
        rw [decide_eq_false (by omega), Bool.false_and]
      have hnotLow : isLowSurrogate c.toNat = false := by
        unfold isLowSurrogate
        rw [decide_eq_false (by omega), Bool.false_and]
      unfold pushUnit
      simp [ht, hnotHigh, hnotLow]
    exact hpush ▸ .unit t rfl hunit
  · next hquote hbackslash _ _ _ _ _ hcontrol => exact .char t hquote hbackslash hcontrol

/-- Escaped characters spell the content that has these characters. -/
theorem Content.writtenAs_escaped (text : List Char) :
    Content.WrittenAs ⟨text.reverse, none, true⟩ (text.flatMap escaped) := by
  induction text using List.reverseRecOn with
  | nil => exact .empty
  | append_singleton text c ih =>
    rw [List.reverse_concat, List.flatMap_append, List.flatMap_singleton]
    exact ih.snoc (adds_escaped rfl c)

/-- The printed form of a token is one of its texts. A string that is no text is printed as a lone
    half of a surrogate pair. -/
theorem Token.writtenAs_spelling (t : Token) : t.WrittenAs t.spelling := by
  cases t with
  | number literal => exact .number literal.writtenAs_spelling
  | string text =>
    cases text with
    | some s =>
      have hstring := WrittenAs.string (Content.writtenAs_escaped s.toList)
      simpa [Content.text?, spelling, quoted] using hstring
    | none =>
      -- the half that waits for the other one makes the content no text
      have hhalf := Content.Adds.unit .empty (show ['d', '8', '0', '0'].length = 4 from rfl)
        (show hexNumber? ['d', '8', '0', '0'] = some 0xd800 from rfl)
      exact .string (.snoc .empty hhalf)
  | _ => exact .fixed rfl

/-- A spacing of nothing but blanks. -/
structure Spacing.Blank (s : Spacing) : Prop where
  lineBreak : ∀ depth, (s.lineBreak depth).all Lexer.isSpace = true
  afterColon : s.afterColon.all Lexer.isSpace = true

theorem Spacing.blank_compact : Spacing.compact.Blank := ⟨fun _ => rfl, rfl⟩

/-- The indented form has line breaks and spaces between tokens. -/
theorem Spacing.blank_pretty : Spacing.pretty.Blank where
  lineBreak depth := by
    show ('\n' :: List.replicate (2 * depth) ' ').all Lexer.isSpace = true
    rw [List.all_cons, List.all_replicate]
    split <;> rfl
  afterColon := rfl

/-- What a spacing puts between tokens. -/
structure Spacing.Leads (s : Spacing) (P : List Char → Prop) : Prop where
  nothing : P []
  lineBreak : ∀ depth, P (s.lineBreak depth)
  afterColon : P s.afterColon

/-- Blanks may follow. -/
theorem Token.Spaced.blanks {tokens : List Token} {text blanks : List Char} (h : Spaced tokens text)
    (hblanks : blanks.all Lexer.isSpace = true) : Spaced tokens (text ++ blanks) := by
  induction blanks generalizing text with
  | nil => rwa [List.append_nil]
  | cons c blanks ih =>
    rw [List.all_cons, Bool.and_eq_true] at hblanks
    have hall := ih (h.blank hblanks.1) hblanks.2
    rwa [List.append_assoc] at hall

/-- Tokens in their printed form, with blanks in front of each. -/
theorem Token.Spaced.printed {tokens : List Token} {text : List Char} (h : Spaced tokens text)
    {parts : List (List Char × Token)}
    (hparts : ∀ part ∈ parts, part.1.all Lexer.isSpace = true) :
    Spaced (tokens ++ parts.map (·.2))
      (text ++ parts.flatMap fun part => part.1 ++ part.2.spelling) := by
  induction parts generalizing tokens text with
  | nil => simpa using h
  | cons part parts ih =>
    obtain ⟨hpart, hrest⟩ := List.forall_mem_cons.mp hparts
    have hall := ih ((h.blanks hpart).snoc part.2.writtenAs_spelling) hrest
    simpa using hall

namespace Json

variable {s : Spacing} {P : List Char → Prop}

mutual

/-- A value is laid out in its tokens. -/
theorem map_laidOut (depth : Nat) (lead : List Char) : (value : Json) →
    (value.laidOut s depth lead).map (·.2) = value.words
  | .null | .bool _ | .number _ | .string _ | .array [] | .object [] => by simp [laidOut, words]
  | .array (item :: items) => by
    simp [laidOut, words, map_laidOut (depth + 1) _ item, map_itemsLaidOut (depth + 1) items]
  | .object ((key, value) :: members) => by
    simp [laidOut, words, map_laidOut (depth + 1) _ value, map_membersLaidOut (depth + 1) members]

/-- The items of an array are laid out in their tokens. -/
theorem map_itemsLaidOut (depth : Nat) : (items : List Json) →
    (itemsLaidOut s depth items).map (·.2) = itemWords items
  | [] => rfl
  | item :: items => by
    simp [itemsLaidOut, itemWords, map_laidOut depth _ item, map_itemsLaidOut depth items]

/-- The members of an object are laid out in their tokens. -/
theorem map_membersLaidOut (depth : Nat) : (members : List (Option String × Json)) →
    (membersLaidOut s depth members).map (·.2) = memberWords members
  | [] => rfl
  | (key, value) :: members => by
    simp [membersLaidOut, memberWords, map_laidOut depth _ value, map_membersLaidOut depth members]

end

mutual

/-- What stands in front of the tokens of a value is what the spacing puts there. -/
theorem lead_laidOut (hs : s.Leads P) (depth : Nat) {lead : List Char} (hlead : P lead) :
    (value : Json) → ∀ part ∈ value.laidOut s depth lead, P part.1
  | .null | .bool _ | .number _ | .string _ => by
    simpa [laidOut] using hlead
  | .array [] | .object [] => by
    simpa [laidOut] using ⟨hlead, hs.nothing⟩
  | .array (item :: items) => by
    have hitem := lead_laidOut hs (depth + 1) (hs.lineBreak (depth + 1)) item
    have hitems := lead_itemsLaidOut hs (depth + 1) items
    simp only [laidOut, List.forall_mem_append, List.forall_mem_cons]
    exact ⟨⟨⟨hlead, hitem⟩, hitems⟩, hs.lineBreak depth, nofun⟩
  | .object ((key, value) :: members) => by
    have hvalue := lead_laidOut hs (depth + 1) hs.afterColon value
    have hmembers := lead_membersLaidOut hs (depth + 1) members
    simp only [laidOut, List.forall_mem_append, List.forall_mem_cons]
    exact ⟨⟨⟨hlead, hs.lineBreak (depth + 1), hs.nothing, hvalue⟩, hmembers⟩, hs.lineBreak depth,
      nofun⟩

/-- The spacing decides what stands in front of the tokens of items. -/
theorem lead_itemsLaidOut (hs : s.Leads P) (depth : Nat) : (items : List Json) →
    ∀ part ∈ itemsLaidOut s depth items, P part.1
  | [] => nofun
  | item :: items => by
    have hitem := lead_laidOut hs depth (hs.lineBreak depth) item
    have hitems := lead_itemsLaidOut hs depth items
    simp only [itemsLaidOut, List.forall_mem_append, List.forall_mem_cons]
    exact ⟨⟨hs.nothing, hitem⟩, hitems⟩

/-- The spacing decides what stands in front of the tokens of members. -/
theorem lead_membersLaidOut (hs : s.Leads P) (depth : Nat) :
    (members : List (Option String × Json)) → ∀ part ∈ membersLaidOut s depth members, P part.1
  | [] => nofun
  | (key, value) :: members => by
    have hvalue := lead_laidOut hs depth hs.afterColon value
    have hmembers := lead_membersLaidOut hs depth members
    simp only [membersLaidOut, List.forall_mem_append, List.forall_mem_cons]
    exact ⟨⟨hs.nothing, hs.lineBreak depth, hs.nothing, hvalue⟩, hmembers⟩

end

/-- **Printing.** What is printed for a value is a text of it, however it is spaced. -/
theorem writtenAs_chars (hs : s.Blank) (value : Json) :
    value.WrittenAs (String.ofList (value.chars s)) := by
  have hnil : ([] : List Char).all Lexer.isSpace = true := rfl
  have hleads : s.Leads (·.all Lexer.isSpace = true) := ⟨hnil, hs.lineBreak, hs.afterColon⟩
  have hprinted := Token.Spaced.empty.printed (lead_laidOut hleads 0 hnil value)
  rw [WrittenAs, String.toList_ofList]
  rwa [map_laidOut, List.nil_append, List.nil_append] at hprinted

/-- A line break behind the text of a value does not count. -/
theorem writtenAs_pretty_line (value : Json) : value.WrittenAs (value.pretty ++ "\n") := by
  have hpretty : Token.Spaced value.words value.pretty.toList :=
    writtenAs_chars Spacing.blank_pretty value
  rw [WrittenAs, String.toList_append]
  exact hpretty.blanks (by decide)

end Json

end LightShow
