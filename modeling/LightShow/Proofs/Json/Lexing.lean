import LightShow.Proofs.Json.Scanning

namespace LightShow

/-!
# What is divided into tokens is a text of these tokens

* `NumeralPart.WrittenAs` — the texts of a number read so far;
* `Lexer.Follows` — the texts after which the machine may be in a state;
* `Lexer.Follows.step?`, `Lexer.Follows.run?` — one character, and all characters of a text;
* `Token.spaced_of_scan?` — a text that is divided into tokens is a text of these tokens.
-/

/-! ### Numbers -/

/-- A character is the digit of its value. -/
theorem eq_digitChar_of_digitValue? {c : Char} {d : Digit} (h : digitValue? c = some d) :
    c = digitChar d := by
  unfold digitValue? at h
  split at h
  · next hrange =>
    have hzero : '0'.toNat ≤ c.toNat := hrange.1
    rw [← Option.some.inj h]
    show c = Char.ofNat ('0'.toNat + (c.toNat - '0'.toNat))
    rw [Nat.add_sub_cancel' hzero, Char.ofNat_toNat]
  · exact nomatch h

theorem decimalChars_digit (d : Digit) : decimalChars d.val = [digitChar d] := by
  have hlast : lastDigit d.val = d := Fin.ext (Nat.mod_eq_of_lt d.isLt)
  rw [decimalChars_of_lt d.isLt, hlast]

/-- A digit behind a number that is not zero. -/
theorem decimalChars_concat {n : Nat} (h : n ≠ 0) (d : Digit) :
    decimalChars (10 * n + d.val) = decimalChars n ++ [digitChar d] := by
  have hfront : (10 * n + d.val) / 10 = n := by omega
  have hlast : lastDigit (10 * n + d.val) = d := Fin.ext (by simp only [lastDigit]; omega)
  rw [decimalChars_of_le (by omega), hfront, hlast]

/-- The texts of a number read so far. -/
inductive NumeralPart.WrittenAs : NumeralPart → List Char → Prop where
  | sign : WrittenAs .sign ['-']
  | whole (negative : Bool) (n : Nat) :
      WrittenAs (.whole negative n) (Numeral.spelling ⟨negative, n, [], none⟩)
  | point (negative : Bool) (n : Nat) :
      WrittenAs (.point negative n) (Numeral.spelling ⟨negative, n, [], none⟩ ++ ['.'])
  | fraction (negative : Bool) (n : Nat) {reversed : List Digit} (h : reversed ≠ []) :
      WrittenAs (.fraction negative n reversed)
        (Numeral.spelling ⟨negative, n, reversed.reverse, none⟩)
  | mark (negative : Bool) (n : Nat) (fraction : List Digit) {mark : Char}
      (hmark : mark = 'e' ∨ mark = 'E') :
      WrittenAs (.mark ⟨negative, n, fraction, none⟩)
        (Numeral.spelling ⟨negative, n, fraction, none⟩ ++ [mark])
  | markSign (negative : Bool) (n : Nat) (fraction : List Digit) {mark : Char}
      (hmark : mark = 'e' ∨ mark = 'E') {down : Bool} {sign : Char}
      (hsign : [sign] ∈ exponentSigns down) :
      WrittenAs (.markSign ⟨negative, n, fraction, none⟩ down)
        (Numeral.spelling ⟨negative, n, fraction, none⟩ ++ [mark, sign])
  | exponent (negative : Bool) (n : Nat) (fraction : List Digit) {mark : Char}
      (hmark : mark = 'e' ∨ mark = 'E') {down : Bool} {sign : List Char}
      (hsign : sign ∈ exponentSigns down) {digits : List Digit} (hdigits : digits ≠ []) :
      WrittenAs (.exponent ⟨negative, n, fraction, none⟩ down (valueOf digits))
        (Numeral.spelling ⟨negative, n, fraction, none⟩
          ++ mark :: (sign ++ digits.map digitChar))

namespace NumeralPart

variable {part next : NumeralPart} {text : List Char}

/-- A number that may end is a number of the grammar. -/
theorem WrittenAs.literal? (h : part.WrittenAs text) {literal : Numeral}
    (hliteral : part.literal? = some literal) : literal.WrittenAs text := by
  cases h with
  | whole negative n =>
    obtain rfl := Option.some.inj hliteral
    exact .plain negative n []
  | @fraction negative n reversed h =>
    obtain rfl := Option.some.inj hliteral
    exact .plain negative n reversed.reverse
  | exponent negative n fraction hmark hsign hdigits =>
    obtain rfl := Option.some.inj hliteral
    exact .power negative n fraction hmark hsign hdigits
  | _ => exact nomatch hliteral

/-- One more digit is one more character of the text. -/
theorem WrittenAs.digit? (h : part.WrittenAs text) {d : Digit} (hnext : part.digit? d = some next) :
    next.WrittenAs (text ++ [digitChar d]) := by
  -- in every state the text is put together anew, with one more digit
  cases h with
  | sign =>
    obtain rfl := Option.some.inj hnext
    have hwhole := WrittenAs.whole true d
    simpa [Numeral.spelling, decimalChars_digit] using hwhole
  | whole negative n =>
    unfold NumeralPart.digit? at hnext
    dsimp only at hnext
    split at hnext
    · cases hnext
    · next hn =>
      obtain rfl := Option.some.inj hnext
      have hwhole := WrittenAs.whole negative (10 * n + d)
      simpa [Numeral.spelling, decimalChars_concat hn] using hwhole
  | point negative n =>
    obtain rfl := Option.some.inj hnext
    have hfraction := WrittenAs.fraction negative n (List.cons_ne_nil d [])
    simpa [Numeral.spelling] using hfraction
  | @fraction negative n reversed h =>
    obtain rfl := Option.some.inj hnext
    have hfraction := WrittenAs.fraction negative n (List.cons_ne_nil d reversed)
    simpa [Numeral.spelling, h] using hfraction
  | mark negative n fraction hmark =>
    obtain rfl := Option.some.inj hnext
    have hexponent := WrittenAs.exponent negative n fraction hmark
      (show [] ∈ exponentSigns false by decide) (List.cons_ne_nil d [])
    simpa [valueOf] using hexponent
  | markSign negative n fraction hmark hsign =>
    obtain rfl := Option.some.inj hnext
    have hexponent := WrittenAs.exponent negative n fraction hmark hsign (List.cons_ne_nil d [])
    simpa [valueOf] using hexponent
  | @exponent negative n fraction mark hmark down sign hsign digits hdigits =>
    obtain rfl := Option.some.inj hnext
    have hexponent := WrittenAs.exponent negative n fraction hmark hsign
      (List.concat_ne_nil d digits)
    simpa using hexponent

/-- A mark of either case begins the exponent. -/
theorem WrittenAs.mark? (h : part.WrittenAs text) {mark : Char} (hmark : mark = 'e' ∨ mark = 'E')
    (hnext : part.mark? = some next) : next.WrittenAs (text ++ [mark]) := by
  cases h with
  | whole negative n =>
    obtain rfl := Option.some.inj hnext
    exact .mark negative n [] hmark
  | @fraction negative n reversed h =>
    obtain rfl := Option.some.inj hnext
    exact .mark negative n reversed.reverse hmark
  | _ => exact nomatch hnext

/-- What continues a number is a digit, a point, a mark, or the sign of an exponent. -/
theorem WrittenAs.next? (h : part.WrittenAs text) {c : Char} (hnext : part.next? c = some next) :
    next.WrittenAs (text ++ [c]) := by
  unfold NumeralPart.next? at hnext
  -- a digit, a point, a mark, and a sign, each where it may stand
  split at hnext
  · next d hd =>
    rw [eq_digitChar_of_digitValue? hd]
    exact h.digit? hnext
  · split at hnext
    · next hpoint =>
      subst hpoint
      cases h with
      | whole negative n =>
        obtain rfl := Option.some.inj hnext
        exact .point negative n
      | _ => exact nomatch hnext
    · split at hnext
      · next hmark => exact h.mark? hmark hnext
      · split at hnext
        · next hsign =>
          cases h with
          | mark negative n fraction hmark =>
            obtain rfl := Option.some.inj hnext
            rw [List.append_assoc]
            refine .markSign negative n fraction hmark ?_
            rcases hsign with rfl | rfl <;> decide
          | _ => exact nomatch hnext
        · exact nomatch hnext

end NumeralPart

/-! ### The machine -/

namespace Lexer

/-- The machine may be in a state after a text: the tokens that it has read, with blanks between
    them, and the text of what has been begun. -/
inductive Follows : Lexer → List Char → Prop where
  | between {reversed : List Token} {text : List Char}
      (h : Token.Spaced reversed.reverse text) : Follows ⟨reversed, .between⟩ text
  | word {reversed : List Token} {text : List Char} (h : Token.Spaced reversed.reverse text)
      {token : Token} (htoken : token.isFixed = true) {begun rest : List Char}
      (hword : token.spelling = begun ++ rest) :
      Follows ⟨reversed, .word rest token⟩ (text ++ begun)
  | number {reversed : List Token} {text : List Char} (h : Token.Spaced reversed.reverse text)
      {part : NumeralPart} {begun : List Char} (hpart : part.WrittenAs begun) :
      Follows ⟨reversed, .number part⟩ (text ++ begun)
  | string {reversed : List Token} {text : List Char} (h : Token.Spaced reversed.reverse text)
      {content : Content} {begun : List Char} (hcontent : content.WrittenAs begun) :
      Follows ⟨reversed, .string content⟩ (text ++ '"' :: begun)
  | escape {reversed : List Token} {text : List Char} (h : Token.Spaced reversed.reverse text)
      {content : Content} {begun : List Char} (hcontent : content.WrittenAs begun) :
      Follows ⟨reversed, .escape content⟩ (text ++ '"' :: (begun ++ ['\\']))
  | codeUnit {reversed : List Token} {text : List Char} (h : Token.Spaced reversed.reverse text)
      {content : Content} {begun : List Char} (hcontent : content.WrittenAs begun)
      {digits : List Char} {missing value : Nat} (hmissing : 0 < missing)
      (hlength : digits.length + missing = 4) (hvalue : hexNumber? digits = some value) :
      Follows ⟨reversed, .codeUnit content missing value⟩
        (text ++ '"' :: (begun ++ '\\' :: 'u' :: digits))

variable {l : Lexer} {tokens : List Token} {text : List Char} {c : Char}

/-- A token is complete. -/
theorem follows_push (h : Token.Spaced tokens.reverse text) {t : Token} {part : List Char}
    (ht : t.WrittenAs part) : Follows (push tokens t) (text ++ part) := by
  refine .between ?_
  rw [List.reverse_cons]
  exact h.snoc ht

/-- The first character of a token begins its text. -/
theorem follows_begin? (h : Token.Spaced tokens.reverse text) (hbegin : begin? tokens c = some l) :
    l.Follows (text ++ [c]) := by
  unfold begin? at hbegin
  split at hbegin
  · next hspace =>
    obtain rfl := Option.some.inj hbegin
    exact .between (h.blank hspace)
  · -- brackets, the comma and the colon are complete, all others begin a token
    split at hbegin
    · exact Option.some.inj hbegin ▸ follows_push h (.fixed rfl)
    · exact Option.some.inj hbegin ▸ follows_push h (.fixed rfl)
    · exact Option.some.inj hbegin ▸ follows_push h (.fixed rfl)
    · exact Option.some.inj hbegin ▸ follows_push h (.fixed rfl)
    · exact Option.some.inj hbegin ▸ follows_push h (.fixed rfl)
    · exact Option.some.inj hbegin ▸ follows_push h (.fixed rfl)
    · exact Option.some.inj hbegin ▸ .string h .empty
    · exact Option.some.inj hbegin ▸ .word h rfl rfl
    · exact Option.some.inj hbegin ▸ .word h rfl rfl
    · exact Option.some.inj hbegin ▸ .word h rfl rfl
    · exact Option.some.inj hbegin ▸ .number h .sign
    · obtain ⟨value, hvalue, rfl⟩ := Option.map_eq_some_iff.mp hbegin
      obtain ⟨d, hd, heq⟩ := Option.bind_eq_some_iff.mp hvalue
      obtain rfl : d.val = value := Option.some.inj heq
      have hwhole := NumeralPart.WrittenAs.whole false d
      refine .number h ?_
      rw [eq_digitChar_of_digitValue? hd]
      simpa [Numeral.spelling, decimalChars_digit] using hwhole

/-- Inside of a string, a character is content, begins an escape or ends the string. -/
theorem follows_inString? (h : Token.Spaced tokens.reverse text) {content : Content}
    {begun : List Char} (hcontent : content.WrittenAs begun)
    (hstep : inString? tokens content c = some l) : l.Follows (text ++ '"' :: begun ++ [c]) := by
  rw [List.append_assoc, List.cons_append]
  unfold inString? at hstep
  split at hstep
  · next hquote =>
    obtain rfl := Option.some.inj hstep
    subst hquote
    exact follows_push h (.string hcontent)
  · next hquote =>
    split at hstep
    · next hbackslash =>
      obtain rfl := Option.some.inj hstep
      subst hbackslash
      exact .escape h hcontent
    · next hbackslash =>
      split at hstep
      · exact nomatch hstep
      · next hcontrol =>
        obtain rfl := Option.some.inj hstep
        exact .string h (hcontent.snoc (.char content hquote hbackslash hcontrol))

/-- Behind a backslash, a letter is a short escape or begins a code unit. -/
theorem follows_inEscape? (h : Token.Spaced tokens.reverse text) {content : Content}
    {begun : List Char} (hcontent : content.WrittenAs begun)
    (hstep : inEscape? tokens content c = some l) :
    l.Follows (text ++ '"' :: (begun ++ ['\\']) ++ [c]) := by
  rw [List.append_assoc, List.cons_append, List.append_assoc]
  unfold inEscape? at hstep
  split at hstep
  · next hu =>
    obtain rfl := Option.some.inj hstep
    subst hu
    exact .codeUnit h hcontent (by decide) rfl rfl
  · obtain ⟨e, he, rfl⟩ := Option.map_eq_some_iff.mp hstep
    exact .string h (hcontent.snoc (.short content he))

/-- Four hexadecimal digits are a code unit. -/
theorem follows_inCodeUnit? (h : Token.Spaced tokens.reverse text) {content : Content}
    {begun : List Char} (hcontent : content.WrittenAs begun) {digits : List Char}
    {missing value : Nat} (hmissing : 0 < missing) (hlength : digits.length + missing = 4)
    (hvalue : hexNumber? digits = some value)
    (hstep : inCodeUnit? tokens content missing value c = some l) :
    l.Follows (text ++ '"' :: (begun ++ '\\' :: 'u' :: digits) ++ [c]) := by
  obtain ⟨d, hd, rfl⟩ := Option.map_eq_some_iff.mp hstep
  have hnext : hexNumber? (digits ++ [c]) = some (16 * value + d) := by
    unfold hexNumber? at hvalue ⊢
    simp [List.foldlM_append, hvalue, hd]
  rw [List.append_assoc, List.cons_append, List.append_assoc, List.cons_append, List.cons_append]
  by_cases hlast : missing ≤ 1
  · -- the fourth digit
    rw [if_pos hlast]
    have hfour : (digits ++ [c]).length = 4 := by
      rw [List.length_append, List.length_singleton]
      omega
    exact .string h (hcontent.snoc (.unit content hfour hnext))
  · rw [if_neg hlast]
    refine .codeUnit h hcontent (by omega) ?_ hnext
    rw [List.length_append, List.length_singleton]
    omega

/-- **One character.** What the machine has read and begun stays the text that came before. -/
theorem Follows.step? (h : l.Follows text) {next : Lexer} (hstep : l.step? c = some next) :
    next.Follows (text ++ [c]) := by
  cases h with
  | between h => exact follows_begin? h hstep
  | @word reversed text h token htoken begun rest hword =>
    cases rest with
    | nil => exact nomatch hstep
    | cons d rest =>
      unfold Lexer.step? at hstep
      dsimp only at hstep
      split at hstep
      · exact nomatch hstep
      · next hchar =>
        obtain rfl : c = d := Decidable.not_not.mp hchar
        rw [List.append_assoc]
        cases rest with
        | nil =>
          -- the last letter
          obtain rfl := Option.some.inj hstep
          exact hword ▸ follows_push h (.fixed htoken)
        | cons e rest =>
          obtain rfl := Option.some.inj hstep
          refine .word h htoken ?_
          rw [hword, List.append_assoc]
          rfl
  | @number reversed text h part begun hpart =>
    unfold Lexer.step? at hstep
    dsimp only at hstep
    split at hstep
    · next part' hnext =>
      obtain rfl := Option.some.inj hstep
      rw [List.append_assoc]
      exact .number h (hpart.next? hnext)
    · -- the number ends in front of this character
      obtain ⟨literal, hliteral, hbegin⟩ := Option.bind_eq_some_iff.mp hstep
      refine follows_begin? ?_ hbegin
      rw [List.reverse_cons]
      exact h.snoc (.number (hpart.literal? hliteral))
  | string h hcontent => exact follows_inString? h hcontent hstep
  | escape h hcontent => exact follows_inEscape? h hcontent hstep
  | codeUnit h hcontent hmissing hlength hvalue =>
    exact follows_inCodeUnit? h hcontent hmissing hlength hvalue hstep

/-- What holds of one character holds of a whole text. -/
theorem Follows.run? (h : l.Follows text) {rest : List Char} {next : Lexer}
    (hrun : l.run? rest = some next) : next.Follows (text ++ rest) := by
  induction rest generalizing l text with
  | nil =>
    obtain rfl := Option.some.inj hrun
    rwa [List.append_nil]
  | cons c rest ih =>
    rw [run?_cons] at hrun
    obtain ⟨l', hstep, hrest⟩ := Option.bind_eq_some_iff.mp hrun
    have hall := ih (h.step? hstep) hrest
    rwa [List.append_assoc] at hall

/-- Where a text may end, it is a text of the tokens that were read. -/
theorem Follows.finish? (h : l.Follows text) (hfinish : l.finish? = some tokens) :
    Token.Spaced tokens text := by
  cases h with
  | between h => exact Option.some.inj hfinish ▸ h
  | number h hpart =>
    obtain ⟨literal, hliteral, rfl⟩ := Option.map_eq_some_iff.mp hfinish
    rw [List.reverse_cons]
    exact h.snoc (.number (hpart.literal? hliteral))
  | _ => exact nomatch hfinish

end Lexer

/-- A text that is divided into tokens is a text of these tokens. -/
theorem Token.spaced_of_scan? {tokens : List Token} {text : List Char}
    (h : scan? text = some tokens) : Spaced tokens text := by
  obtain ⟨l, hrun, hfinish⟩ := Option.bind_eq_some_iff.mp h
  have hstart : Lexer.start.Follows [] := .between .empty
  exact (hstart.run? hrun).finish? hfinish

end LightShow
