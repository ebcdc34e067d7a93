import LightShow.Proofs.Json.Grammar
import Mathlib.Data.Fintype.Basic
import Mathlib.Data.List.Chain
import Mathlib.Tactic.FinCases

namespace LightShow

/-!
# Texts of tokens are divided into these tokens

* `Lexer.run?`, `Lexer.Has` — the machine over a text, and the tokens that it has then read;
* `Lexer.Has.reads` — every text of a token is read as that token;
* `Token.scan?_of_spaced` — a text of tokens is divided into these tokens.

A number does not end by itself: the machine has its token only when another character follows.
`Has` therefore holds of a machine inside of a number too. A digit behind a number may be part of it,
so that a text of two numbers in a row is not always divided as it was put together; no value has
such tokens.
-/

/-- Whether a token is a number. -/
def Token.isNumber : Token → Bool
  | .number _ => true
  | _ => false

/-- Whether two tokens in a row are not both numbers. -/
def Token.Parted (a b : Token) : Prop := a.isNumber = true → b.isNumber = false

/-! ### Digits of a number -/

/-- A number of one digit. -/
theorem decimalChars_of_lt {n : Nat} (h : n < 10) : decimalChars n = [digitChar (lastDigit n)] := by
  unfold decimalChars numeralOf reversedDigits
  rw [if_pos h]
  rfl

/-- A number of more digits ends in its last digit. -/
theorem decimalChars_of_le {n : Nat} (h : 10 ≤ n) :
    decimalChars n = decimalChars (n / 10) ++ [digitChar (lastDigit n)] := by
  unfold decimalChars numeralOf
  conv => lhs; rw [reversedDigits, if_neg (Nat.not_lt.mpr h)]
  rw [List.reverse_cons, List.map_append]
  rfl

namespace Lexer

/-- The machine after a text; nothing if a character cannot stand where it is. -/
def run? (l : Lexer) (text : List Char) : Option Lexer := text.foldlM step? l

@[simp] theorem run?_nil (l : Lexer) : l.run? [] = some l := rfl

@[simp] theorem run?_cons (l : Lexer) (c : Char) (text : List Char) :
    l.run? (c :: text) = (l.step? c).bind (·.run? text) := rfl

@[simp] theorem run?_singleton (l : Lexer) (c : Char) : l.run? [c] = l.step? c :=
  Option.bind_fun_some (l.step? c)

theorem run?_append (l : Lexer) (text rest : List Char) :
    l.run? (text ++ rest) = (l.run? text).bind (·.run? rest) := by
  unfold run?
  rw [List.foldlM_append]
  rfl

/-- What the machine has read, with the last token first: a number that may end here counts. -/
inductive Has : Lexer → List Token → Prop where
  | between (tokens : List Token) : Has ⟨tokens, .between⟩ tokens
  | number {part : NumeralPart} {literal : Numeral} (tokens : List Token)
      (h : part.literal? = some literal) : Has ⟨tokens, .number part⟩ (.number literal :: tokens)

/-- From this state a text is read up to a state that has the tokens. -/
def Reads (l : Lexer) (text : List Char) (tokens : List Token) : Prop :=
  ∃ l', l.run? text = some l' ∧ l'.Has tokens

/-- A text may end where a token does. -/
theorem Has.finish? {l : Lexer} {tokens : List Token} (h : l.Has tokens) :
    l.finish? = some tokens.reverse := by
  cases h with
  | between tokens => rfl
  | number tokens h =>
    unfold Lexer.finish?
    dsimp only
    rw [h]
    rfl

/-- One text after another is read. -/
theorem Reads.append {l : Lexer} {text rest : List Char} {before after : List Token}
    (h : l.Reads text before) (hrest : ∀ l' : Lexer, l'.Has before → l'.Reads rest after) :
    l.Reads (text ++ rest) after := by
  obtain ⟨l', hrun, hhas⟩ := h
  obtain ⟨l'', hrun', hhas'⟩ := hrest l' hhas
  refine ⟨l'', ?_, hhas'⟩
  rw [run?_append, hrun]
  exact hrun'

/-- One text after another is read, if a token is complete in between. -/
theorem Reads.of_run? {l l' : Lexer} {text rest : List Char} {tokens : List Token}
    (h : l.run? text = some l') (hrest : l'.Reads rest tokens) : l.Reads (text ++ rest) tokens := by
  obtain ⟨l'', hrun, hhas⟩ := hrest
  refine ⟨l'', ?_, hhas⟩
  rw [run?_append, h]
  exact hrun

/-! ### Numbers -/

/-- A digit continues a number that takes it. -/
theorem step?_digitChar {tokens : List Token} {part next : NumeralPart} {d : Digit}
    (h : part.digit? d = some next) :
    step? ⟨tokens, .number part⟩ (digitChar d) = some ⟨tokens, .number next⟩ := by
  have hnext : part.next? (digitChar d) = some next := by
    unfold NumeralPart.next?
    rw [digitValue?_digitChar]
    exact h
  unfold step?
  dsimp only
  rw [hnext]

/-- A digit begins a number. -/
theorem begin?_digitChar (tokens : List Token) (d : Digit) :
    begin? tokens (digitChar d) = some ⟨tokens, .number (.whole false d)⟩ := by
  fin_cases d <;> rfl

/-- The digits of a number count it up, wherever a first digit may stand and further digits may
    follow a number that is not zero. -/
theorem run?_decimalChars {l : Lexer} {tokens : List Token} {part : Nat → NumeralPart}
    (hfirst : ∀ d : Digit, l.step? (digitChar d) = some ⟨tokens, .number (part d)⟩)
    (hnext : ∀ (n : Nat) (d : Digit), n ≠ 0 → (part n).digit? d = some (part (10 * n + d)))
    (n : Nat) : l.run? (decimalChars n) = some ⟨tokens, .number (part n)⟩ := by
  -- by the number without its last digit, which is read last
  induction n using Nat.strongRecOn with
  | ind n ih =>
    by_cases hsmall : n < 10
    · have hdigit : (lastDigit n).val = n := Nat.mod_eq_of_lt hsmall
      rw [decimalChars_of_lt hsmall, run?_cons, hfirst, hdigit]
      rfl
    · -- the digits in front of the last one spell a number that is not zero
      have hfront : n / 10 ≠ 0 := by omega
      have hvalue : 10 * (n / 10) + (lastDigit n).val = n := Nat.div_add_mod n 10
      rw [decimalChars_of_le (Nat.not_lt.mp hsmall), run?_append, ih (n / 10) (by omega),
        Option.bind_some, run?_cons, step?_digitChar (hnext _ _ hfront), hvalue]
      rfl

/-- The whole part of a number, with its sign. -/
theorem run?_whole (tokens : List Token) (negative : Bool) (n : Nat) :
    run? ⟨tokens, .between⟩ ((if negative then ['-'] else []) ++ decimalChars n)
      = some ⟨tokens, .number (.whole negative n)⟩ := by
  have hnext : ∀ (n : Nat) (d : Digit), n ≠ 0 →
      (NumeralPart.whole negative n).digit? d = some (.whole negative (10 * n + d)) := by
    intro n d hn
    exact if_neg hn
  cases negative with
  | false =>
    have hfirst : ∀ d : Digit, step? ⟨tokens, .between⟩ (digitChar d)
        = some ⟨tokens, .number (.whole false d)⟩ := begin?_digitChar tokens
    exact run?_decimalChars hfirst hnext n
  | true =>
    have hsign : step? ⟨tokens, .between⟩ '-' = some ⟨tokens, .number .sign⟩ := rfl
    rw [if_pos rfl, List.singleton_append, run?_cons, hsign]
    exact run?_decimalChars (fun d => step?_digitChar rfl) hnext n

/-- Digits after the point are collected. -/
theorem run?_fraction (tokens : List Token) (negative : Bool) (n : Nat) (read digits : List Digit) :
    run? ⟨tokens, .number (.fraction negative n read)⟩ (digits.map digitChar)
      = some ⟨tokens, .number (.fraction negative n (digits.reverse ++ read))⟩ := by
  induction digits generalizing read with
  | nil => rfl
  | cons d digits ih =>
    have hdigit : (NumeralPart.fraction negative n read).digit? d
        = some (.fraction negative n (d :: read)) := rfl
    rw [List.map_cons, run?_cons, step?_digitChar hdigit, Option.bind_some, ih,
      List.reverse_cons, List.append_assoc]
    rfl

/-- The point and the digits behind it, if there are any. -/
theorem run?_mantissa (tokens : List Token) (negative : Bool) (n : Nat) (fraction : List Digit) :
    ∃ part, run? ⟨tokens, .number (.whole negative n)⟩
        (if fraction.isEmpty then [] else '.' :: fraction.map digitChar)
          = some ⟨tokens, .number part⟩
      ∧ part.literal? = some ⟨negative, n, fraction, none⟩
      ∧ part.mark? = some (.mark ⟨negative, n, fraction, none⟩) := by
  cases fraction with
  | nil => exact ⟨_, rfl, rfl, rfl⟩
  | cons d digits =>
    have hpoint : step? ⟨tokens, .number (.whole negative n)⟩ '.'
        = some ⟨tokens, .number (.point negative n)⟩ := rfl
    have hdigit : (NumeralPart.point negative n).digit? d = some (.fraction negative n [d]) := rfl
    -- the digits are kept with the last one in front
    have horder : (digits.reverse ++ [d]).reverse = d :: digits := by
      rw [List.reverse_append, List.reverse_reverse]
      rfl
    refine ⟨.fraction negative n (digits.reverse ++ [d]), ?_, ?_, ?_⟩
    · rw [List.isEmpty_cons, if_neg Bool.false_ne_true, run?_cons, hpoint, Option.bind_some,
        List.map_cons, run?_cons, step?_digitChar hdigit, Option.bind_some, run?_fraction]
    · unfold NumeralPart.literal?
      dsimp only
      rw [horder]
    · unfold NumeralPart.mark? NumeralPart.literal?
      dsimp only
      rw [horder]
      rfl

/-- A number without an exponent. It may end there, and an exponent may follow. -/
theorem run?_plain (tokens : List Token) (negative : Bool) (n : Nat) (fraction : List Digit) :
    ∃ part, run? ⟨tokens, .between⟩ (Numeral.spelling ⟨negative, n, fraction, none⟩)
        = some ⟨tokens, .number part⟩
      ∧ part.literal? = some ⟨negative, n, fraction, none⟩
      ∧ part.mark? = some (.mark ⟨negative, n, fraction, none⟩) := by
  obtain ⟨part, hrun, hends⟩ := run?_mantissa tokens negative n fraction
  refine ⟨part, ?_, hends⟩
  unfold Numeral.spelling
  dsimp only
  rw [List.append_nil, run?_append, run?_whole, Option.bind_some, hrun]

/-- The digits of an exponent, after the first one. Zeros may stand in front. -/
theorem run?_exponentDigits (tokens : List Token) (mantissa : Numeral) (down : Bool) (value : Nat)
    (digits : List Digit) :
    run? ⟨tokens, .number (.exponent mantissa down value)⟩ (digits.map digitChar)
      = some ⟨tokens, .number (.exponent mantissa down
          (digits.foldl (fun n d => 10 * n + d.val) value))⟩ := by
  induction digits generalizing value with
  | nil => rfl
  | cons d digits ih =>
    have hdigit : (NumeralPart.exponent mantissa down value).digit? d
        = some (.exponent mantissa down (10 * value + d.val)) := rfl
    rw [List.map_cons, run?_cons, step?_digitChar hdigit, Option.bind_some, ih, List.foldl_cons]

/-- The sign and the digits of an exponent. -/
theorem run?_signedDigits (tokens : List Token) (mantissa : Numeral) {down : Bool}
    {sign : List Char} (hsign : sign ∈ exponentSigns down) {digits : List Digit}
    (hdigits : digits ≠ []) :
    run? ⟨tokens, .number (.mark mantissa)⟩ (sign ++ digits.map digitChar)
      = some ⟨tokens, .number (.exponent mantissa down (valueOf digits))⟩ := by
  obtain ⟨d, digits, rfl⟩ := List.exists_cons_of_ne_nil hdigits
  have hvalue : digits.foldl (fun n d => 10 * n + d.val) d.val = valueOf (d :: digits) := by
    simp [valueOf]
  -- the first digit may stand behind the mark and behind the sign
  have hmark : (NumeralPart.mark mantissa).digit? d = some (.exponent mantissa false d) := rfl
  have hsigned : ∀ down, (NumeralPart.markSign mantissa down).digit? d
      = some (.exponent mantissa down d) := fun _ => rfl
  have hplus : step? ⟨tokens, .number (.mark mantissa)⟩ '+'
      = some ⟨tokens, .number (.markSign mantissa false)⟩ := rfl
  have hminus : step? ⟨tokens, .number (.mark mantissa)⟩ '-'
      = some ⟨tokens, .number (.markSign mantissa true)⟩ := rfl
  cases down with
  | false =>
    simp only [exponentSigns, List.mem_cons, List.not_mem_nil, or_false] at hsign
    rcases hsign with rfl | rfl
    · rw [List.nil_append, List.map_cons, run?_cons, step?_digitChar hmark, Option.bind_some,
        run?_exponentDigits, hvalue]
    · rw [List.singleton_append, run?_cons, hplus, Option.bind_some, List.map_cons, run?_cons,
        step?_digitChar (hsigned false), Option.bind_some, run?_exponentDigits, hvalue]
  | true =>
    obtain rfl : sign = ['-'] := List.mem_singleton.mp hsign
    rw [List.singleton_append, run?_cons, hminus, Option.bind_some, List.map_cons, run?_cons,
      step?_digitChar (hsigned true), Option.bind_some, run?_exponentDigits, hvalue]

/-- Every text of a number is read as that number. -/
theorem reads_numeral (tokens : List Token) {literal : Numeral} {text : List Char}
    (h : literal.WrittenAs text) : Reads ⟨tokens, .between⟩ text (.number literal :: tokens) := by
  cases h with
  | plain negative whole fraction =>
    obtain ⟨part, hrun, hliteral, -⟩ := run?_plain tokens negative whole fraction
    exact ⟨_, hrun, .number tokens hliteral⟩
  | @power negative whole fraction mark hmark down sign hsign digits hdigits =>
    obtain ⟨part, hrun, -, hpart⟩ := run?_plain tokens negative whole fraction
    -- the mark is neither a digit nor a point, and both cases of it are read alike
    have hnext : part.next? mark = part.mark? := by rcases hmark with rfl | rfl <;> rfl
    have hstep : step? ⟨tokens, .number part⟩ mark
        = some ⟨tokens, .number (.mark ⟨negative, whole, fraction, none⟩)⟩ := by
      unfold step?
      dsimp only
      rw [hnext, hpart]
    have hexponent : run? ⟨tokens, .number part⟩ (mark :: (sign ++ digits.map digitChar))
        = some ⟨tokens, .number (.exponent ⟨negative, whole, fraction, none⟩ down
            (valueOf digits))⟩ := by
      rw [run?_cons, hstep, Option.bind_some, run?_signedDigits tokens _ hsign hdigits]
    exact Reads.of_run? hrun ⟨_, hexponent, .number tokens rfl⟩

/-! ### Strings -/

/-- The digits of a `\u` escape. -/
theorem run?_codeUnitDigits (tokens : List Token) (t : Content) {digits : List Char}
    (hdigits : digits ≠ []) {value unit : Nat}
    (h : digits.foldlM (fun n c => (hexValue? c).map (16 * n + ·)) value = some unit) :
    run? ⟨tokens, .codeUnit t digits.length value⟩ digits
      = some ⟨tokens, .string (t.pushUnit unit)⟩ := by
  induction digits generalizing value with
  | nil => exact absurd rfl hdigits
  | cons c digits ih =>
    rw [List.foldlM_cons] at h
    obtain ⟨next, hnext, hrest⟩ := Option.bind_eq_some_iff.mp h
    obtain ⟨d, hd, rfl⟩ := Option.map_eq_some_iff.mp hnext
    -- the last digit completes the escape
    cases digits with
    | nil =>
      obtain rfl : 16 * value + d = unit := Option.some.inj hrest
      simp [step?, inCodeUnit?, hd]
    | cons c' digits =>
      have hstep : step? ⟨tokens, .codeUnit t (digits.length + 2) value⟩ c
          = some ⟨tokens, .codeUnit t (digits.length + 1) (16 * value + d)⟩ := by
        simp [step?, inCodeUnit?, hd]
      rw [run?_cons]
      show (step? ⟨tokens, .codeUnit t (digits.length + 2) value⟩ c).bind _ = _
      rw [hstep, Option.bind_some]
      exact ih (List.cons_ne_nil c' digits) hrest

theorem run?_adds (tokens : List Token) {t t' : Content} {part : List Char} (h : t.Adds part t') :
    run? ⟨tokens, .string t⟩ part = some ⟨tokens, .string t'⟩ := by
  cases h with
  | char hquote hbackslash hcontrol => simp [step?, inString?, hquote, hbackslash, hcontrol]
  | @short letter c h =>
    have hletter : letter ≠ 'u' := by
      rintro rfl
      have hnone : shortEscape? 'u' = none := rfl
      rw [hnone] at h
      cases h
    simp [step?, inString?, inEscape?, hletter, h]
  | @unit digits unit hlength h =>
    have hdigits : digits ≠ [] := List.ne_nil_of_length_eq_add_one hlength
    have hrun := run?_codeUnitDigits tokens t hdigits h
    rwa [hlength] at hrun

theorem run?_content (tokens : List Token) {t : Content} {text : List Char} (h : t.WrittenAs text) :
    run? ⟨tokens, .string .empty⟩ text = some ⟨tokens, .string t⟩ := by
  induction h with
  | empty => rfl
  | snoc _ hpart ih => rw [run?_append, ih, Option.bind_some, run?_adds tokens hpart]

/-! ### Tokens -/

/-- A text of a token, where nothing has been begun. -/
theorem reads_written (tokens : List Token) {t : Token} {text : List Char} (h : t.WrittenAs text) :
    Reads ⟨tokens, .between⟩ text (t :: tokens) := by
  cases h with
  | fixed h =>
    have hrun : run? ⟨tokens, .between⟩ t.spelling = some ⟨t :: tokens, .between⟩ := by
      cases t with
      | number literal => exact nomatch h
      | string text => exact nomatch h
      | bool value => cases value <;> rfl
      | _ => rfl
    exact ⟨_, hrun, .between _⟩
  | number h => exact reads_numeral tokens h
  | @string content text h =>
    -- from quote to quote
    have hclose : step? ⟨tokens, .string content⟩ '"'
        = some ⟨.string content.text? :: tokens, .between⟩ := rfl
    have hopen : step? ⟨tokens, .between⟩ '"' = some ⟨tokens, .string .empty⟩ := rfl
    refine ⟨_, ?_, .between _⟩
    rw [run?_cons, hopen, Option.bind_some, run?_append, run?_content tokens h, Option.bind_some,
      run?_singleton, hclose]

/-- A number ends in front of a blank. -/
theorem Has.step?_blank {l : Lexer} {tokens : List Token} (hl : l.Has tokens) {c : Char}
    (hc : isSpace c = true) : l.step? c = some ⟨tokens, .between⟩ := by
  have hbegin : begin? tokens c = some ⟨tokens, .between⟩ := if_pos hc
  cases hl with
  | between tokens => exact hbegin
  | @number part literal tokens hliteral =>
    have hnext : part.next? c = none := by
      simp only [isSpace, Bool.or_eq_true, beq_iff_eq] at hc
      rcases hc with ((rfl | rfl) | rfl) | rfl <;> rfl
    unfold Lexer.step?
    dsimp only
    rw [hnext, hliteral]
    exact hbegin

/-- Where a number may end, it ends with the first character of any other token. -/
theorem next?_head_eq_none {t : Token} (ht : t.isNumber = false) {text : List Char}
    (h : t.WrittenAs text) : ∃ c rest, text = c :: rest ∧ ∀ part : NumeralPart, part.next? c = none := by
  cases h with
  | @fixed t h =>
    cases t with
    | number literal => exact nomatch h
    | string content => exact nomatch h
    | bool b => cases b <;> exact ⟨_, _, rfl, fun _ => rfl⟩
    | _ => exact ⟨_, _, rfl, fun _ => rfl⟩
  | number h => exact nomatch ht
  | string h => exact ⟨_, _, rfl, fun _ => rfl⟩

/-- **Tokens.** Every text of a token is read as that token, behind a number too if it is none. -/
theorem Has.reads {l : Lexer} {tokens : List Token} (hl : l.Has tokens) {t : Token}
    (ht : ∀ literal rest, tokens = .number literal :: rest → t.isNumber = false) {text : List Char}
    (h : t.WrittenAs text) : l.Reads text (t :: tokens) := by
  cases hl with
  | between tokens => exact reads_written tokens h
  | @number part literal tokens hliteral =>
    obtain ⟨c, rest, rfl, hnext⟩ := next?_head_eq_none (ht literal tokens rfl) h
    have hstep : Lexer.step? ⟨tokens, .number part⟩ c = begin? (.number literal :: tokens) c := by
      unfold Lexer.step?
      dsimp only
      rw [hnext, hliteral]
      rfl
    obtain ⟨l, hrun, hhas⟩ := reads_written (.number literal :: tokens) h
    exact ⟨l, by rw [← hrun, run?_cons, run?_cons, hstep]; rfl, hhas⟩

/-- A text of tokens is read as these tokens, if there are no two numbers in a row. -/
theorem reads_spaced {tokens : List Token} {text : List Char} (h : Token.Spaced tokens text)
    (hparted : tokens.IsChain Token.Parted) : start.Reads text tokens.reverse := by
  -- by the last blank or token; `Has` carries a number that has not ended yet
  induction h with
  | empty => exact ⟨start, rfl, .between []⟩
  | @blank tokens text c _ hc ih =>
    refine (ih hparted).append fun l hl => ⟨⟨tokens.reverse, .between⟩, ?_, .between _⟩
    rw [run?_singleton, hl.step?_blank hc]
  | @snoc tokens text t part _ ht ih =>
    obtain ⟨hbefore, -, hlast⟩ := List.isChain_append.mp hparted
    rw [List.reverse_concat]
    refine (ih hbefore).append fun l hl => hl.reads (fun literal rest hrest => ?_) ht
    have hlast? : tokens.getLast? = some (.number literal) := by
      rw [← List.head?_reverse, hrest, List.head?_cons]
    exact hlast _ hlast? t rfl rfl

end Lexer

/-- A text of tokens is divided into these tokens, if there are no two numbers in a row. -/
theorem Token.scan?_of_spaced {tokens : List Token} {text : List Char} (h : Spaced tokens text)
    (hparted : tokens.IsChain Parted) : scan? text = some tokens := by
  obtain ⟨l, hrun, hhas⟩ := Lexer.reads_spaced h hparted
  have hread : text.foldlM Lexer.step? Lexer.start = some l := hrun
  rw [scan?, hread, Option.bind_some, hhas.finish?, List.reverse_reverse]

end LightShow
