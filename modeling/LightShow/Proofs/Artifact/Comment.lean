import LightShow.Show.Artifact
import LightShow.Proofs.Json.Scanning
import Mathlib.Data.List.Chain

namespace LightShow

/-!
# Text inside of a comment

* `guardFrom` — a text with its marks parted, after a given character;
* `isChain_guardComment` — nothing in a guarded text closes a comment;
* `Token.scan?_guardComment` — a guarded text has the tokens of the text, whatever the text is.

The second fact needs no knowledge of what was written: a slash can only be read inside of a string
or after a backslash, and a star is neither followed by an escape nor read as the beginning of one.
A backslash in front of such a slash therefore stands in a string and begins the escape of a slash.
-/

/-- A text after a character, with a backslash in every `*/`. -/
def guardFrom (previous : Option Char) (text : List Char) : List Char :=
  (List.zipWith guardedChar (previous :: text.map some) text).flatten

theorem guardFrom_cons (previous : Option Char) (c : Char) (text : List Char) :
    guardFrom previous (c :: text) = guardedChar previous c ++ guardFrom (some c) text := rfl

/-- What is put in stands in front of a character, so that the last one stays. -/
theorem getLast?_guardFrom (previous : Option Char) (text : List Char) :
    (guardFrom previous text).getLast? = text.getLast? := by
  induction text generalizing previous with
  | nil => rfl
  | cons c text ih =>
    have hlast : (guardedChar previous c).getLast? = some c := by
      unfold guardedChar
      split
      · next h => rw [h.2]; rfl
      · rfl
    rw [guardFrom_cons, List.getLast?_append, ih, hlast, List.getLast?_cons]
    cases text.getLast? <;> rfl

/-- A guarded text begins as the text does. -/
theorem head?_guardComment (text : List Char) : (guardComment text).head? = text.head? := by
  cases text <;> rfl

/-- A guarded text ends as the text does. -/
theorem getLast?_guardComment (text : List Char) :
    (guardComment text).getLast? = text.getLast? := getLast?_guardFrom none text

/-! ### No closing mark -/

/-- Two characters that do not close a comment. -/
def Apart (a b : Char) : Prop := ¬ (a = '*' ∧ b = '/')

instance (a b : Char) : Decidable (Apart a b) := inferInstanceAs (Decidable (¬ _))

/-- Neighbours in a guarded text do not close a comment, nor does what stands in front of it. -/
theorem isChain_guardFrom (c : Char) (text : List Char) :
    (c :: guardFrom (some c) text).IsChain Apart := by
  -- by the text, with the character in front of it as the first of the chain
  induction text generalizing c with
  | nil => exact .singleton c
  | cons d text ih =>
    rw [guardFrom_cons]
    unfold guardedChar
    split
    · next h =>
      -- the backslash parts the two characters
      have hbackslash : ∀ a, Apart a '\\' := fun _ hclose => absurd hclose.2 (by decide)
      have hslash : Apart '\\' '/' := fun hclose => absurd hclose.1 (by decide)
      have hrest : ('/' :: guardFrom (some d) text).IsChain Apart := h.2 ▸ ih d
      exact .cons_cons (hbackslash c) (.cons_cons hslash hrest)
    · next h => exact .cons_cons (fun hclose => h ⟨congrArg some hclose.1, hclose.2⟩) (ih d)

/-- Neighbours in a guarded text do not close a comment. -/
theorem isChain_guardComment (text : List Char) : (guardComment text).IsChain Apart := by
  cases text with
  | nil => exact .nil
  | cons c text => exact isChain_guardFrom c text

/-- Nothing closes a comment in a text whose neighbours do not. -/
theorem not_infix_of_isChain {text : List Char} (h : text.IsChain Apart) :
    ¬ ['*', '/'] <:+: text := by
  intro hinfix
  have hpart : ['*', '/'].IsChain Apart := List.IsChain.infix h hinfix
  have hclose : Apart '*' '/' := (List.isChain_cons_cons.mp hpart).1
  exact hclose ⟨rfl, rfl⟩

/-- Two texts on lines of their own close no comment if neither does. -/
theorem isChain_apart_lines {text rest : List Char} (htext : text.IsChain Apart)
    (hrest : rest.IsChain Apart) : (text ++ '\n' :: rest).IsChain Apart := by
  have hfirst : ∀ a, Apart '\n' a := fun _ h => absurd h.1 (by decide)
  have hlast : ∀ a, Apart a '\n' := fun _ h => absurd h.2 (by decide)
  rw [List.isChain_append, List.isChain_cons]
  refine ⟨htext, ⟨fun a _ => hfirst a, hrest⟩, fun a _ b hb => ?_⟩
  rw [← Option.mem_some.mp hb]
  exact hlast a

/-! ### The same tokens -/

namespace Lexer

/-- The words that the machine can be inside of are made of letters. -/
def InLetters (l : Lexer) : Prop :=
  ∀ rest token, l.scan = .word rest token → rest.all Char.isAlpha = true

/-- The machine is not behind a backslash. -/
def Unescaped (l : Lexer) : Prop := ∀ content, l.scan ≠ .escape content

theorem inLetters_begin? {tokens : List Token} {c : Char} {l : Lexer}
    (h : begin? tokens c = some l) : l.InLetters := by
  intro rest token hscan
  unfold begin? at h
  split at h
  · rw [← Option.some.inj h] at hscan
    exact nomatch hscan
  · split at h
    all_goals try
      rw [← Option.some.inj h] at hscan
      cases hscan <;> rfl
    -- a digit begins a number
    obtain ⟨d, -, hl⟩ := Option.map_eq_some_iff.mp h
    rw [← hl] at hscan
    exact nomatch hscan

theorem inLetters_inString? {tokens : List Token} {content : Content} {c : Char} {l : Lexer}
    (h : inString? tokens content c = some l) : l.InLetters := by
  unfold inString? at h
  split at h
  · rw [← Option.some.inj h]
    exact nofun
  split at h
  · rw [← Option.some.inj h]
    exact nofun
  split at h
  · exact nomatch h
  · rw [← Option.some.inj h]
    exact nofun

theorem inLetters_inEscape? {tokens : List Token} {content : Content} {c : Char} {l : Lexer}
    (h : inEscape? tokens content c = some l) : l.InLetters := by
  unfold inEscape? at h
  split at h
  · rw [← Option.some.inj h]
    exact nofun
  · obtain ⟨e, -, hl⟩ := Option.map_eq_some_iff.mp h
    rw [← hl]
    exact nofun

theorem inLetters_inCodeUnit? {tokens : List Token} {content : Content} {missing value : Nat}
    {c : Char} {l : Lexer} (h : inCodeUnit? tokens content missing value c = some l) :
    l.InLetters := by
  obtain ⟨d, -, hl⟩ := Option.map_eq_some_iff.mp h
  rw [← hl]
  split <;> exact nofun

/-- A character leaves the machine inside of a word of letters, if inside of a word at all. -/
theorem InLetters.step? {l l' : Lexer} {c : Char} (hl : l.InLetters) (h : l.step? c = some l') :
    l'.InLetters := by
  obtain ⟨tokens, scan⟩ := l
  unfold Lexer.step? at h
  dsimp only at h
  cases scan with
  | between => exact inLetters_begin? h
  | word letters token =>
    cases letters with
    | nil => exact nomatch h
    | cons d letters =>
      have hletters : (d :: letters).all Char.isAlpha = true := hl _ _ rfl
      rw [List.all_cons, Bool.and_eq_true] at hletters
      dsimp only at h
      split at h
      · exact nomatch h
      split at h
      · rw [← Option.some.inj h]
        exact nofun
      · rw [← Option.some.inj h]
        intro rest token hscan
        cases hscan
        exact hletters.2
  | number part =>
    dsimp only at h
    split at h
    · rw [← Option.some.inj h]
      exact nofun
    · -- the character ends the number and begins another token
      obtain ⟨literal, -, hbegin⟩ := Option.bind_eq_some_iff.mp h
      exact inLetters_begin? hbegin
  | string content => exact inLetters_inString? h
  | escape content => exact inLetters_inEscape? h
  | codeUnit content missing value => exact inLetters_inCodeUnit? h

/-- A character that neither continues a number nor begins a token cannot follow a number. -/
theorem step?_number_eq_none {tokens : List Token} {part : NumeralPart} {c : Char}
    (hnext : part.next? c = none) (hbegin : ∀ tokens, begin? tokens c = none) :
    step? ⟨tokens, .number part⟩ c = none := by
  unfold step?
  dsimp only
  rw [hnext]
  cases part.literal? with
  | none => rfl
  | some literal => exact hbegin _

/-- A character that is no letter is not part of a word. -/
theorem InLetters.step?_word {tokens : List Token} {letters : List Char} {token : Token} {c : Char}
    (hl : InLetters ⟨tokens, .word letters token⟩) (hc : c.isAlpha = false) :
    Lexer.step? ⟨tokens, .word letters token⟩ c = none := by
  cases letters with
  | nil => rfl
  | cons d letters =>
    have hletters : (d :: letters).all Char.isAlpha = true := hl _ _ rfl
    rw [List.all_cons, Bool.and_eq_true] at hletters
    have hne : c ≠ d := by
      rintro rfl
      exact Bool.false_ne_true (hc.symm.trans hletters.1)
    exact if_pos hne

/-- A star can only be read inside of a string. -/
theorem InLetters.step?_star {l l' : Lexer} (hl : l.InLetters) (h : l.step? '*' = some l') :
    l'.Unescaped := by
  have hletter : '*'.isAlpha = false := by decide
  obtain ⟨tokens, scan⟩ := l
  cases scan with
  | between => exact nomatch h
  | word letters token => exact nomatch (hl.step?_word hletter).symm.trans h
  | number part => exact nomatch (step?_number_eq_none rfl fun _ => rfl).symm.trans h
  | string content =>
    have hl' : ⟨tokens, .string (content.push '*')⟩ = l' := Option.some.inj h
    rw [← hl']
    exact nofun
  | escape content => exact nomatch h
  | codeUnit content missing value => exact nomatch h

/-- Behind anything but a backslash, the escape of a slash is read as the slash is: both stand in a
    string, or neither can stand there. -/
theorem InLetters.step?_slash {l : Lexer} (hl : l.InLetters) (hescape : l.Unescaped) :
    (l.step? '\\').bind (·.step? '/') = l.step? '/' := by
  have hslash : '/'.isAlpha = false := by decide
  have hbackslash : '\\'.isAlpha = false := by decide
  obtain ⟨tokens, scan⟩ := l
  cases scan with
  | between => rfl
  | word letters token =>
    rw [hl.step?_word hslash, hl.step?_word hbackslash]
    rfl
  | number part =>
    rw [step?_number_eq_none rfl fun _ => rfl, step?_number_eq_none rfl fun _ => rfl]
    rfl
  | string content => rfl
  | escape content => exact absurd rfl (hescape content)
  | codeUnit content missing value => rfl

/-- A guarded text leads to the state that the text leads to. -/
theorem InLetters.run?_guardFrom {l : Lexer} (hl : l.InLetters) {previous : Option Char}
    (hescape : previous = some '*' → l.Unescaped) (text : List Char) :
    l.run? (guardFrom previous text) = l.run? text := by
  -- the machine stays inside of letters, and is not behind a backslash after a star
  induction text generalizing l previous with
  | nil => rfl
  | cons c text ih =>
    have hguarded : l.run? (guardedChar previous c) = l.step? c := by
      unfold guardedChar
      split
      · next h =>
        rw [h.2, ← hl.step?_slash (hescape h.1), run?_cons]
        exact congrArg (l.step? '\\').bind (funext fun l' => l'.run?_singleton '/')
      · exact l.run?_singleton c
    rw [guardFrom_cons, run?_append, hguarded, run?_cons]
    cases hstep : l.step? c with
    | none => rfl
    | some l' =>
      refine ih (hl.step? hstep) fun hstar => ?_
      rw [Option.some.inj hstar] at hstep
      exact hl.step?_star hstep

end Lexer

/-- **The same tokens.** A guarded text is divided into the tokens of the text. -/
theorem Token.scan?_guardComment (text : List Char) :
    Token.scan? (guardComment text) = Token.scan? text := by
  have hletters : Lexer.start.InLetters := nofun
  have hescape : (none : Option Char) = some '*' → Lexer.start.Unescaped := nofun
  have hrun : Lexer.start.run? (guardComment text) = Lexer.start.run? text :=
    hletters.run?_guardFrom hescape text
  unfold Token.scan?
  exact congrArg (·.bind Lexer.finish?) hrun

end LightShow
