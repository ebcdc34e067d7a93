import LightShow.Proofs.Artifact.Records
import LightShow.Proofs.Artifact.RoundTrip
import Mathlib.Data.Bool.AllAny

namespace LightShow

/-!
# The lines of an artifact

* `Json.not_control_chars` — the text of a value without blanks is on one line, whatever its strings
  hold;
* `Show.lines`, `Show.textLines_artifact` — the lines of an artifact, and that the text is split
  into these;
* `numbersIn` — the numbers in a text;
* `Show.table_tellsEvents` — the table and the records tell the same events.
-/

/-! ### A value on one line -/

/-- The control characters, line ends among them. -/
def IsControl (c : Char) : Prop := c.toNat < 0x20

instance (c : Char) : Decidable (IsControl c) := inferInstanceAs (Decidable (c.toNat < 0x20))

/-- A number is made of digits. -/
theorem forall_mem_decimalChars {P : Char → Prop} (h : ∀ d : Digit, P (digitChar d)) (n : Nat) :
    ∀ c ∈ decimalChars n, P c :=
  List.forall_mem_map.mpr fun d _ => h d

/-- No control character stands in a number. -/
theorem Numeral.not_control_spelling (n : Numeral) : ∀ c ∈ n.spelling, ¬ IsControl c := by
  have hdigit : ∀ d : Digit, ¬ IsControl (digitChar d) := by decide
  have hdecimal : ∀ m, ∀ c ∈ decimalChars m, ¬ IsControl c := forall_mem_decimalChars hdigit
  have hfraction : ∀ c ∈ n.fraction.map digitChar, ¬ IsControl c :=
    List.forall_mem_map.mpr fun d _ => hdigit d
  unfold spelling
  simp only [List.forall_mem_append]
  refine ⟨⟨⟨?_, hdecimal n.whole⟩, ?_⟩, ?_⟩
  · split <;> exact List.all_iff_forall_prop.mp (by decide)
  · split
    · exact List.forall_mem_nil _
    · exact List.forall_mem_cons.mpr ⟨by decide, hfraction⟩
  · split
    · exact List.forall_mem_nil _
    · next e _ =>
      unfold exponentSpelling
      simp only [List.forall_mem_cons]
      refine ⟨by decide, ?_, hdecimal e.natAbs⟩
      split <;> decide

/-- A control character in a string is escaped. -/
theorem not_control_escaped (c : Char) : ∀ e ∈ escaped c, ¬ IsControl e := by
  have hhex : ∀ n, n < 16 → ¬ IsControl (hexDigit n) := by decide
  unfold escaped
  -- the seven characters with a short escape, the other control characters, and all others
  iterate 7
    split
    · exact List.all_iff_forall_prop.mp (by decide)
  split
  · have hbyte := c.toNat.toUInt8.toNat_lt
    have hhigh := hhex (c.toNat.toUInt8.toNat / 16) (by omega)
    have hlow := hhex (c.toNat.toUInt8.toNat % 16) (by omega)
    have hfront : ∀ e ∈ ['\\', 'u', '0', '0'], ¬ IsControl e :=
      List.all_iff_forall_prop.mp (by decide)
    have hdigits : ∀ e ∈ hexByte c.toNat.toUInt8, ¬ IsControl e := by
      simp only [hexByte, List.forall_mem_cons]
      exact ⟨hhigh, hlow, List.forall_mem_nil _⟩
    exact List.forall_mem_append.mpr ⟨hfront, hdigits⟩
  · next hcontrol => exact List.forall_mem_singleton.mpr hcontrol

/-- No control character stands in a token. -/
theorem Token.not_control_spelling (t : Token) : ∀ c ∈ t.spelling, ¬ IsControl c := by
  cases t with
  | number literal => exact literal.not_control_spelling
  | string text =>
    cases text with
    | none => exact List.all_iff_forall_prop.mp (by decide)
    | some s =>
      have hcontent : ∀ c ∈ s.toList.flatMap escaped, ¬ IsControl c :=
        List.forall_mem_flatMap.mpr fun c _ => not_control_escaped c
      unfold spelling quoted
      simp only [List.forall_mem_cons, List.forall_mem_append]
      exact ⟨by decide, hcontent, by decide, List.forall_mem_nil _⟩
  | bool value => cases value <;> exact List.all_iff_forall_prop.mp (by decide)
  | _ => exact List.all_iff_forall_prop.mp (by decide)

/-- A value without blanks is written on one line, whatever its strings hold. -/
theorem Json.not_control_chars (value : Json) : ∀ c ∈ value.chars .compact, ¬ IsControl c := by
  have hleads : Spacing.compact.Leads (· = []) := ⟨rfl, fun _ => rfl, rfl⟩
  refine List.forall_mem_flatMap.mpr fun part hpart => ?_
  have hlead : part.1 = [] := lead_laidOut hleads 0 rfl value part hpart
  rw [hlead, List.nil_append]
  exact part.2.not_control_spelling

/-- Backslashes are put into a guarded text, and nothing else. -/
theorem mem_guardFrom {previous : Option Char} {text : List Char} {c : Char}
    (h : c ∈ guardFrom previous text) : c = '\\' ∨ c ∈ text := by
  induction text generalizing previous with
  | nil => exact nomatch h
  | cons d text ih =>
    rw [guardFrom_cons, List.mem_append] at h
    rcases h with hhere | hrest
    · unfold guardedChar at hhere
      split at hhere
      · next hclose =>
        have hput : c = '\\' ∨ c = '/' := by simpa using hhere
        exact hput.imp_right fun heq => by simp [heq, hclose.2]
      · exact .inr (List.mem_singleton.mp hhere ▸ List.mem_cons_self)
    · exact (ih hrest).imp_right (List.mem_cons_of_mem d)

/-- The saved project is one line. -/
theorem Show.not_control_savedProject (s : Show) : ∀ c ∈ s.savedProject, ¬ IsControl c := by
  intro c hc
  rcases mem_guardFrom hc with rfl | hc
  · decide
  · exact s.project.toJson.not_control_chars c hc

/-! ### The lines -/

/-- The lines between the comment and the rows of the table. -/
def tableHead : List (List Char) :=
  ["", "// Generated by Lumina",
    "struct Cmd \x7b uint32_t ms; uint8_t suit; uint16_t led; uint8_t r, g, b; \x7d;", "",
    "const Cmd choreography[] = \x7b"].map String.toList

/-- A row of the table, without its line end. -/
def Event.line (e : Event) : List Char :=
  [' ', ' ', '\x7b'] ++ [',', ' '].intercalate (e.columns.map decimalChars) ++ ['\x7d', ',']

/-- Stands in front of the number of events. -/
def countMark : List Char := "const uint32_t FRAME_COUNT = ".toList

/-- Stands in front of the length of the show. -/
def durationMark : List Char := "const uint32_t TOTAL_DURATION = ".toList

/-- The lines behind the rows of the table. -/
def Show.tableFoot (s : Show) : List (List Char) :=
  ["\x7d;".toList, [], countMark ++ (decimalChars s.frameCount ++ [';']),
    durationMark ++ (decimalChars s.totalDuration.toNat ++ [';'])]

/-- The lines behind the comment. -/
def Show.table (s : Show) : List (List Char) :=
  tableHead ++ (s.events.map Event.line ++ s.tableFoot)

/-- The lines of an artifact. -/
def Show.lines (s : Show) : List (List Char) := saveStart :: s.savedProject :: saveEnd :: s.table

/-- Lines are put together one after another. -/
theorem intercalate_append (sep : Char) (front : List (List Char)) {back : List (List Char)}
    (hback : back ≠ []) : [sep].intercalate (front ++ back)
      = front.flatMap (· ++ [sep]) ++ [sep].intercalate back := by
  induction front with
  | nil => rfl
  | cons line front ih =>
    obtain ⟨next, rest, hnext⟩ := List.exists_cons_of_ne_nil
      (List.append_ne_nil_of_right_ne_nil front hback)
    rw [List.cons_append, hnext, List.intercalate_cons_cons, ← hnext, ih, List.flatMap_cons]
    simp only [List.append_assoc]

/-- The text between the comment and the rows, line by line. -/
theorem toList_tableHead : ("\n\n// Generated by Lumina\n"
    ++ "struct Cmd \x7b uint32_t ms; uint8_t suit; uint16_t led; uint8_t r, g, b; \x7d;\n\n"
    ++ "const Cmd choreography[] = \x7b\n").toList = '\n' :: tableHead.flatMap (· ++ ['\n']) := by
  have hnote : "\n\n// Generated by Lumina\n"
      = .ofList ['\n', '\n'] ++ ("// Generated by Lumina" ++ .ofList ['\n']) := rfl
  have hrecord :
      "struct Cmd \x7b uint32_t ms; uint8_t suit; uint16_t led; uint8_t r, g, b; \x7d;\n\n"
        = "struct Cmd \x7b uint32_t ms; uint8_t suit; uint16_t led; uint8_t r, g, b; \x7d;"
          ++ .ofList ['\n', '\n'] := rfl
  have hopen : "const Cmd choreography[] = \x7b\n"
      = "const Cmd choreography[] = \x7b" ++ .ofList ['\n'] := rfl
  rw [hnote, hrecord, hopen]
  simp only [String.toList_append, String.toList_ofList, String.toList_empty, tableHead,
    List.map_cons, List.map_nil, List.flatMap_cons, List.flatMap_nil, List.append_assoc,
    List.cons_append, List.nil_append]

/-- The text behind the rows, line by line. -/
theorem Show.toList_tableFoot (s : Show) : ("\x7d;\n\nconst uint32_t FRAME_COUNT = "
    ++ decimalText s.frameCount ++ ";\nconst uint32_t TOTAL_DURATION = "
    ++ decimalText s.totalDuration.toNat ++ ";").toList = ['\n'].intercalate s.tableFoot := by
  have hcount : "\x7d;\n\nconst uint32_t FRAME_COUNT = "
      = "\x7d;" ++ (.ofList ['\n', '\n'] ++ "const uint32_t FRAME_COUNT = ") := rfl
  have hduration : ";\nconst uint32_t TOTAL_DURATION = "
      = .ofList [';', '\n'] ++ "const uint32_t TOTAL_DURATION = " := rfl
  have hstop : ";" = .ofList [';'] := rfl
  rw [hcount, hduration, hstop]
  unfold tableFoot countMark durationMark decimalText
  rw [List.intercalate_cons_cons, List.intercalate_cons_cons, List.intercalate_cons_cons,
    List.intercalate_singleton]
  simp only [String.toList_append, String.toList_ofList, List.append_assoc, List.cons_append,
    List.nil_append]

/-- An artifact is made of its lines. -/
theorem Show.artifactChars_eq (s : Show) : s.artifactChars = ['\n'].intercalate s.lines := by
  have hrow : ∀ e : Event, e.row = e.line ++ ['\n'] := by
    intro e
    unfold Event.row Event.line
    simp only [List.append_assoc, List.cons_append, List.nil_append]
  have hrows : s.events.flatMap Event.row = (s.events.map Event.line).flatMap (· ++ ['\n']) := by
    rw [List.flatMap_map, funext hrow]
  have hlines : s.lines = ([saveStart, s.savedProject, saveEnd] ++ tableHead
      ++ s.events.map Event.line) ++ s.tableFoot := by
    simp [lines, table]
  have hne : s.tableFoot ≠ [] := List.cons_ne_nil _ _
  rw [hlines, intercalate_append '\n' _ hne, artifactChars, toList_tableHead, hrows,
    s.toList_tableFoot]
  simp only [List.flatMap_append, List.flatMap_cons, List.append_assoc, List.cons_append,
    List.nil_append]

/-- What is put together is made of the parts and of what stands between them. -/
theorem forall_mem_intercalate {P : Char → Prop} {between : List Char} {parts : List (List Char)}
    (hbetween : ∀ c ∈ between, P c) (hparts : ∀ part ∈ parts, ∀ c ∈ part, P c) :
    ∀ c ∈ between.intercalate parts, P c := by
  induction parts with
  | nil => exact List.forall_mem_nil _
  | cons part parts ih =>
    obtain ⟨hpart, hrest⟩ := List.forall_mem_cons.mp hparts
    cases parts with
    | nil => simpa using hpart
    | cons next parts =>
      rw [List.intercalate_cons_cons]
      simp only [List.forall_mem_append]
      exact ⟨⟨hpart, hbetween⟩, ih hrest⟩

/-- A row is made of digits and a few other characters. -/
theorem Event.forall_mem_line {P : Char → Prop} (hdigit : ∀ d : Digit, P (digitChar d))
    (hother : ∀ c ∈ [' ', '\x7b', ',', '\x7d'], P c) (e : Event) : ∀ c ∈ e.line, P c := by
  have hnumbers : ∀ number ∈ e.columns.map decimalChars, ∀ c ∈ number, P c :=
    List.forall_mem_map.mpr fun n _ => forall_mem_decimalChars hdigit n
  simp only [List.forall_mem_cons] at hother
  obtain ⟨hblank, hopen, hcomma, hclose, hnil⟩ := hother
  have hbetween : ∀ c ∈ [',', ' '], P c := by
    simp only [List.forall_mem_cons]
    exact ⟨hcomma, hblank, hnil⟩
  unfold line
  simp only [List.forall_mem_append, List.forall_mem_cons]
  exact ⟨⟨⟨hblank, hblank, hopen, hnil⟩, forall_mem_intercalate hbetween hnumbers⟩, hclose, hcomma,
    hnil⟩

/-- The lines behind the rows are made of digits and a few other characters. -/
theorem Show.forall_mem_tableFoot {P : Char → Prop} (hdigit : ∀ d : Digit, P (digitChar d))
    (hclose : ∀ c ∈ "\x7d;".toList, P c) (hcount : ∀ c ∈ countMark, P c)
    (hduration : ∀ c ∈ durationMark, P c) (s : Show) : ∀ line ∈ s.tableFoot, ∀ c ∈ line, P c := by
  have hnumber : ∀ n, ∀ c ∈ decimalChars n, P c := forall_mem_decimalChars hdigit
  have hstop : ∀ c ∈ [';'], P c := fun c hc => hclose c (List.mem_singleton.mp hc ▸ by decide)
  unfold tableFoot
  simp only [List.forall_mem_cons, List.forall_mem_append] at hstop ⊢
  exact ⟨hclose, List.forall_mem_nil _, ⟨hcount, hnumber _, hstop⟩,
    ⟨hduration, hnumber _, hstop⟩, List.forall_mem_nil _⟩

/-- No line holds a control character. -/
theorem Show.not_control_lines (s : Show) : ∀ line ∈ s.lines, ∀ c ∈ line, ¬ IsControl c := by
  have hdigit : ∀ d : Digit, ¬ IsControl (digitChar d) := by decide
  have hstart : ∀ c ∈ saveStart, ¬ IsControl c := List.all_iff_forall_prop.mp (by decide +kernel)
  have hend : ∀ c ∈ saveEnd, ¬ IsControl c := List.all_iff_forall_prop.mp (by decide +kernel)
  have hhead : ∀ line ∈ tableHead, ∀ c ∈ line, ¬ IsControl c := by
    have hall : ∀ line ∈ tableHead, line.all (¬ IsControl ·) = true := by decide +kernel
    exact fun line hline => List.all_iff_forall_prop.mp (hall line hline)
  have hrows : ∀ line ∈ s.events.map Event.line, ∀ c ∈ line, ¬ IsControl c :=
    List.forall_mem_map.mpr fun e _ =>
      e.forall_mem_line hdigit (List.all_iff_forall_prop.mp (by decide))
  have hfoot : ∀ line ∈ s.tableFoot, ∀ c ∈ line, ¬ IsControl c :=
    s.forall_mem_tableFoot hdigit (List.all_iff_forall_prop.mp (by decide))
      (List.all_iff_forall_prop.mp (by decide +kernel))
      (List.all_iff_forall_prop.mp (by decide +kernel))
  unfold lines table
  simp only [List.forall_mem_cons, List.forall_mem_append]
  exact ⟨hstart, s.not_control_savedProject, hend, hhead, hrows, hfoot⟩

/-- A line of an artifact is not divided again. -/
theorem Show.newline_not_mem_lines (s : Show) : ∀ line ∈ s.lines, '\n' ∉ line :=
  fun line hline hnewline => s.not_control_lines line hline '\n' hnewline (by decide)

/-- The lines of a text. -/
def textLines (text : String) : List (List Char) := text.toList.splitOn '\n'

/-- An artifact has its lines and no others. -/
theorem Show.textLines_artifact (s : Show) : textLines s.artifact = s.lines := by
  rw [textLines, artifact, String.toList_ofList, s.artifactChars_eq]
  exact List.splitOn_intercalate '\n' s.newline_not_mem_lines (List.cons_ne_nil _ _)

/-! ### Numbers in a text -/

/-- The numbers in a text, of which the digits read last are a part of the first one. -/
def numbersFrom (open? : Option Nat) : List Char → List Nat
  | [] => open?.toList
  | c :: rest =>
    match digitValue? c with
    | some d => numbersFrom (some (10 * open?.getD 0 + d.val)) rest
    | none => open?.toList ++ numbersFrom none rest

/-- The numbers in a text: digits that stand in a row, in decimal. -/
def numbersIn (text : List Char) : List Nat := numbersFrom none text

/-- Another character ends a number. -/
theorem numbersFrom_cons {c : Char} (hc : digitValue? c = none) (open? : Option Nat)
    (rest : List Char) : numbersFrom open? (c :: rest) = open?.toList ++ numbersIn rest := by
  rw [numbersFrom, hc]
  rfl

/-- Digits in a row go on with a number. -/
theorem numbersFrom_digits (n : Nat) (digits : List Digit) (rest : List Char) :
    numbersFrom (some n) (digits.map digitChar ++ rest)
      = numbersFrom (some (digits.foldl (fun n d => 10 * n + d.val) n)) rest := by
  induction digits generalizing n with
  | nil => rfl
  | cons d digits ih =>
    rw [List.map_cons, List.cons_append, numbersFrom, digitValue?_digitChar]
    exact ih (10 * n + d.val)

/-- A number is read as it was written, if no digit follows. -/
theorem numbersIn_decimalChars (n : Nat) {c : Char} (hc : digitValue? c = none) (rest : List Char) :
    numbersIn (decimalChars n ++ c :: rest) = n :: numbersIn rest := by
  obtain ⟨d, digits, hdigits⟩ := List.exists_cons_of_ne_nil (numeralOf_ne_nil n)
  have hvalue : digits.foldl (fun n d => 10 * n + d.val) (10 * 0 + d.val) = n := by
    have hall := valueOf_numeralOf n
    rwa [hdigits] at hall
  rw [numbersIn, decimalChars, hdigits, List.map_cons, List.cons_append, numbersFrom,
    digitValue?_digitChar]
  show numbersFrom (some (10 * 0 + d.val)) _ = _
  rw [numbersFrom_digits, hvalue, numbersFrom_cons hc]
  rfl

/-- The numbers of a row are the fields of its event. -/
theorem Event.numbersIn_line (e : Event) : numbersIn e.line = e.columns := by
  have hskip : ∀ {c : Char} (_ : digitValue? c = none) (rest : List Char),
      numbersIn (c :: rest) = numbersIn rest := fun hc rest => numbersFrom_cons hc none rest
  have hblank : digitValue? ' ' = none := by decide
  have hopen : digitValue? '\x7b' = none := by decide
  have hcomma : digitValue? ',' = none := by decide
  have hclose : digitValue? '\x7d' = none := by decide
  unfold line columns
  simp only [List.map_cons, List.map_nil, List.intercalate_cons_cons, List.intercalate_singleton,
    List.append_assoc, List.cons_append, List.nil_append]
  rw [hskip hblank, hskip hblank, hskip hopen]
  iterate 5 rw [numbersIn_decimalChars _ hcomma, hskip hblank]
  rw [numbersIn_decimalChars _ hclose, hskip hcomma]
  rfl

/-! ### The table -/

/-- Stands in front of the fields of a row. -/
def rowMark : List Char := [' ', ' ', '\x7b']

/-- The rows of the table in a text. -/
def tableRows (text : String) : List (List Char) :=
  (textLines text).filter fun line => rowMark <+: line

/-- The numbers of events in a text. -/
def frameCounts (text : String) : List (List Nat) :=
  ((textLines text).filter fun line => countMark <+: line).map fun line =>
    numbersIn (line.drop countMark.length)

/-- The event with these fields, if there are six and each is in its range. -/
def Event.ofColumns? : List Nat → Option Event
  | [time, suit, led, red, green, blue] =>
    if time < UInt32.size ∧ suit < UInt8.size ∧ led < UInt16.size
        ∧ red < UInt8.size ∧ green < UInt8.size ∧ blue < UInt8.size then
      some ⟨.ofNat time, .ofNat suit, .ofNat led, ⟨.ofNat red, .ofNat green, .ofNat blue⟩⟩
    else none
  | _ => none

/-- The fields of an event tell the event. -/
theorem Event.ofColumns?_columns (e : Event) : ofColumns? e.columns = some e := by
  have hranges : e.time.toNat < UInt32.size ∧ e.suit.toNat < UInt8.size
      ∧ e.led.toNat < UInt16.size ∧ e.color.red.toNat < UInt8.size
      ∧ e.color.green.toNat < UInt8.size ∧ e.color.blue.toNat < UInt8.size :=
    ⟨e.time.toNat_lt, e.suit.toNat_lt, e.led.toNat_lt, e.color.red.toNat_lt,
      e.color.green.toNat_lt, e.color.blue.toNat_lt⟩
  rw [columns, ofColumns?, if_pos hranges]
  simp only [UInt32.ofNat_toNat, UInt8.ofNat_toNat, UInt16.ofNat_toNat]

/-- A text does not begin with a mark that begins with another character. -/
theorem not_prefix_of_head? {mark line : List Char} {c d : Char} (hmark : mark.head? = some c)
    (hline : line.head? = some d) (hne : c ≠ d) : ¬ mark <+: line := by
  rintro ⟨rest, rfl⟩
  rw [List.head?_append, hmark] at hline
  exact hne (Option.some.inj hline)

/-- What is picked from the middle of a list, if nothing else is. -/
theorem filter_middle {α : Type} {p : α → Bool} {front middle back : List α}
    (hfront : ∀ a ∈ front, ¬ p a = true) (hmiddle : ∀ a ∈ middle, p a = true)
    (hback : ∀ a ∈ back, ¬ p a = true) : (front ++ (middle ++ back)).filter p = middle := by
  rw [List.filter_append, List.filter_append, List.filter_eq_nil_iff.mpr hfront,
    List.filter_eq_self.mpr hmiddle, List.filter_eq_nil_iff.mpr hback, List.nil_append,
    List.append_nil]

/-- The rows of an artifact are those of its events. -/
theorem Show.tableRows_artifact (s : Show) : tableRows s.artifact = s.events.map Event.line := by
  have hblank : rowMark.head? = some ' ' := rfl
  have hsaved : ¬ rowMark <+: s.savedProject :=
    not_prefix_of_head? hblank s.head?_savedProject (by decide)
  have hhead : ∀ line ∈ tableHead, ¬ rowMark <+: line := by decide +kernel
  -- no other line has the mark: the saved project begins with a brace
  have hfront : ∀ line ∈ saveStart :: s.savedProject :: saveEnd :: tableHead,
      ¬ decide (rowMark <+: line) = true := by
    simp only [List.forall_mem_cons, decide_eq_true_eq]
    exact ⟨by decide +kernel, hsaved, by decide +kernel, hhead⟩
  have hrows : ∀ line ∈ s.events.map Event.line, decide (rowMark <+: line) = true := by
    refine List.forall_mem_map.mpr fun e _ => decide_eq_true ?_
    exact (List.prefix_append _ _).trans (List.prefix_append _ _)
  have hfoot : ∀ line ∈ s.tableFoot, ¬ decide (rowMark <+: line) = true := by
    have hconst : ∀ {mark : List Char} (rest : List Char), mark.head? = some 'c' →
        ¬ rowMark <+: mark ++ rest := by
      intro mark rest hmark
      refine not_prefix_of_head? hblank (d := 'c') ?_ (by decide)
      rw [List.head?_append, hmark]
      rfl
    unfold tableFoot
    simp only [List.forall_mem_cons, decide_eq_true_eq]
    exact ⟨by decide, by decide, hconst _ (by decide), hconst _ (by decide), List.forall_mem_nil _⟩
  have hlines : s.lines = (saveStart :: s.savedProject :: saveEnd :: tableHead)
      ++ (s.events.map Event.line ++ s.tableFoot) := rfl
  rw [tableRows, s.textLines_artifact, hlines, filter_middle hfront hrows hfoot]

/-- The number of events stands in an artifact once. -/
theorem Show.frameCounts_artifact (s : Show) : frameCounts s.artifact = [[s.events.length]] := by
  have hc : countMark.head? = some 'c' := by decide
  have hsaved : ¬ countMark <+: s.savedProject :=
    not_prefix_of_head? hc s.head?_savedProject (by decide)
  have hhead : ∀ line ∈ tableHead, ¬ countMark <+: line := by decide +kernel
  have hrows : ∀ line ∈ s.events.map Event.line, ¬ countMark <+: line :=
    List.forall_mem_map.mpr fun e _ => not_prefix_of_head? (d := ' ') hc rfl (by decide)
  have hfront : ∀ line ∈ saveStart :: s.savedProject :: saveEnd
        :: (tableHead ++ (s.events.map Event.line ++ ["\x7d;".toList, []])),
      ¬ decide (countMark <+: line) = true := by
    simp only [List.forall_mem_cons, List.forall_mem_append, decide_eq_true_eq]
    exact ⟨by decide +kernel, hsaved, by decide +kernel, hhead, hrows, by decide, by decide,
      List.forall_mem_nil _⟩
  have hcount : ∀ line ∈ [countMark ++ (decimalChars s.frameCount ++ [';'])],
      decide (countMark <+: line) = true :=
    List.forall_mem_singleton.mpr (decide_eq_true (List.prefix_append _ _))
  have hduration : ∀ line ∈ [durationMark ++ (decimalChars s.totalDuration.toNat ++ [';'])],
      ¬ decide (countMark <+: line) = true := by
    rw [List.forall_mem_singleton, decide_eq_true_eq]
    -- the mark is no longer than the other one, and not its beginning
    intro hprefix
    have hmarks : countMark <+: durationMark :=
      List.prefix_of_prefix_length_le hprefix (List.prefix_append _ _) (by decide)
    exact absurd hmarks (by decide)
  have hlines : s.lines = (saveStart :: s.savedProject :: saveEnd
      :: (tableHead ++ (s.events.map Event.line ++ ["\x7d;".toList, []])))
      ++ ([countMark ++ (decimalChars s.frameCount ++ [';'])]
        ++ [durationMark ++ (decimalChars s.totalDuration.toNat ++ [';'])]) := by
    unfold lines table tableFoot
    simp only [List.append_assoc, List.cons_append, List.nil_append]
  have hstop : digitValue? ';' = none := by decide
  rw [frameCounts, s.textLines_artifact, hlines, filter_middle hfront hcount hduration,
    List.map_singleton, List.drop_left, numbersIn_decimalChars _ hstop]
  rfl

/-- **One table.** Whatever the strings of the project hold, the rows of an artifact are one for
    each event in their order, and the numbers in a row are the fields of its event. The records of
    the events are read as the same events, and their number is the one that the artifact tells. -/
theorem Show.table_tellsEvents (s : Show) :
    (tableRows s.artifact).map (fun row => Event.ofColumns? (numbersIn row)) = s.events.map some
    ∧ Event.ofBytes (Event.bytes s.events) = .ok s.events
    ∧ frameCounts s.artifact = [[s.events.length]] := by
  have hrow : (fun row => Event.ofColumns? (numbersIn row)) ∘ Event.line = some := by
    funext e
    rw [Function.comp_apply, e.numbersIn_line, e.ofColumns?_columns]
  refine ⟨?_, Event.ofBytes_bytes s.events, s.frameCounts_artifact⟩
  rw [s.tableRows_artifact, List.map_map, hrow]

end LightShow
