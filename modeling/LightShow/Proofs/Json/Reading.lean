import LightShow.Json.Reader
import LightShow.Proofs.Json.Lexing

namespace LightShow

/-!
# A text is read as the value that it spells

* `Reader.run?`, `Reader.run?_words` — the machine over tokens; those of a value are read as that
  value, inside of any arrays and objects;
* `Reader.Follows` — the tokens after which the machine is in a state: they are all that it read;
* `Json.parse?_eq_some_iff` — a text is read as a value exactly if it spells the value: the grammar
  is read, all of it and nothing else;
* `Json.parse?_chars` — in particular, what is printed for a value is read as that value.
-/

namespace Reader

/-- The machine after tokens; nothing if one of them cannot stand where it is. -/
def run? (r : Reader) (tokens : List Token) : Option Reader := tokens.foldlM step? r

@[simp] theorem run?_nil (r : Reader) : r.run? [] = some r := rfl

@[simp] theorem run?_cons (r : Reader) (t : Token) (tokens : List Token) :
    r.run? (t :: tokens) = (r.step? t).bind (·.run? tokens) := rfl

/-- Tokens are read one after another. -/
theorem run?_append (r : Reader) (tokens rest : List Token) :
    r.run? (tokens ++ rest) = (r.run? tokens).bind (·.run? rest) := by
  unfold run?
  rw [List.foldlM_append]
  rfl

/-! ### From values to tokens -/

/-- A number does not follow a complete value. -/
theorem step?_number_complete (value : Json) (around : List Enclosure) (literal : Numeral) :
    (complete value around).step? (.number literal) = none := by
  cases around with
  | nil => rfl
  | cons e around => cases e <;> rfl

/-- No two numbers in a row are read. -/
theorem isChain_of_run? {r r' : Reader} {tokens : List Token} (h : r.run? tokens = some r') :
    tokens.IsChain Token.Parted := by
  induction tokens generalizing r with
  | nil => exact .nil
  | cons t tokens ih =>
    rw [run?_cons] at h
    obtain ⟨next, hstep, hrest⟩ := Option.bind_eq_some_iff.mp h
    cases tokens with
    | nil => exact .singleton t
    | cons u tokens =>
      refine .cons_cons (fun ht => ?_) (ih hrest)
      -- a number completes a value, behind which no number may stand
      by_contra hu
      cases t with
      | number literal => cases u with
        | number other =>
          obtain ⟨value, around, rfl⟩ : ∃ value around, next = complete value around := by
            cases r with
            | value around | firstItem around =>
              exact ⟨_, _, (Option.some.inj hstep).symm⟩
            | _ => exact nomatch hstep
          rw [run?_cons, step?_number_complete] at hrest
          exact nomatch hrest
        | _ => exact hu rfl
      | _ => exact nomatch ht

/-- The first token of a value does not close an array, so that a value is read as the first item in
    the same way as it is read anywhere else. -/
theorem run?_firstItem (j : Json) (around : List Enclosure) :
    run? (.firstItem around) j.words = run? (.value (.item [] :: around)) j.words := by
  unfold Json.words
  cases j with
  | array items => cases items <;> rfl
  | object members => cases members <;> rfl
  | _ => rfl

mutual

/-- **Values.** The tokens of a value are read as that value. -/
theorem run?_words (around : List Enclosure) : (j : Json) →
    run? (.value around) j.words = some (complete j around)
  | .null | .bool _ | .number _ | .string _ | .array [] | .object [] => by
    simp only [Json.words]
    rfl
  | .array (item :: items) => by
    have hopen : step? (.value around) .openArray = some (.firstItem around) := rfl
    have hclose : step? (.afterItem (items.reverse ++ [item]) around) .closeArray
        = some (complete (.array (item :: items)) around) := by
      show some (complete (.array (items.reverse ++ [item]).reverse) around) = _
      rw [List.reverse_append, List.reverse_reverse]
      rfl
    simp only [Json.words, List.cons_append]
    -- the items are held with the last one first until the array is closed
    rw [run?_cons, hopen, Option.bind_some, run?_append, run?_append, run?_firstItem,
      run?_words (.item [] :: around) item, Option.bind_some, complete,
      run?_itemWords [item] around items, Option.bind_some, run?_cons, hclose]
    rfl
  | .object ((key, j) :: members) => by
    have hclose : step? (.afterMember (members.reverse ++ [(key, j)]) around) .closeObject
        = some (complete (.object ((key, j) :: members)) around) := by
      show some (complete (.object (members.reverse ++ [(key, j)]).reverse) around) = _
      rw [List.reverse_append, List.reverse_reverse]
      rfl
    simp only [Json.words, List.cons_append]
    -- after the bracket, the name and the colon
    show run? (.value (.member [] key :: around)) _ = _
    rw [run?_append, run?_append, run?_words (.member [] key :: around) j, Option.bind_some, complete,
      run?_memberWords [(key, j)] around members, Option.bind_some, run?_cons, hclose]
    rfl

/-- The items after the first one are put in front of those read before. -/
theorem run?_itemWords (read : List Json) (around : List Enclosure) : (items : List Json) →
    run? (.afterItem read around) (Json.itemWords items)
      = some (.afterItem (items.reverse ++ read) around)
  | [] => rfl
  | item :: items => by
    simp only [Json.itemWords, List.cons_append]
    -- after the comma
    show run? (.value (.item read :: around)) _ = _
    rw [run?_append, run?_words (.item read :: around) item, Option.bind_some, complete,
      run?_itemWords (item :: read) around items, List.reverse_cons, List.append_assoc]
    rfl

/-- The members after the first one are put in front of those read before. -/
theorem run?_memberWords (read : List (Option String × Json)) (around : List Enclosure) :
    (members : List (Option String × Json)) →
    run? (.afterMember read around) (Json.memberWords members)
      = some (.afterMember (members.reverse ++ read) around)
  | [] => rfl
  | (key, j) :: members => by
    simp only [Json.memberWords, List.cons_append]
    -- after the comma, the name and the colon
    show run? (.value (.member read key :: around)) _ = _
    rw [run?_append, run?_words (.member read key :: around) j, Option.bind_some, complete,
      run?_memberWords ((key, j) :: read) around members, List.reverse_cons, List.append_assoc]
    rfl

end

/-! ### From tokens to values -/

/-- The tokens of an array up to the next item. The items before it stand with the last one
    first. -/
def nextItem : List Json → List Token
  | [] => [.openArray]
  | item :: items => nextItem items ++ item.words ++ [.comma]

/-- The tokens of an object up to the next member. -/
def nextMember : List (Option String × Json) → List Token
  | [] => [.openObject]
  | (key, j) :: members => nextMember members ++ .string key :: .colon :: j.words ++ [.comma]

/-- The tokens of the arrays and objects that are not complete. -/
def enclosing : List Enclosure → List Token
  | [] => []
  | .item items :: around => enclosing around ++ nextItem items
  | .member members key :: around => enclosing around ++ nextMember members ++ [.string key, .colon]

/-- The machine is in a state after these tokens. -/
inductive Follows : Reader → List Token → Prop where
  | value (around : List Enclosure) : Follows (.value around) (enclosing around)
  | firstItem (around : List Enclosure) :
      Follows (.firstItem around) (enclosing around ++ [.openArray])
  | afterItem (item : Json) (items : List Json) (around : List Enclosure) :
      Follows (.afterItem (item :: items) around) (enclosing around ++ nextItem items ++ item.words)
  | firstMember (around : List Enclosure) :
      Follows (.firstMember around) (enclosing around ++ [.openObject])
  | name (members : List (Option String × Json)) (around : List Enclosure) :
      Follows (.name members around) (enclosing around ++ nextMember members)
  | colon (members : List (Option String × Json)) (key : Option String) (around : List Enclosure) :
      Follows (.colon members key around) (enclosing around ++ nextMember members ++ [.string key])
  | afterMember (key : Option String) (value : Json) (members : List (Option String × Json))
      (around : List Enclosure) :
      Follows (.afterMember ((key, value) :: members) around)
        (enclosing around ++ nextMember members ++ .string key :: .colon :: value.words)
  | done (value : Json) : Follows (.done value) value.words

/-- The items of an array in order, the last one apart. -/
theorem nextItem_words (items : List Json) (item : Json) :
    nextItem items ++ item.words ++ [.closeArray] = (Json.array (item :: items).reverse).words := by
  -- the first item, which has no comma in front, is the last one of the reversed list
  have hfirst : ∃ first rest, (item :: items).reverse = first :: rest
      ∧ nextItem items ++ item.words = .openArray :: first.words ++ Json.itemWords rest := by
    induction items generalizing item with
    | nil => exact ⟨item, [], by simp [nextItem, Json.itemWords]⟩
    | cons other items ih =>
      obtain ⟨first, rest, hreverse, hwords⟩ := ih other
      refine ⟨first, rest ++ [item], by rw [List.reverse_cons, hreverse]; rfl, ?_⟩
      rw [nextItem, hwords, Json.itemWords_concat]
      simp
  obtain ⟨first, rest, hreverse, hwords⟩ := hfirst
  rw [hwords, hreverse, Json.words]

/-- The members of an object in order, the last one apart. -/
theorem nextMember_words (members : List (Option String × Json)) (key : Option String)
    (value : Json) :
    nextMember members ++ .string key :: .colon :: value.words ++ [.closeObject]
      = (Json.object ((key, value) :: members).reverse).words := by
  have hfirst : ∃ name first rest, ((key, value) :: members).reverse = (name, first) :: rest
      ∧ nextMember members ++ .string key :: .colon :: value.words
        = .openObject :: .string name :: .colon :: first.words ++ Json.memberWords rest := by
    induction members generalizing key value with
    | nil => exact ⟨key, value, [], by simp [nextMember, Json.memberWords]⟩
    | cons other members ih =>
      obtain ⟨name, first, rest, hreverse, hwords⟩ := ih other.1 other.2
      refine ⟨name, first, rest ++ [(key, value)], by rw [List.reverse_cons, hreverse]; rfl, ?_⟩
      rw [nextMember, hwords, Json.memberWords_concat]
      simp
  obtain ⟨name, first, rest, hreverse, hwords⟩ := hfirst
  rw [hwords, hreverse, Json.words]

/-- The machine is in this state after a complete value, whatever encloses it. -/
theorem follows_complete (value : Json) (around : List Enclosure) :
    Follows (complete value around) (enclosing around ++ value.words) := by
  cases around with
  | nil => exact .done value
  | cons e around => cases e with
    | item items => exact .afterItem value items around
    | member members key =>
      have hmember := Follows.afterMember key value members around
      simpa [enclosing, complete] using hmember

variable {r r' : Reader} {tokens : List Token} {t : Token}

/-- A token that is a value, or begins an array or an object. -/
theorem follows_begin? {around : List Enclosure} (h : begin? around t = some r) :
    r.Follows (enclosing around ++ [t]) := by
  cases t with
  | null | bool b | number literal | string text =>
    obtain rfl := Option.some.inj h
    exact follows_complete _ around
  | openArray =>
    obtain rfl := Option.some.inj h
    exact .firstItem around
  | openObject =>
    obtain rfl := Option.some.inj h
    exact .firstMember around
  | _ => exact nomatch h

/-- **One token.** What the machine has read is what came before, and that token. -/
theorem Follows.step? (h : r.Follows tokens) (hstep : r.step? t = some r') :
    r'.Follows (tokens ++ [t]) := by
  cases h with
  | value around => exact follows_begin? hstep
  | firstItem around =>
    -- an empty array, or the first token of an item
    by_cases hclose : t = .closeArray
    · subst hclose
      obtain rfl := Option.some.inj hstep
      rw [List.append_assoc]
      exact follows_complete (.array []) around
    · have hbegin : begin? (.item [] :: around) t = some r' := by
        cases t <;> first | exact hstep | exact absurd rfl hclose
      exact follows_begin? hbegin
  | afterItem item items around =>
    cases t with
    | comma =>
      obtain rfl := Option.some.inj hstep
      have hvalue := Follows.value (.item (item :: items) :: around)
      simpa [enclosing, nextItem] using hvalue
    | closeArray =>
      obtain rfl := Option.some.inj hstep
      have hcomplete := follows_complete (.array (item :: items).reverse) around
      rw [← nextItem_words] at hcomplete
      simpa using hcomplete
    | _ => exact nomatch hstep
  | firstMember around =>
    cases t with
    | closeObject =>
      obtain rfl := Option.some.inj hstep
      rw [List.append_assoc]
      exact follows_complete (.object []) around
    | string key =>
      obtain rfl := Option.some.inj hstep
      exact .colon [] key around
    | _ => exact nomatch hstep
  | name members around =>
    cases t with
    | string key =>
      obtain rfl := Option.some.inj hstep
      exact .colon members key around
    | _ => exact nomatch hstep
  | colon members key around =>
    cases t with
    | colon =>
      obtain rfl := Option.some.inj hstep
      have hvalue := Follows.value (.member members key :: around)
      simpa [enclosing] using hvalue
    | _ => exact nomatch hstep
  | afterMember key value members around =>
    cases t with
    | comma =>
      obtain rfl := Option.some.inj hstep
      have hname := Follows.name ((key, value) :: members) around
      simpa [nextMember] using hname
    | closeObject =>
      obtain rfl := Option.some.inj hstep
      have hcomplete := follows_complete (.object ((key, value) :: members).reverse) around
      rw [← nextMember_words] at hcomplete
      simpa using hcomplete
    | _ => exact nomatch hstep
  | done value => exact nomatch hstep

/-- What holds of one token holds of any tokens. -/
theorem Follows.run? (h : r.Follows tokens) {rest : List Token} (hrun : r.run? rest = some r') :
    r'.Follows (tokens ++ rest) := by
  induction rest generalizing r tokens with
  | nil =>
    obtain rfl := Option.some.inj hrun
    rwa [List.append_nil]
  | cons t rest ih =>
    rw [run?_cons] at hrun
    obtain ⟨next, hstep, hrest⟩ := Option.bind_eq_some_iff.mp hrun
    have hall := ih (h.step? hstep) hrest
    rwa [List.append_assoc] at hall

end Reader

namespace Json

/-- Tokens are read as a value exactly if they are those of the value. -/
theorem ofTokens?_eq_some_iff {tokens : List Token} {value : Json} :
    ofTokens? tokens = some value ↔ tokens = value.words := by
  constructor
  · intro h
    unfold ofTokens? at h
    split at h
    · next result hrun =>
      obtain rfl := Option.some.inj h
      have hfollows := (Reader.Follows.value []).run? hrun
      cases hfollows
      rfl
    · exact nomatch h
  · rintro rfl
    have hrun : value.words.foldlM Reader.step? (.value []) = some (.done value) :=
      Reader.run?_words [] value
    unfold ofTokens?
    rw [hrun]

/-- **Grammar.** A text is read as a value exactly if it spells the value. -/
theorem parse?_eq_some_iff {text : String} {value : Json} :
    parse? text = some value ↔ value.WrittenAs text := by
  constructor
  · intro h
    obtain ⟨tokens, hscan, htokens⟩ := Option.bind_eq_some_iff.mp h
    rw [WrittenAs, ← ofTokens?_eq_some_iff.mp htokens]
    exact Token.spaced_of_scan? hscan
  · intro h
    have hparted := Reader.isChain_of_run? (Reader.run?_words [] value)
    rw [parse?, Token.scan?_of_spaced h hparted, Option.bind_some]
    exact ofTokens?_eq_some_iff.mpr rfl

/-- A number that no double is as large as, half of a surrogate pair, and blanks. -/
example : (array [.number ⟨false, 1, [0], some 999⟩, .string none]).WrittenAs
    " [1.0E+0999\t, \"\\uD800\"]" :=
  Token.spaced_of_scan? (by decide +kernel)

variable {s : Spacing}

/-- **Round trip.** The text of a value is read as that value: strings of any characters, numbers of
    any length, repeated names and any depth. -/
theorem parse?_chars (hs : s.Blank) (value : Json) :
    parse? (String.ofList (value.chars s)) = some value :=
  parse?_eq_some_iff.mpr (writtenAs_chars hs value)

theorem parse?_compact (value : Json) : parse? value.compact = some value :=
  parse?_chars Spacing.blank_compact value

theorem parse?_pretty (value : Json) : parse? value.pretty = some value :=
  parse?_chars Spacing.blank_pretty value

end Json

end LightShow
