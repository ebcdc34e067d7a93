import LightShow.Text.Blank
import LightShow.Text.Search
import Mathlib.Data.List.Infix
import Mathlib.Data.List.TakeWhile

namespace LightShow

/-!
# Where a text is cut

* `cutAt?_append` — a text is cut at a mark that does not overlap itself, whatever follows and
  however far the front goes along with the mark;
* `FirstCut`, `cutAt?_eq_some_iff` — any text is cut at any mark where the mark occurs first;
* `trimBlanks_append`, `exists_trimBlanks` — a text is trimmed to what stands between two characters
  that are not white space, and of nothing but white space.
-/

/-! ### Marks -/

/-- No end of the mark but the whole is also its beginning, so that two occurrences of the mark
    never overlap. -/
def Unbordered (mark : List Char) : Prop :=
  ∀ k < mark.length, 0 < k → mark.drop k ≠ mark.take (mark.length - k)

instance (mark : List Char) : Decidable (Unbordered mark) :=
  inferInstanceAs (Decidable (∀ k < mark.length, 0 < k → _))

/-- A mark does not occur across its own beginning: neither in the front alone nor with its end in
    the mark behind the front. -/
theorem not_prefix_append {mark front rest : List Char} (hmark : Unbordered mark) (hne : front ≠ [])
    (hfront : ¬ mark <:+: front) : ¬ mark <+: front ++ (mark ++ rest) := by
  intro h
  rcases Nat.lt_or_ge front.length mark.length with hlt | hge
  · -- the mark goes on over the end of the front, and its end is the beginning of the mark
    have hsplit : front <+: mark := List.prefix_of_prefix_length_le (List.prefix_append _ _) h
      (Nat.le_of_lt hlt)
    obtain ⟨suffix, hsuffix⟩ := hsplit
    have hlength : front.length + suffix.length = mark.length := by
      rw [← hsuffix, List.length_append]
    have hover : suffix <+: mark := by
      have hcancel : front ++ suffix <+: front ++ (mark ++ rest) := hsuffix.symm ▸ h
      exact List.prefix_of_prefix_length_le ((List.prefix_append_right_inj front).mp hcancel)
        (List.prefix_append mark rest) (by omega)
    have hdrop : mark.drop front.length = suffix := by
      rw [← hsuffix, List.drop_left]
    have htake : mark.take (mark.length - front.length) = suffix := by
      rw [show mark.length - front.length = suffix.length by omega]
      exact (List.prefix_iff_eq_take.mp hover).symm
    have hpositive : 0 < front.length := List.length_pos_iff.mpr hne
    exact hmark front.length hlt hpositive (hdrop.trans htake.symm)
  · exact hfront (List.prefix_of_prefix_length_le h (List.prefix_append _ _) hge).isInfix

/-- **First occurrence.** A text is cut at the mark that was put into it, if the mark does not occur
    in front of that. -/
theorem cutAt?_append {mark front rest : List Char} (hmark : Unbordered mark) (hne : mark ≠ [])
    (hfront : ¬ mark <:+: front) : cutAt? mark (front ++ (mark ++ rest)) = some (front, rest) := by
  suffices h : ∀ passed, cutAtFrom? mark passed (front ++ (mark ++ rest))
      = some (passed.reverse ++ front, rest) from h []
  -- by the front, with what has been passed growing by one character at a time
  induction front with
  | nil =>
    intro passed
    obtain ⟨c, cs, rfl⟩ := List.exists_cons_of_ne_nil hne
    have hhere : (c :: cs).isPrefixOf (c :: cs ++ rest) = true :=
      List.isPrefixOf_iff_prefix.mpr (List.prefix_append _ _)
    rw [List.nil_append, List.cons_append, cutAtFrom?, ← List.cons_append, if_pos hhere,
      List.drop_left, List.append_nil]
  | cons c front ih =>
    intro passed
    have hhere : ¬ mark.isPrefixOf (c :: front ++ (mark ++ rest)) = true := fun h =>
      not_prefix_append hmark (List.cons_ne_nil c front) hfront (List.isPrefixOf_iff_prefix.mp h)
    have hrest : ¬ mark <:+: front := fun h => hfront (h.trans (List.suffix_cons c front).isInfix)
    rw [List.cons_append, cutAtFrom?, ← List.cons_append, if_neg hhere, ih hrest (c :: passed),
      List.reverse_cons, List.append_assoc]
    rfl

/-! ### The first occurrence -/

/-- What has been passed stands in front of what is still to be cut. -/
theorem cutAtFrom?_eq_map (mark passed text : List Char) :
    cutAtFrom? mark passed text
      = (cutAt? mark text).map fun parts => (passed.reverse ++ parts.1, parts.2) := by
  unfold cutAt?
  -- by the text, with one more character passed on both sides
  induction text generalizing passed with
  | nil =>
    unfold cutAtFrom?
    split <;> simp
  | cons c rest ih =>
    unfold cutAtFrom?
    split
    · simp
    · rw [ih (c :: passed), ih [c], Option.map_map]
      congr 1
      funext parts
      simp

/-- A mark at the beginning of a text is found there, and else in the rest of it. -/
theorem cutAt?_cons (mark : List Char) (c : Char) (rest : List Char) :
    cutAt? mark (c :: rest)
      = if mark.isPrefixOf (c :: rest) then some ([], (c :: rest).drop mark.length)
        else (cutAt? mark rest).map fun parts => (c :: parts.1, parts.2) := by
  conv => lhs; rw [cutAt?, cutAtFrom?]
  rw [cutAtFrom?_eq_map mark [c] rest]
  rfl

/-- The first occurrence of a mark in a text: no shorter part of the text stands in front of one. -/
structure FirstCut (mark text before after : List Char) : Prop where
  eq : text = before ++ (mark ++ after)
  length_le : ∀ before' after', text = before' ++ (mark ++ after') →
    before.length ≤ before'.length

/-- A text has one first occurrence of a mark. -/
theorem FirstCut.unique {mark text before after before' after' : List Char}
    (h : FirstCut mark text before after) (h' : FirstCut mark text before' after') :
    before = before' ∧ after = after' := by
  have hlength : before.length = before'.length :=
    Nat.le_antisymm (h.length_le _ _ h'.eq) (h'.length_le _ _ h.eq)
  obtain ⟨hbefore, hrest⟩ := List.append_inj (h.eq.symm.trans h'.eq) hlength
  exact ⟨hbefore, List.append_cancel_left hrest⟩

/-- A mark is not found in a text in which it does not occur, and only there. -/
theorem cutAt?_eq_none_iff {mark text : List Char} :
    cutAt? mark text = none ↔ ¬ mark <:+: text := by
  induction text with
  | nil => simp [cutAt?, cutAtFrom?]
  | cons c rest ih =>
    rw [cutAt?_cons, List.infix_cons_iff, not_or, ← ih, ← List.isPrefixOf_iff_prefix]
    split
    · next hhere => simp [hhere]
    · next hhere => simp [hhere]

/-- What is cut in front of a mark is no longer than what stands in front of any occurrence. -/
theorem length_le_of_cutAt? {mark text before after : List Char}
    (h : cutAt? mark text = some (before, after)) {before' after' : List Char}
    (htext : text = before' ++ (mark ++ after')) : before.length ≤ before'.length := by
  -- by the text: the mark begins here for both, or for neither of them
  induction text generalizing before before' with
  | nil =>
    have hempty : mark = [] ∧ before = [] ∧ after = [] := by simpa [cutAt?, cutAtFrom?] using h
    rw [hempty.2.1]
    exact Nat.zero_le _
  | cons c rest ih =>
    rw [cutAt?_cons] at h
    split at h
    · obtain ⟨rfl, -⟩ := Prod.mk.inj (Option.some.inj h)
      exact Nat.zero_le _
    · next hhere =>
      obtain ⟨parts, hparts, heq⟩ := Option.map_eq_some_iff.mp h
      obtain ⟨rfl, rfl⟩ := Prod.mk.inj heq
      cases before' with
      | nil =>
        have hbegins : mark <+: c :: rest := ⟨after', htext.symm⟩
        exact absurd (List.isPrefixOf_iff_prefix.mpr hbegins) hhere
      | cons d before' =>
        exact Nat.succ_le_succ (ih hparts (List.cons.inj htext).2)

/-- **Search.** A text is cut at a mark where the mark occurs first. -/
theorem cutAt?_eq_some_iff {mark text before after : List Char} :
    cutAt? mark text = some (before, after) ↔ FirstCut mark text before after := by
  have hfound : ∀ {before after}, cutAt? mark text = some (before, after) →
      FirstCut mark text before after := fun h =>
    ⟨(eq_of_cutAtFrom? h).trans (List.append_assoc ..), fun _ _ => length_le_of_cutAt? h⟩
  refine ⟨hfound, fun h => ?_⟩
  cases hcut : cutAt? mark text with
  | none =>
    have hoccurs : mark <:+: text := ⟨before, after, by rw [h.eq, List.append_assoc]⟩
    exact absurd hoccurs (cutAt?_eq_none_iff.mp hcut)
  | some parts =>
    obtain ⟨rfl, rfl⟩ := h.unique (hfound hcut)
    rfl

/-! ### White space -/

/-- White space in front of another character is passed over. -/
theorem dropWhile_isBlank_append {front text : List Char} {c : Char}
    (hfront : front.all isBlank = true) (hhead : text.head? = some c) (hc : isBlank c = false) :
    (front ++ text).dropWhile isBlank = text := by
  obtain ⟨rest, rfl⟩ := List.head?_eq_some_iff.mp hhead
  rw [List.dropWhile_append_of_pos (List.all_eq_true.mp hfront),
    List.dropWhile_cons_of_neg (by simpa using hc)]

/-- A text that begins and ends with other characters is all that is left of it between white
    space. -/
theorem trimBlanks_append {front text back : List Char} {c d : Char}
    (hfront : front.all isBlank = true) (hback : back.all isBlank = true)
    (hhead : text.head? = some c) (hc : isBlank c = false)
    (hlast : text.getLast? = some d) (hd : isBlank d = false) :
    trimBlanks (front ++ (text ++ back)) = text := by
  have hhead' : (text ++ back).head? = some c := by
    rw [List.head?_append, hhead]
    rfl
  have hlast' : text.reverse.head? = some d := by rwa [List.head?_reverse]
  have hback' : back.reverse.all isBlank = true := by rwa [List.all_reverse]
  unfold trimBlanks
  rw [dropWhile_isBlank_append hfront hhead' hc, List.reverse_append,
    dropWhile_isBlank_append hback' hlast' hd, List.reverse_reverse]

/-- Nothing but white space is taken off a text. -/
theorem exists_trimBlanks (text : List Char) : ∃ front back : List Char,
    text = front ++ (trimBlanks text ++ back) ∧ front.all isBlank = true
      ∧ back.all isBlank = true := by
  have hall : ∀ text : List Char, (text.takeWhile isBlank).all isBlank = true := fun _ =>
    List.all_eq_true.mpr fun _ => List.mem_takeWhile_imp
  refine ⟨text.takeWhile isBlank, ((text.dropWhile isBlank).reverse.takeWhile isBlank).reverse, ?_,
    hall _, by rw [List.all_reverse, hall]⟩
  unfold trimBlanks
  rw [← List.reverse_append, List.takeWhile_append_dropWhile, List.reverse_reverse,
    List.takeWhile_append_dropWhile]

end LightShow
