namespace LightShow

/-!
# The first occurrence of a mark

* `cutAt?` — what stands before and after the first occurrence of a mark in a text.
-/

/-- Looks for a mark from here on; `passed` holds the characters already passed, the last one
    first. -/
def cutAtFrom? (mark passed : List Char) : List Char → Option (List Char × List Char)
  | [] => if mark.isEmpty then some (passed.reverse, []) else none
  | c :: rest =>
    if mark.isPrefixOf (c :: rest) then some (passed.reverse, (c :: rest).drop mark.length)
    else cutAtFrom? mark (c :: passed) rest

/-- The parts of a text before and after the first occurrence of a mark. -/
def cutAt? (mark text : List Char) : Option (List Char × List Char) := cutAtFrom? mark [] text

/-- An occurrence is found with exactly the mark between the two parts. -/
theorem eq_of_cutAtFrom? {mark passed text before after : List Char}
    (h : cutAtFrom? mark passed text = some (before, after)) :
    passed.reverse ++ text = before ++ mark ++ after := by
  fun_induction cutAtFrom? mark passed text with
  | case1 passed hm => simp_all
  | case2 => simp at h
  | case3 passed c rest hp =>
    obtain ⟨t, ht⟩ := List.isPrefixOf_iff_prefix.mp hp
    simp only [Option.some.injEq, Prod.mk.injEq] at h
    rw [← h.1, ← h.2, ← ht]; simp
  | case4 passed c rest _ ih => simpa using ih h

end LightShow
