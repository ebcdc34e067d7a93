import LightShow.Proofs.Project.RoundTrip
import LightShow.Proofs.Text
import LightShow.Show.Artifact

namespace LightShow

/-!
# Texts with and without a project

* `Encloses`, `EnclosesFirst` — a text with a block between the two marks of an artifact, and the
  first such block;
* `savedBlock?_eq_some_iff`, `savedBlock?_eq_none_iff` — the first block is found, and a text in
  which none is found has none;
* `Project.ofArtifact_classified` — what comes of a text, for all texts.

The search is for the first opening mark and then for the first closing mark behind it, without a
way back. It misses nothing: behind the first opening mark stand all closing marks that stand behind
any other one.
-/

/-! ### Blocks -/

/-- A text with a block between an opening and a closing mark. -/
def Encloses (text before block after : List Char) : Prop :=
  text = before ++ (saveStart ++ (block ++ (saveEnd ++ after)))

/-- A block of which first the part in front and then the block itself is as short as can be. -/
structure EnclosesFirst (text before block after : List Char) : Prop where
  encloses : Encloses text before block after
  before_le : ∀ before' block' after', Encloses text before' block' after' →
    before.length ≤ before'.length
  block_le : ∀ block' after', Encloses text before block' after' → block.length ≤ block'.length

/-- A text has one first block. -/
theorem EnclosesFirst.block_unique {text before block after before' block' after' : List Char}
    (h : EnclosesFirst text before block after) (h' : EnclosesFirst text before' block' after') :
    block = block' := by
  have hfront : before.length = before'.length :=
    Nat.le_antisymm (h.before_le _ _ _ h'.encloses) (h'.before_le _ _ _ h.encloses)
  obtain ⟨rfl, hrest⟩ := List.append_inj (h.encloses.symm.trans h'.encloses) hfront
  have hlength : block.length = block'.length :=
    Nat.le_antisymm (h.block_le _ _ h'.encloses) (h'.block_le _ _ h.encloses)
  exact (List.append_inj (List.append_cancel_left hrest) hlength).1

/-- The first block stands between the first opening mark and the first closing mark behind it. -/
theorem FirstCut.enclosesFirst {text before rest block after : List Char}
    (hstart : FirstCut saveStart text before rest) (hend : FirstCut saveEnd rest block after) :
    EnclosesFirst text before block after where
  encloses := by rw [Encloses, hstart.eq, hend.eq]
  before_le before' block' after' hother := hstart.length_le _ _ hother
  block_le block' after' hother := by
    have hrest : rest = block' ++ (saveEnd ++ after') :=
      List.append_cancel_left (List.append_cancel_left (hstart.eq.symm.trans hother))
    exact hend.length_le _ _ hrest

/-- The block that is found is the first one. -/
theorem exists_enclosesFirst {text block : List Char} (h : savedBlock? text = some block) :
    ∃ before after, EnclosesFirst text before block after := by
  obtain ⟨⟨before, rest⟩, houter, hinner⟩ := Option.bind_eq_some_iff.mp h
  obtain ⟨⟨block', after⟩, hcut, rfl⟩ := Option.map_eq_some_iff.mp hinner
  have hstart : FirstCut saveStart text before rest := cutAt?_eq_some_iff.mp houter
  have hend : FirstCut saveEnd rest block' after := cutAt?_eq_some_iff.mp hcut
  exact ⟨before, after, hstart.enclosesFirst hend⟩

/-- A text in which no block is found has none. -/
theorem savedBlock?_eq_none_iff {text : List Char} :
    savedBlock? text = none ↔ ¬ ∃ before block after, Encloses text before block after := by
  refine ⟨?_, fun hnone => ?_⟩
  · rintro h ⟨before, block, after, henclosed⟩
    have hoccurs : saveStart <:+: text :=
      ⟨before, block ++ (saveEnd ++ after), by rw [henclosed, List.append_assoc]⟩
    cases hcut : cutAt? saveStart text with
    | none => exact cutAt?_eq_none_iff.mp hcut hoccurs
    | some parts =>
      have hstart : FirstCut saveStart text parts.1 parts.2 := cutAt?_eq_some_iff.mp hcut
      -- the first opening mark is no later than this one, so that the closing mark stands behind it
      have hfront : parts.1.length ≤ before.length := hstart.length_le _ _ henclosed
      have hrest : block ++ (saveEnd ++ after) <:+ parts.2 := by
        have hthis : block ++ (saveEnd ++ after) <:+ text :=
          ⟨before ++ saveStart, by rw [henclosed, List.append_assoc]⟩
        have hfirst : parts.2 <:+ text :=
          ⟨parts.1 ++ saveStart, by rw [hstart.eq, List.append_assoc]⟩
        have hlength : (block ++ (saveEnd ++ after)).length ≤ parts.2.length := by
          have heq := congrArg List.length (henclosed.symm.trans hstart.eq)
          simp only [List.length_append] at heq ⊢
          omega
        exact List.suffix_of_suffix_length_le hthis hfirst hlength
      have hclosed : saveEnd <:+: parts.2 := by
        have hmark : saveEnd <:+: block ++ (saveEnd ++ after) :=
          ⟨block, after, List.append_assoc ..⟩
        exact hmark.trans hrest.isInfix
      have hend : cutAt? saveEnd parts.2 = none := by
        rw [savedBlock?, hcut, Option.bind_some, Option.map_eq_none_iff] at h
        exact h
      exact cutAt?_eq_none_iff.mp hend hclosed
  · cases hblock : savedBlock? text with
    | none => rfl
    | some block =>
      obtain ⟨before, after, hfirst⟩ := exists_enclosesFirst hblock
      exact absurd ⟨before, block, after, hfirst.encloses⟩ hnone

/-- The first block is found. -/
theorem savedBlock?_eq_some_iff {text block : List Char} :
    savedBlock? text = some block ↔ ∃ before after, EnclosesFirst text before block after := by
  refine ⟨exists_enclosesFirst, ?_⟩
  rintro ⟨before, after, hfirst⟩
  cases hblock : savedBlock? text with
  | none => exact absurd ⟨before, block, after, hfirst.encloses⟩ (savedBlock?_eq_none_iff.mp hblock)
  | some found =>
    obtain ⟨before', after', hfound⟩ := exists_enclosesFirst hblock
    rw [hfound.block_unique hfirst]

/-! ### Projects -/

namespace Project

/-- A text is read as a project or refused as a document. -/
theorem parse_cases (text : String) :
    (∃ p, parse text = .ok p) ∨ ∃ detail, parse text = .error (.malformed detail) := by
  unfold parse
  split
  · next p _ => exact .inl ⟨p, rfl⟩
  · exact .inr ⟨_, rfl⟩

/-- The first block is read as a project, without the white space around it. -/
theorem ofArtifact_eq_parse {text : String} {before block after : List Char}
    (h : EnclosesFirst text.toList before block after) :
    ofArtifact text = parse (String.ofList (trimBlanks block)) := by
  unfold ofArtifact
  rw [savedBlock?_eq_some_iff.mpr ⟨before, after, h⟩]

/-- There is no project in a text without a block. -/
theorem ofArtifact_eq_noProject_iff (text : String) :
    ofArtifact text = .error .noProject
      ↔ ¬ ∃ before block after, Encloses text.toList before block after := by
  rw [← savedBlock?_eq_none_iff]
  cases hblock : savedBlock? text.toList with
  | none => simp [ofArtifact, hblock]
  | some block =>
    obtain ⟨before, after, hfirst⟩ := exists_enclosesFirst hblock
    rw [ofArtifact_eq_parse hfirst]
    rcases parse_cases (String.ofList (trimBlanks block)) with ⟨p, hp⟩ | ⟨detail, hdetail⟩
    · simp [hp]
    · simp [hdetail]

/-- **Recovery.** A text is said to hold no project exactly if it has no block between an opening
    and a closing mark. Else there is a first block, and the project comes from that: it is taken if
    the block is read as a project without the white space around it, and the text is refused as a
    malformed document if not. -/
theorem ofArtifact_classified (text : String) :
    (ofArtifact text = .error .noProject
      ↔ ¬ ∃ before block after, Encloses text.toList before block after)
    ∧ ((∃ before block after, Encloses text.toList before block after) →
      ∃ before block after, EnclosesFirst text.toList before block after)
    ∧ ∀ before block after, EnclosesFirst text.toList before block after →
      (∀ p, parse (String.ofList (trimBlanks block)) = .ok p → ofArtifact text = .ok p)
      ∧ ((∀ p, parse (String.ofList (trimBlanks block)) ≠ .ok p) →
        ∃ detail, ofArtifact text = .error (.malformed detail)) := by
  refine ⟨ofArtifact_eq_noProject_iff text, fun henclosed => ?_,
    fun before block after hfirst => ?_⟩
  · have hsome : savedBlock? text.toList ≠ none := fun hnone =>
      savedBlock?_eq_none_iff.mp hnone henclosed
    obtain ⟨block, hblock⟩ := Option.ne_none_iff_exists'.mp hsome
    obtain ⟨before, after, hfirst⟩ := exists_enclosesFirst hblock
    exact ⟨before, block, after, hfirst⟩
  · -- from here on, only the first block counts
    rw [ofArtifact_eq_parse hfirst]
    refine ⟨fun p hp => hp, fun hrefused => ?_⟩
    rcases parse_cases (String.ofList (trimBlanks block)) with ⟨p, hp⟩ | hmalformed
    · exact absurd hp (hrefused p)
    · exact hmalformed

/-- A project of nothing. -/
def silence : Project := ⟨[], [], 0, ""⟩

/-- The text of a project of nothing between white space. -/
def silentBlock : List Char := '\u2003' :: (silence.toJson.chars .compact ++ ['\n'])

/-- A closing mark in front of two blocks. -/
def encore : String :=
  String.ofList (saveEnd ++ (saveStart ++ (silentBlock ++ (saveEnd
    ++ (saveStart ++ '[' :: ']' :: saveEnd)))))

/-- An opening mark in front of a block. -/
def nested : String :=
  String.ofList (saveStart ++ (saveStart ++ (silentBlock ++ (saveEnd ++ saveEnd))))

/-- The first of two blocks counts, and the first of two opening marks: what follows the second one
    is not tried. -/
theorem ofArtifact_encore :
    EnclosesFirst encore.toList saveEnd silentBlock (saveStart ++ '[' :: ']' :: saveEnd)
    ∧ ofArtifact encore = .ok silence
    ∧ EnclosesFirst nested.toList [] (saveStart ++ silentBlock) saveEnd
    ∧ ∃ detail, ofArtifact nested = .error (.malformed detail) := by
  have hencore : EnclosesFirst encore.toList saveEnd silentBlock
      (saveStart ++ '[' :: ']' :: saveEnd) := by
    have hstart : cutAt? saveStart encore.toList
        = some (saveEnd, silentBlock ++ (saveEnd ++ (saveStart ++ '[' :: ']' :: saveEnd))) := by
      rw [encore, String.toList_ofList]
      decide +kernel
    have hend : cutAt? saveEnd (silentBlock ++ (saveEnd ++ (saveStart ++ '[' :: ']' :: saveEnd)))
        = some (silentBlock, saveStart ++ '[' :: ']' :: saveEnd) := by
      decide +kernel
    exact (cutAt?_eq_some_iff.mp hstart).enclosesFirst (cutAt?_eq_some_iff.mp hend)
  have hnested : EnclosesFirst nested.toList [] (saveStart ++ silentBlock) saveEnd := by
    have hstart : cutAt? saveStart nested.toList
        = some ([], saveStart ++ (silentBlock ++ (saveEnd ++ saveEnd))) := by
      rw [nested, String.toList_ofList]
      decide +kernel
    have hend : cutAt? saveEnd (saveStart ++ (silentBlock ++ (saveEnd ++ saveEnd)))
        = some (saveStart ++ silentBlock, saveEnd) := by
      decide +kernel
    exact (cutAt?_eq_some_iff.mp hstart).enclosesFirst (cutAt?_eq_some_iff.mp hend)
  have hread : parse (String.ofList (trimBlanks silentBlock)) = .ok silence := by
    have htrim : trimBlanks silentBlock = silence.toJson.chars .compact := by decide +kernel
    rw [htrim]
    have hfinite : silence.HasFiniteFloats := fun _ hc => absurd hc List.not_mem_nil
    exact (parse_eq_ok_iff (Json.parse?_compact silence.toJson)).mpr hfinite
  -- an opening mark inside of the block is no part of a project
  have hrefused : ∀ p, parse (String.ofList (trimBlanks (saveStart ++ silentBlock))) ≠ .ok p := by
    have hnone : (Json.parse? (String.ofList (trimBlanks (saveStart ++ silentBlock)))).isNone := by
      decide +kernel
    intro p hp
    rw [parse, Option.isNone_iff_eq_none.mp hnone] at hp
    exact nomatch hp
  exact ⟨hencore, ((ofArtifact_classified encore).2.2 _ _ _ hencore).1 silence hread, hnested,
    ((ofArtifact_classified nested).2.2 _ _ _ hnested).2 hrefused⟩

end Project

end LightShow
