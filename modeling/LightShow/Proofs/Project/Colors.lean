import LightShow.Proofs.Color.Grammar
import LightShow.Proofs.Project.Fields

namespace LightShow

/-!
# Colors, alone and in projects

* `ColorEdit` — another value for one color of a cue;
* `Color.ofHex_grammar` — which texts are colors, as which colors they are read, and what comes of
  the other ones.
-/

open Json

/-- A project in which the color of a cue, or its second color, has another value. -/
inductive ColorEdit (new : Json) (j j' : Json) : Prop where
  | main (h : FieldEdit Project.fieldNames "cues"
      (ItemEdit (FieldEdit Cue.fieldNames "color" (Put new))) j j')
  | second (h : FieldEdit Project.fieldNames "cues"
      (ItemEdit (FieldEdit Cue.fieldNames "secondaryColor" (Put new))) j j')

/-- A project in which one color has another text is read if the text spells a color. -/
theorem hingesOn_colorEdit (s : String) :
    HingesOn Project.ofJson? (ColorEdit (.text s)) (∃ digits, Color.Spells s digits) := by
  have hcolor : (Color.ofJson? (.text s)).isSome = true ↔ ∃ digits, Color.Spells s digits :=
    Color.isSome_ofHex?_iff s
  rintro j j' hj (hedit | hedit)
  · refine Project.hingesOn_cueField (by decide) rfl ?_ j j' hj hedit
    rintro a a' - rfl
    exact hcolor
  · refine Project.hingesOn_cueField (by decide) rfl ?_ j j' hj hedit
    rintro a a' - rfl
    -- a text is not the null that stands for no color
    rw [← hcolor]
    show ((Color.ofJson? (.text s)).map some).isSome = true ↔ _
    rw [Option.isSome_map]

namespace Color

/-- **Colors.** A text is read as a color exactly if it spells one: white space, at most one number
    sign, six hexadecimal digits, white space. The color is written as these digits in lower case;
    so every color is read from the text that is written for it, and the case of the digits does not
    count. A text that spells no color is refused as such, and in the place of a color of a project
    it makes the project a malformed document, while a text that spells one leaves it a project. -/
theorem ofHex_grammar (s : String) :
    ((∃ c, ofHex s = .ok c) ↔ ∃ digits, Spells s digits)
    ∧ (∀ c digits, ofHex s = .ok c → Spells s digits →
      c.hex = String.ofList ('#' :: digits.map Char.toLower))
    ∧ (∀ c : Color, ofHex c.hex = .ok c)
    ∧ (∀ s' digits digits', Spells s digits → Spells s' digits' →
      digits.map Char.toLower = digits'.map Char.toLower → ofHex s' = ofHex s)
    ∧ ((¬ ∃ digits, Spells s digits) → ofHex s = .error (.invalid (.badColor s)))
    ∧ ∀ (text text' : String) (p : Project) (j j' : Json), Project.parse text = .ok p →
      j.WrittenAs text → ColorEdit (.text s) j j' → j'.WrittenAs text' →
      ((∃ digits, Spells s digits) → ∃ p', Project.parse text' = .ok p')
      ∧ ((¬ ∃ digits, Spells s digits) →
        ∃ detail, Project.parse text' = .error (.malformed detail)) := by
  -- what spells a color is read, and the color has the digits in lower case
  have hread : ∀ {s digits}, Spells s digits →
      ∃ c, ofHex s = .ok c ∧ c.hexDigits = digits.map Char.toLower := by
    intro s digits hspells
    obtain ⟨c, hc, hdigits⟩ := hspells.exists_ofHex?
    exact ⟨c, ofHex_eq_ok_iff.mpr hc, hdigits⟩
  refine ⟨⟨?_, fun ⟨digits, hspells⟩ => ?_⟩, fun c digits hc hspells => ?_,
    fun c => ofHex_eq_ok_iff.mpr (ofHex?_hex c),
    fun s' digits digits' hspells hspells' hcase => ?_, fun hnone => ?_,
    fun text text' p j j' hp hj hedit hj' =>
      Project.parse_of_hingesOn (hingesOn_colorEdit s) hp hj hedit hj'⟩
  · rintro ⟨c, hc⟩
    exact (isSome_ofHex?_iff s).mp (Option.isSome_of_eq_some (ofHex_eq_ok_iff.mp hc))
  · obtain ⟨c, hc, -⟩ := hread hspells
    exact ⟨c, hc⟩
  · obtain ⟨c', hc', hdigits⟩ := hread hspells
    rw [hex, Except.ok.inj (hc.symm.trans hc'), hdigits]
  · obtain ⟨c, hc, hdigits⟩ := hread hspells
    obtain ⟨c', hc', hdigits'⟩ := hread hspells'
    rw [hc, hc', hexDigits_injective (hdigits'.trans (hcase.symm.trans hdigits.symm))]
  · rw [← isSome_ofHex?_iff, Option.not_isSome_iff_eq_none] at hnone
    rw [ofHex, hnone]

/-- The members of the flash with another value for its color. -/
def flashOf (color : Json) : List (Option String × Json) :=
  Project.flashMembers.set 5 (some "color", color)

/-- A color between wide blanks, with digits of either case, and a plus sign in front of five
    digits, which makes no number here. -/
theorem ofHex_grammar_blanks :
    (∃ c, ofHex "\u2003#Ff80A0\u3000" = .ok c ∧ c.hex = "#ff80a0")
    ∧ (∃ p, Project.parse (Json.object (Project.sceneMembers Project.capeMembers
      (flashOf (.text "\u2003#Ff80A0\u3000")))).compact = .ok p)
    ∧ ofHex "#+f80a0" = .error (.invalid (.badColor "#+f80a0"))
    ∧ ∃ detail, Project.parse (Json.object (Project.sceneMembers Project.capeMembers
      (flashOf (.text "#+f80a0")))).compact = .error (.malformed detail) := by
  have hdigits : Spells "\u2003#Ff80A0\u3000" ['F', 'f', '8', '0', 'A', '0'] :=
    ⟨⟨['\u2003'], ['#'], ['\u3000'], by decide +kernel, by decide, by decide, by decide⟩, rfl,
      by simp [hexAlphabet]⟩
  have hnone : ¬ ∃ digits, Spells "#+f80a0" digits := by decide +kernel
  have hedit : ∀ color, ColorEdit color
      (.object (Project.sceneMembers Project.capeMembers Project.flashMembers))
      (.object (Project.sceneMembers Project.capeMembers (flashOf color))) := fun color =>
    .main (.member [_] _ (.item [] [] (.member (Project.flashMembers.take 5) _ rfl)))
  obtain ⟨hok, hhex, -, -, -, hproject⟩ := ofHex_grammar "\u2003#Ff80A0\u3000"
  obtain ⟨-, -, -, -, hbad, hrefused⟩ := ofHex_grammar "#+f80a0"
  obtain ⟨c, hc⟩ := hok.mpr ⟨_, hdigits⟩
  refine ⟨⟨c, hc, ?_⟩, ?_, hbad hnone, ?_⟩
  · rw [hhex c _ hc hdigits]
    decide +kernel
  · exact (hproject _ _ _ _ _ Project.parse_scene (writtenAs_compact _) (hedit _)
      (writtenAs_compact _)).1 ⟨_, hdigits⟩
  · exact (hrefused _ _ _ _ _ Project.parse_scene (writtenAs_compact _) (hedit _)
      (writtenAs_compact _)).2 hnone

end Color

end LightShow
