import LightShow.Proofs.Artifact.Comment
import LightShow.Proofs.Project.Json
import LightShow.Proofs.Text

namespace LightShow

/-!
# The project of an artifact

* `Project.parse_savedProject` — the guarded text of a project is read as that project;
* `Show.exists_artifactChars` — the three parts of an artifact around its two marks;
* `Project.ofArtifact_artifact` — the project that is taken out of an artifact is the one that was
  put into it, whatever its strings hold and whatever stands around the artifact.
-/

/-! ### The text between the marks -/

/-- A guarded text is read as the text. -/
theorem Json.parse?_guardComment (text : List Char) :
    Json.parse? (String.ofList (guardComment text)) = Json.parse? (String.ofList text) := by
  unfold Json.parse?
  rw [String.toList_ofList, String.toList_ofList, Token.scan?_guardComment]

/-- The guarded text of a project is read as that project. -/
theorem Project.parse_savedProject {s : Show} (h : s.project.HasFiniteFloats) :
    Project.parse (String.ofList s.savedProject) = .ok s.project := by
  unfold Project.parse Show.savedProject
  rw [Json.parse?_guardComment, Json.parse?_chars Spacing.blank_compact, Option.bind_some,
    Project.ofJson?_toJson h]

/-- The text of an object begins with its opening bracket. -/
theorem Json.head?_chars_object (spacing : Spacing) (members : List (Option String × Json)) :
    ((Json.object members).chars spacing).head? = some '\x7b' := by
  unfold Json.chars
  cases members <;> rfl

/-- The text of an object ends with its closing bracket. -/
theorem Json.getLast?_chars_object (spacing : Spacing) (members : List (Option String × Json)) :
    ((Json.object members).chars spacing).getLast? = some '\x7d' := by
  unfold Json.chars
  cases members with
  | nil => rfl
  | cons member members =>
    rw [Json.laidOut, List.flatMap_append, List.flatMap_singleton, List.getLast?_append,
      List.getLast?_append]
    rfl

/-- The saved project begins with its opening bracket. -/
theorem Show.head?_savedProject (s : Show) : s.savedProject.head? = some '\x7b' := by
  rw [savedProject, head?_guardComment, Project.toJson, Json.record, Json.head?_chars_object]

/-- The saved project ends with its closing bracket. -/
theorem Show.getLast?_savedProject (s : Show) : s.savedProject.getLast? = some '\x7d' := by
  rw [savedProject, getLast?_guardComment, Project.toJson, Json.record, Json.getLast?_chars_object]

/-! ### The marks -/

theorem unbordered_saveStart : Unbordered saveStart := by decide

theorem unbordered_saveEnd : Unbordered saveEnd := by decide

/-- The closing mark does not occur in a guarded text on a line of its own: it would close the
    comment. -/
theorem not_infix_savedLine (text : List Char) :
    ¬ saveEnd <:+: '\n' :: (guardComment text ++ ['\n']) := by
  have hchain : ('\n' :: (guardComment text ++ ['\n'])).IsChain Apart :=
    isChain_apart_lines .nil (isChain_apart_lines (isChain_guardComment text) .nil)
  -- the closing mark ends in the end of a comment, which the line does not hold
  have hclose : ['*', '/'] <:+: saveEnd := by decide
  exact fun h => not_infix_of_isChain hchain (hclose.trans h)

/-- The parts of an artifact around its two marks. -/
theorem Show.exists_artifactChars (s : Show) : ∃ table, s.artifactChars
    = saveStart ++ ('\n' :: (s.savedProject ++ ['\n']) ++ (saveEnd ++ table)) := by
  unfold Show.artifactChars
  simp only [List.append_assoc, List.cons_append, List.nil_append]
  exact ⟨_, rfl⟩

/-- White space around the saved project is all that stands between the marks beside it. -/
theorem trimBlanks_savedLine (s : Show) :
    trimBlanks ('\n' :: (s.savedProject ++ ['\n'])) = s.savedProject := by
  have hblank : ['\n'].all isBlank = true := by decide
  have hopen : isBlank '\x7b' = false := by decide
  have hclose : isBlank '\x7d' = false := by decide
  have htrim := trimBlanks_append hblank hblank s.head?_savedProject hopen s.getLast?_savedProject
    hclose
  rwa [List.singleton_append] at htrim

/-- **Round trip.** A project of finite floats is taken out of an artifact as it was put into it: the
    strings of the project, the text in front of the artifact, in which the opening mark does not
    occur, and the text behind it do not matter. -/
theorem Project.ofArtifact_artifact {s : Show} (hfinite : s.project.HasFiniteFloats)
    {before : String} (hbefore : ¬ saveStart <:+: before.toList) (after : String) :
    Project.ofArtifact (before ++ s.artifact ++ after) = .ok s.project := by
  obtain ⟨table, htable⟩ := s.exists_artifactChars
  have hchars : (before ++ s.artifact ++ after).toList = before.toList ++ (saveStart
      ++ ('\n' :: (s.savedProject ++ ['\n']) ++ (saveEnd ++ (table ++ after.toList)))) := by
    rw [String.toList_append, String.toList_append, Show.artifact, String.toList_ofList, htable]
    simp only [List.append_assoc, List.cons_append]
  -- the opening mark is the one of the artifact, and the first closing mark behind it is too
  have houter : cutAt? saveStart (before ++ s.artifact ++ after).toList = some (before.toList,
      '\n' :: (s.savedProject ++ ['\n']) ++ (saveEnd ++ (table ++ after.toList))) := by
    rw [hchars]
    exact cutAt?_append unbordered_saveStart (by decide) hbefore
  have hinner : cutAt? saveEnd
      ('\n' :: (s.savedProject ++ ['\n']) ++ (saveEnd ++ (table ++ after.toList)))
        = some ('\n' :: (s.savedProject ++ ['\n']), table ++ after.toList) :=
    cutAt?_append unbordered_saveEnd (by decide) (not_infix_savedLine _)
  have hblock : savedBlock? (before ++ s.artifact ++ after).toList
      = some ('\n' :: (s.savedProject ++ ['\n'])) := by
    unfold savedBlock?
    rw [houter, Option.bind_some, hinner]
    rfl
  unfold Project.ofArtifact
  rw [hblock]
  dsimp only
  rw [trimBlanks_savedLine, Project.parse_savedProject hfinite]

/-- A show whose strings hold both marks, the end of a comment, quotation marks, backslashes, control
    characters and characters outside of the basic plane. -/
def hostile : Show where
  project :=
    { suits := [⟨7, "/*__LUMINA_SAVE_DATA_START__ */ **/ __LUMINA_SAVE_DATA_END__*/", 3,
        NameTable.empty.insert "*/\\\"" 9⟩]
      cues := [
        { Cue.plain "\\*/\x00\n\x7f𝄞é" 7 .strobe ⟨0x8000000000000000⟩ ⟨0x3fb999999999999a⟩
            ⟨1, 0x80, 0xff⟩ 0 2 with
          speed := some ⟨0x0000000000000001⟩
          brightness := some ⟨0x7fefffffffffffff⟩ }]
      duration := 4294967295
      version := "" }
  events := [⟨0, 7, 2, .black⟩]
  stats := ⟨0, 0, 1, 0⟩

/-- Between two broken marks, the negative zero, a tenth, the least and the greatest number come back
    too. -/
theorem ofArtifact_hostile :
    Project.ofArtifact ("/*__LUMINA_SAVE_DATA_START_" ++ hostile.artifact ++ "END__*/")
      = .ok hostile.project := by
  have hfinite : hostile.project.HasFiniteFloats := by
    intro c hc
    rw [List.mem_singleton.mp hc]
    refine ⟨by decide, by decide, ?_, ?_⟩
    · intro x hx
      rw [← Option.some.inj hx]
      decide
    · intro x hx
      rw [← Option.some.inj hx]
      decide
  exact Project.ofArtifact_artifact hfinite (by decide) _

end LightShow
