import LightShow.Proofs.Artifact.RoundTrip
import LightShow.Proofs.Command.Actions
import LightShow.Proofs.Compile.Batches
import LightShow.Proofs.Layout.Json
import LightShow.Proofs.Project.RoundTrip

namespace LightShow

/-!
# Exporting and importing

* `ofUtf8?_utf8` — a text is read from a file as it was written;
* `readArtifact_artifact`, `readProject_pretty` — an artifact is imported as the project of its
  show, and what is written then is read as that project;
* `respond_compile_did`, `respond_recover_did` — what compiling and importing write and print;
* `export_import_fixpoint` — a project that was exported, imported and exported again has the
  artifact and the event stream that it had before.

Nothing can be lost on the way since a project that was read has finite floats only: it can be
written in an artifact and in a file, and be read again.
-/

/-! ### Texts in files -/

/-- A text is got back from its bytes. -/
theorem ofUtf8?_utf8 (text : String) : ofUtf8? (utf8 text) = some text := by
  unfold ofUtf8? utf8 String.fromUTF8?
  exact dif_pos text.isValidUTF8

/-- A text is read where a file has its bytes. -/
theorem readText_eq_ok_iff {read : FileReader} {action path text : String} :
    readText read action path = .ok text
      ↔ ∃ bytes, read path = .ok bytes ∧ ofUtf8? bytes = some text := by
  unfold readText
  cases read path with
  | error e => simp
  | ok bytes =>
    dsimp only
    cases hbytes : ofUtf8? bytes <;> simp [hbytes]

theorem readText_utf8 {read : FileReader} {path text : String} (h : read path = .ok (utf8 text))
    (action : String) : readText read action path = .ok text :=
  readText_eq_ok_iff.mpr ⟨utf8 text, h, ofUtf8?_utf8 text⟩

/-- A project that was read from a file can be written again. -/
theorem hasFiniteFloats_of_readProject {read : FileReader} {path : String} {p : Project}
    (h : readProject read path = .ok p) : p.HasFiniteFloats := by
  obtain ⟨text, -, h⟩ := exists_of_bind_eq_ok h
  exact Project.hasFiniteFloats_of_parse (eq_ok_of_mapError_eq_ok h)

/-- A project is read from a file that holds a text of it. -/
theorem readProject_utf8 {read : FileReader} {path text : String} {p : Project}
    (h : read path = .ok (utf8 text)) (hparse : Project.parse text = .ok p) :
    readProject read path = .ok p := by
  unfold readProject
  simp only [readText_utf8 h, hparse, ok_bind, mapError_ok]

/-- A layout is read from a file that holds a text of it. -/
theorem readLayout_utf8 {read : FileReader} {path text : String} {layout : Layout}
    (h : read path = .ok (utf8 text)) (hparse : Layout.parse text = .ok layout) :
    readLayout read (some path) = .ok layout := by
  unfold readLayout
  simp only [readText_utf8 h, hparse, ok_bind, mapError_ok]

/-- A project that was written to a file is read from it. -/
theorem readProject_pretty {read : FileReader} {path : String} {p : Project}
    (hfinite : p.HasFiniteFloats) (h : read path = .ok (utf8 p.toJson.pretty)) :
    readProject read path = .ok p :=
  readProject_utf8 h ((Project.parse_eq_ok_iff (Json.parse?_pretty p.toJson)).mpr hfinite)

/-- A layout is read as before where its file is. -/
theorem readLayout_of_read {read read' : FileReader} {table : Option String} {layout : Layout}
    (hread : ∀ path ∈ table, ∀ content, read path = .ok content → read' path = .ok content)
    (h : readLayout read table = .ok layout) : readLayout read' table = .ok layout := by
  cases table with
  | none => exact h
  | some path =>
    obtain ⟨text, htext, hparse⟩ := exists_of_bind_eq_ok h
    obtain ⟨bytes, hbytes, hutf8⟩ := readText_eq_ok_iff.mp htext
    have htext' : readText read' "read layout" path = .ok text :=
      readText_eq_ok_iff.mpr ⟨bytes, hread path rfl bytes hbytes, hutf8⟩
    unfold readLayout
    simp only [htext', ok_bind]
    exact hparse

/-! ### Artifacts in files -/

/-- Between the marks of an artifact stands the saved project, on a line of its own. -/
theorem Show.savedBlock?_artifact (s : Show) :
    savedBlock? s.artifact.toList = some ('\n' :: (s.savedProject ++ ['\n'])) := by
  obtain ⟨table, htable⟩ := s.exists_artifactChars
  have hfront : ¬ saveStart <:+: ([] : List Char) := by decide
  have houter : cutAt? saveStart s.artifact.toList
      = some ([], '\n' :: (s.savedProject ++ ['\n']) ++ (saveEnd ++ table)) := by
    rw [artifact, String.toList_ofList, htable]
    exact cutAt?_append unbordered_saveStart (by decide) hfront
  have hinner : cutAt? saveEnd ('\n' :: (s.savedProject ++ ['\n']) ++ (saveEnd ++ table))
      = some ('\n' :: (s.savedProject ++ ['\n']), table) :=
    cutAt?_append unbordered_saveEnd (by decide) (not_infix_savedLine _)
  unfold savedBlock?
  rw [houter, Option.bind_some, hinner]
  rfl

/-- An artifact in a file is imported as the project of its show. -/
theorem readArtifact_artifact {read : FileReader} {path : String} {s : Show}
    (hfinite : s.project.HasFiniteFloats) (h : read path = .ok (utf8 s.artifact)) :
    readArtifact read path = .ok s.project := by
  have himport : Project.ofArtifact s.artifact = .ok s.project := by
    unfold Project.ofArtifact
    rw [s.savedBlock?_artifact]
    dsimp only
    rw [trimBlanks_savedLine, Project.parse_savedProject hfinite]
  unfold readArtifact
  simp only [readText_utf8 h, himport, ok_bind, mapError_ok]

/-- Shows of one project with the same events have the same artifact. -/
theorem Show.artifact_congr {s s' : Show} (hproject : s'.project = s.project)
    (hevents : s'.events = s.events) : s'.artifact = s.artifact := by
  unfold artifact artifactChars savedProject frameCount totalDuration
  rw [hproject, hevents]

/-- The events depend on the options by the sampling step alone. -/
theorem encodeEvents_congr {options options' : Options} (p : Project) (layout : Layout)
    (h : options'.step = options.step) :
    encodeEvents p layout options' = encodeEvents p layout options := by
  rw [encodeEvents_eq, encodeEvents_eq]
  unfold encodeInTurn sampleCount sampleTime
  rw [h]

/-! ### Calls of the program -/

/-- What compiling a show writes and prints. -/
def Show.exports (s : Show) (out : String) (binary : Option String) : List Action :=
  [.save out (utf8 s.artifact), .print ("sha256: " ++ Sha256.hexDigest (utf8 s.artifact) ++ "\n")]
    ++ (binary.map fun path => Action.save path (Event.bytes s.events)).toList

/-- An export saves the artifact, and then the events if there is a path for them. -/
theorem Show.savedPaths_exports (s : Show) (out : String) (binary : Option String) :
    savedPaths (s.exports out binary) = out :: binary.toList := by
  cases binary <;> rfl

/-- An export prints the digest of the artifact and nothing else. -/
theorem Show.printed_exports (s : Show) (out : String) (binary : Option String) :
    printed (s.exports out binary)
      = "sha256: " ++ Sha256.hexDigest (utf8 s.artifact) ++ "\n" := by
  cases binary <;> simp [printed, exports, Action.text, String.join_cons]

/-- What a call with the arguments of a compilation does. -/
theorem respond_compile_did {files : Files} {arguments : List String} {input out : String}
    {binary table : Option String} {options : Options} {p : Project} {layout : Layout} {s : Show}
    {rest : List String}
    (harguments : Request.ofArguments? arguments
      = some (.run (.compile input out binary table options)))
    (hproject : readProject files.read input = .ok p)
    (hlayout : readLayout files.read table = .ok layout)
    (hcompile : p.compile layout options = .ok s)
    (hsave : files.CanSave (out :: binary.toList ++ rest)) :
    (respond arguments files).Did files (s.exports out binary) rest := by
  have hplan : (Command.compile input out binary table options).plan files.read
      = .ok (s.exports out binary) := by
    unfold Command.plan
    simp only [hproject, hlayout, hcompile, ok_bind, mapError_ok]
    rfl
  unfold respond
  rw [harguments]
  refine Command.run_did hplan ?_
  rw [s.savedPaths_exports]
  exact hsave

/-- What a call with the arguments of an import does to an artifact. -/
theorem respond_recover_did {files : Files} {arguments : List String} {input out : String}
    {s : Show} {rest : List String}
    (harguments : Request.ofArguments? arguments = some (.run (.recover input out)))
    (hfinite : s.project.HasFiniteFloats) (hread : files.read input = .ok (utf8 s.artifact))
    (hsave : files.CanSave (out :: rest)) :
    (respond arguments files).Did files [.save out (utf8 s.project.toJson.pretty)] rest := by
  have hplan : (Command.recover input out).plan files.read
      = .ok [.save out (utf8 s.project.toJson.pretty)] := by
    unfold Command.plan
    simp only [readArtifact_artifact hfinite hread, ok_bind]
    rfl
  unfold respond
  rw [harguments]
  exact Command.run_did hplan hsave

namespace Outcome.Did

variable {files : Files} {s : Show} {out : String} {binary : Option String} {rest : List String}
  {o : Outcome}

/-- The artifact is in its file, unless the events were written over it. -/
theorem read_artifact (h : o.Did files (s.exports out binary) rest)
    (hbinary : ∀ path ∈ binary, files.address path ≠ files.address out) :
    o.files.read out = .ok (utf8 s.artifact) := by
  refine h.read_saved [] out _ _ rfl ?_
  intro saved hs
  cases binary with
  | none => exact nomatch hs
  | some path =>
    rw [List.mem_singleton.mp hs]
    exact (hbinary path rfl).symm

/-- The events are in their file. -/
theorem read_events (h : o.Did files (s.exports out binary) rest) :
    ∀ path ∈ binary, o.files.read path = .ok (Event.bytes s.events) := by
  intro path hpath
  obtain rfl : binary = some path := hpath
  exact h.read_saved [_, _] path _ [] rfl nofun

end Outcome.Did

/-! ### Export, import, export -/

/-- **Export and import.** A project and a layout that are read, or the standard layout, and options
    that pass the check: the project is compiled, its artifact imported, and what was imported
    compiled again, with the same layout and sampling step and in batches of any size or in none.
    All three calls exit with zero, and the second artifact and the second stream of events are the
    first ones, byte for byte, so that the same digest is printed.

    The files that are written have to be in places where files can be written. The first stream of
    events does not take the place of its artifact, nor does the second one, and nothing that is
    written before the layout is read for the second time takes the place of the layout. -/
theorem export_import_fixpoint {files : Files} {exporting importing exportingAgain : List String}
    {input artifact imported artifact' : String} {binary binary' table : Option String}
    {options options' : Options} {p : Project} {layout : Layout}
    (hexporting : Request.ofArguments? exporting
      = some (.run (.compile input artifact binary table options)))
    (himporting : Request.ofArguments? importing = some (.run (.recover artifact imported)))
    (hexportingAgain : Request.ofArguments? exportingAgain
      = some (.run (.compile imported artifact' binary' table options')))
    (hproject : readProject files.read input = .ok p)
    (hlayout : readLayout files.read table = .ok layout)
    (hvalid : options.fault? = none) (hvalid' : options'.fault? = none)
    (hstep : options'.step = options.step)
    (hsave : files.CanSave (artifact :: binary.toList ++ imported :: artifact' :: binary'.toList))
    (hbinary : ∀ path ∈ binary, files.address path ≠ files.address artifact)
    (hbinary' : ∀ path ∈ binary', files.address path ≠ files.address artifact')
    (htable : ∀ path ∈ table, ∀ saved ∈ imported :: artifact :: binary.toList,
      files.address path ≠ files.address saved) :
    let exported := respond exporting files
    let recovered := respond importing exported.files
    let again := respond exportingAgain recovered.files
    exported.exit = 0 ∧ recovered.exit = 0 ∧ again.exit = 0
      ∧ ∃ s, p.compile layout options = .ok s
        ∧ exported.files.read artifact = .ok (utf8 s.artifact)
        ∧ again.files.read artifact' = .ok (utf8 s.artifact)
        ∧ (∀ path ∈ binary, exported.files.read path = .ok (Event.bytes s.events))
        ∧ (∀ path ∈ binary', again.files.read path = .ok (Event.bytes s.events))
        ∧ exported.stdout = "sha256: " ++ Sha256.hexDigest (utf8 s.artifact) ++ "\n"
        ∧ again.stdout = exported.stdout := by
  intro exported recovered again
  obtain ⟨s, hs, hsproject, hsevents⟩ := compile_eq_ok p layout hvalid
  obtain ⟨s', hs', hsproject', hsevents'⟩ := compile_eq_ok p layout hvalid'
  -- both shows hold the project that was read, so that they differ in nothing that is written
  subst hsproject
  have hfinite : s.project.HasFiniteFloats := hasFiniteFloats_of_readProject hproject
  have hevents : s'.events = s.events := by
    rw [hsevents', encodeEvents_congr s.project layout hstep, hsevents]
  have hartifact : s'.artifact = s.artifact := Show.artifact_congr hsproject' hevents
  have hexported : exported.Did files (s.exports artifact binary)
      (imported :: artifact' :: binary'.toList) :=
    respond_compile_did hexporting hproject hlayout hs hsave
  have hread : exported.files.read artifact = .ok (utf8 s.artifact) :=
    hexported.read_artifact hbinary
  have hrecovered : recovered.Did exported.files [.save imported (utf8 s.project.toJson.pretty)]
      (artifact' :: binary'.toList) :=
    respond_recover_did himporting hfinite hread hexported.canSave
  have hproject' : readProject recovered.files.read imported = .ok s.project :=
    readProject_pretty hfinite (hrecovered.read_saved [] imported _ [] rfl nofun)
  have hlayout' : readLayout recovered.files.read table = .ok layout := by
    refine readLayout_of_read ?_ hlayout
    intro path hpath content hcontent
    refine hrecovered.read_other path content ?_ (hexported.read_other path content ?_ hcontent)
    · intro saved hsaved
      rw [List.mem_singleton.mp hsaved, hexported.address, hexported.address]
      exact htable path hpath imported List.mem_cons_self
    · intro saved hsaved
      rw [s.savedPaths_exports] at hsaved
      exact htable path hpath saved (List.mem_cons_of_mem _ hsaved)
  have hagain : again.Did recovered.files (s'.exports artifact' binary') [] := by
    refine respond_compile_did hexportingAgain hproject' hlayout' hs' ?_
    rw [List.append_nil]
    exact hrecovered.canSave
  have hbinary'' : ∀ path ∈ binary',
      recovered.files.address path ≠ recovered.files.address artifact' := by
    intro path hpath
    rw [hrecovered.address, hrecovered.address, hexported.address, hexported.address]
    exact hbinary' path hpath
  have hstdout : exported.stdout = "sha256: " ++ Sha256.hexDigest (utf8 s.artifact) ++ "\n" :=
    hexported.stdout.trans (s.printed_exports artifact binary)
  refine ⟨hexported.exit, hrecovered.exit, hagain.exit, s, hs, hread, ?_, hexported.read_events, ?_,
    hstdout, ?_⟩
  · rw [← hartifact]
    exact hagain.read_artifact hbinary''
  · rw [← hevents]
    exact hagain.read_events
  · rw [hstdout, hagain.stdout, s'.printed_exports, hartifact]

/-- A directory with a project and a layout. -/
def workshop (project layout : String) : Files where
  tree := .directory "work" (.file "show.json" (utf8 project)
    (.file "suit.json" (utf8 layout) .empty)) .empty
  home := ["work"]

/-- A project without the names of its fields and without a version. The name of its suit is the
    end of a comment, and its cue begins at the negative zero. -/
def terseProject : String :=
  "[[[3,\"*/\",2]],[[\"\",3,-0.0,1e2,\"strobe\",\"#ff8000\",null,null,null,null,null,null,0,1]],100]"

/-- A layout without the names of its fields. -/
def terseLayout : String := "[[[\"arm\",1,\x7b\"fixed\":0\x7d,\"pocket\"]]]"

/-- The project of `terseProject`. -/
def terse : Project where
  suits := [⟨3, "*/", 2, .empty⟩]
  cues := [.plain "" 3 .strobe ⟨0x8000000000000000⟩ 100 ⟨0xff, 0x80, 0⟩ 0 1]
  duration := 100
  version := "1.0.0"

/-- What is imported takes the place of the project that was exported, and is exported again in
    batches. -/
theorem export_import_terse :
    let files := workshop terseProject terseLayout
    let exported := respond ["compile", "--in", "show.json", "--out", "show.ino",
      "--binary=show.bin", "--layout", "suit.json", "--step-ms", "40"] files
    let recovered := respond ["import", "--in", "show.ino", "--out", "show.json"] exported.files
    let again := respond ["compile", "--in=show.json", "--out=again.ino", "--binary", "again.bin",
      "--layout=suit.json", "--step-ms=40", "--parallel", "--threads", "3", "--chunk-size", "2"]
      recovered.files
    exported.exit = 0 ∧ recovered.exit = 0 ∧ again.exit = 0
      ∧ ∃ s, terse.compile ⟨[⟨"arm", 1, .fixed 0, .pocket⟩]⟩ { step := 40 } = .ok s
        ∧ exported.files.read "show.ino" = .ok (utf8 s.artifact)
        ∧ again.files.read "again.ino" = .ok (utf8 s.artifact)
        ∧ (∀ path ∈ some "show.bin", exported.files.read path = .ok (Event.bytes s.events))
        ∧ (∀ path ∈ some "again.bin", again.files.read path = .ok (Event.bytes s.events))
        ∧ exported.stdout = "sha256: " ++ Sha256.hexDigest (utf8 s.artifact) ++ "\n"
        ∧ again.stdout = exported.stdout := by
  intro files
  have hhome : files.walk files.home = .ok ⟨["work"], .file "show.json" (utf8 terseProject)
      (.file "suit.json" (utf8 terseLayout) .empty)⟩ := rfl
  have hproject : readProject files.read "show.json" = .ok terse := by
    have htree : (Json.parse? terseProject).bind Project.ofJson? = some terse := by decide +kernel
    exact readProject_utf8 (IsFileName.read_eq (by decide +kernel) hhome rfl)
      (Project.parse_eq_ok htree)
  have hlayout : readLayout files.read (some "suit.json")
      = .ok ⟨[⟨"arm", 1, .fixed 0, .pocket⟩]⟩ := by
    have htree : (Json.parse? terseLayout).bind Layout.ofJson?
        = some ⟨[⟨"arm", 1, .fixed 0, .pocket⟩]⟩ := by decide +kernel
    exact readLayout_utf8 (IsFileName.read_eq (by decide +kernel) hhome rfl)
      (Layout.parse_eq_ok htree (by decide +kernel))
  -- all paths are names in the directory, and none of them is that of a directory
  have hsave : files.CanSave ["show.ino", "show.bin", "show.json", "again.ino", "again.bin"] := by
    refine Files.canSave_of_isFileName hhome (by decide +kernel) ?_
    intro name _ inner hfound
    grind [Directory.find?]
  have hvalid : Options.fault? { step := 40 } = none := rfl
  have hvalid' :
      Options.fault? { step := 40, parallel := true, threads := some 3, batch := 2 } = none := rfl
  exact export_import_fixpoint (by decide +kernel) (by decide +kernel) (by decide +kernel) hproject
    hlayout hvalid hvalid' rfl hsave (by decide +kernel) (by decide +kernel) (by decide +kernel)

end LightShow
