import LightShow.Proofs.Command.Export

namespace LightShow

/-!
# What a failed command leaves behind

A command has read all its files and computed all that it writes before it does anything. So where
it cannot do that it does nothing at all, and where it exits with zero it has done everything.

* `Files.Refuses`, `Command.Blocked` — a file that is not what it should be, and all that keeps a
  compilation or an import from writing;
* `Command.plan_ne_ok_of_blocked`, `Command.exists_plan_of_not_blocked` — what has no plan, and what
  has one;
* `Command.run_did_of_exit` — a command that exits with zero has done all actions of its plan;
* `respond_blocked_or_exported` — what comes of a compilation and of an import, for all files.
-/

/-! ### Files that are refused -/

/-- Nothing of a kind is found under a path: there is no file that can be read, or no text in it,
    or the text is of no such kind. -/
inductive Files.Refuses {α : Type} (files : Files) (parse : String → Except ShowError α)
    (path : String) : Prop where
  | unreadable {e : FileError} (h : files.read path = .error e)
  | noText {bytes : List UInt8} (h : files.read path = .ok bytes) (htext : ofUtf8? bytes = none)
  | malformed {bytes : List UInt8} {text : String} {e : ShowError}
      (h : files.read path = .ok bytes) (htext : ofUtf8? bytes = some text)
      (hparse : parse text = .error e)

/-- What is asked for is read from a file exactly if the file is not refused. -/
theorem Files.exists_ok_iff_not_refuses {α : Type} (files : Files)
    (parse : String → Except ShowError α) (action path : String) (wording : ShowError → Failure) :
    (∃ a, (readText files.read action path >>= fun text => (parse text).mapError wording) = .ok a)
      ↔ ¬ files.Refuses parse path := by
  constructor
  · rintro ⟨a, ha⟩ hrefuses
    obtain ⟨text, htext, ha⟩ := exists_of_bind_eq_ok ha
    obtain ⟨bytes, hbytes, hutf8⟩ := readText_eq_ok_iff.mp htext
    have hparse : parse text = .ok a := eq_ok_of_mapError_eq_ok ha
    cases hrefuses with
    | unreadable h => exact nomatch hbytes.symm.trans h
    | noText h hnone =>
      obtain rfl := Except.ok.inj (hbytes.symm.trans h)
      exact nomatch hutf8.symm.trans hnone
    | malformed h hutf8' hbad =>
      obtain rfl := Except.ok.inj (hbytes.symm.trans h)
      obtain rfl := Option.some.inj (hutf8.symm.trans hutf8')
      exact nomatch hparse.symm.trans hbad
  · intro hnot
    -- otherwise one of the three reasons is at hand
    cases hread : files.read path with
    | error e => exact absurd (.unreadable hread) hnot
    | ok bytes =>
      cases hutf8 : ofUtf8? bytes with
      | none => exact absurd (.noText hread hutf8) hnot
      | some text =>
        cases hparse : parse text with
        | error e => exact absurd (.malformed hread hutf8 hparse) hnot
        | ok a =>
          have htext : readText files.read action path = .ok text :=
            readText_eq_ok_iff.mpr ⟨bytes, hread, hutf8⟩
          exact ⟨a, by rw [htext, ok_bind, hparse, mapError_ok]⟩

theorem exists_readProject_iff (files : Files) (path : String) :
    (∃ p, readProject files.read path = .ok p) ↔ ¬ files.Refuses Project.parse path :=
  files.exists_ok_iff_not_refuses Project.parse _ path _

theorem exists_readLayout_iff (files : Files) (path : String) :
    (∃ layout, readLayout files.read (some path) = .ok layout)
      ↔ ¬ files.Refuses Layout.parse path :=
  files.exists_ok_iff_not_refuses Layout.parse _ path _

theorem exists_readArtifact_iff (files : Files) (path : String) :
    (∃ p, readArtifact files.read path = .ok p) ↔ ¬ files.Refuses Project.ofArtifact path :=
  files.exists_ok_iff_not_refuses Project.ofArtifact _ path _

/-! ### Commands that cannot begin -/

namespace Command

/-- What keeps a compilation or an import from writing anything. -/
inductive Blocked (files : Files) : Command → Prop where
  | project {input out : String} {binary table : Option String} {options : Options}
      (h : files.Refuses Project.parse input) :
      Blocked files (.compile input out binary table options)
  | layout {input out path : String} {binary : Option String} {options : Options}
      (h : files.Refuses Layout.parse path) :
      Blocked files (.compile input out binary (some path) options)
  | options {input out : String} {binary table : Option String} {options : Options}
      (h : options.step = 0 ∨ options.threads = some 0) :
      Blocked files (.compile input out binary table options)
  | artifact {input out : String} (h : files.Refuses Project.ofArtifact input) :
      Blocked files (.recover input out)

variable {files : Files} {input out : String} {binary table : Option String} {options : Options}
  {actions : List Action}

/-- A compilation that has a plan has read its files, and its options have passed the check. -/
theorem exists_of_plan_compile {read : FileReader}
    (h : (Command.compile input out binary table options).plan read = .ok actions) :
    ∃ p layout s, readProject read input = .ok p ∧ readLayout read table = .ok layout
      ∧ p.compile layout options = .ok s ∧ actions = s.exports out binary := by
  obtain ⟨p, hproject, h⟩ := exists_of_bind_eq_ok h
  obtain ⟨layout, hlayout, h⟩ := exists_of_bind_eq_ok h
  obtain ⟨s, hcompile, h⟩ := exists_of_bind_eq_ok h
  exact ⟨p, layout, s, hproject, hlayout, eq_ok_of_mapError_eq_ok hcompile,
    (Except.ok.inj h).symm⟩

/-- A command that is blocked has no plan. -/
theorem plan_ne_ok_of_blocked {command : Command} (h : command.Blocked files) :
    command.plan files.read ≠ .ok actions := by
  intro hplan
  -- a plan would have read every file and passed the check of the options
  cases h with
  | project h =>
    obtain ⟨p, -, -, hproject, -⟩ := exists_of_plan_compile hplan
    exact (exists_readProject_iff files _).mp ⟨p, hproject⟩ h
  | layout h =>
    obtain ⟨-, layout, -, -, hlayout, -⟩ := exists_of_plan_compile hplan
    exact (exists_readLayout_iff files _).mp ⟨layout, hlayout⟩ h
  | options h =>
    obtain ⟨p, layout, s, -, -, hcompile, -⟩ := exists_of_plan_compile hplan
    unfold Project.compile at hcompile
    split at hcompile
    · exact nomatch hcompile
    · next hfault =>
      obtain ⟨hstep, hthreads⟩ := Options.fault?_eq_none_iff.mp hfault
      exact h.elim hstep hthreads
  | artifact h =>
    obtain ⟨p, hartifact, -⟩ := exists_of_bind_eq_ok hplan
    exact (exists_readArtifact_iff files _).mp ⟨p, hartifact⟩ h

/-- A compilation that is not blocked has a plan. -/
theorem exists_plan_of_not_blocked
    (h : ¬ (Command.compile input out binary table options).Blocked files) :
    ∃ s : Show, (Command.compile input out binary table options).plan files.read
      = .ok (s.exports out binary) := by
  obtain ⟨p, hproject⟩ := (exists_readProject_iff files input).mpr fun hrefuses =>
    h (.project hrefuses)
  obtain ⟨layout, hlayout⟩ : ∃ layout, readLayout files.read table = .ok layout := by
    cases table with
    | none => exact ⟨_, rfl⟩
    | some path => exact (exists_readLayout_iff files path).mpr fun hrefuses => h (.layout hrefuses)
  have hvalid : options.fault? = none :=
    Options.fault?_eq_none_iff.mpr
      ⟨fun hstep => h (.options (.inl hstep)), fun hthreads => h (.options (.inr hthreads))⟩
  obtain ⟨s, hcompile, -, -⟩ := compile_eq_ok p layout hvalid
  refine ⟨s, ?_⟩
  unfold plan
  simp only [hproject, hlayout, hcompile, ok_bind, mapError_ok]
  rfl

/-- A command without a plan does nothing but report. -/
theorem run_of_plan_ne_ok {command : Command}
    (h : ∀ actions, command.plan files.read ≠ .ok actions) :
    (command.run files).exit = 1 ∧ (command.run files).stdout = ""
      ∧ (command.run files).files = files := by
  unfold run
  split
  · exact ⟨rfl, rfl, rfl⟩
  · next actions hplan => exact absurd hplan (h actions)

end Command

/-! ### Commands that exit with zero -/

namespace Outcome

/-- An action after which the exit code is zero was done. -/
theorem perform_of_exit {o : Outcome} {action : Action} (h : (o.perform action).exit = 0) :
    o.exit = 0 ∧ (o.perform action).stdout = o.stdout ++ action.text
      ∧ ∀ path bytes, action = .save path bytes →
        (o.perform action).files.read path = .ok bytes := by
  by_cases hexit : o.exit = 0
  · cases action with
    | print text =>
      rw [perform_print hexit]
      exact ⟨hexit, rfl, nofun⟩
    | save path bytes =>
      cases hsave : saveFile o.files path bytes with
      | ok after =>
        rw [perform_save hexit hsave]
        refine ⟨hexit, String.append_empty.symm, ?_⟩
        rintro _ _ ⟨⟩
        exact (saveFile_eq_ok hsave).2
      | error setback =>
        rw [perform_save_of_error hexit hsave] at h
        exact nomatch h
  · rw [perform_of_failed hexit] at h
    exact absurd h hexit

/-- If the exit code is zero in the end, all texts were printed. -/
theorem stdout_of_exit {o : Outcome} {actions : List Action}
    (h : (actions.foldl perform o).exit = 0) :
    o.exit = 0 ∧ (actions.foldl perform o).stdout = o.stdout ++ printed actions := by
  induction actions generalizing o with
  | nil => exact ⟨h, String.append_empty.symm⟩
  | cons action rest ih =>
    obtain ⟨hfirst, hrest⟩ := ih h
    obtain ⟨hexit, hstdout, -⟩ := perform_of_exit hfirst
    rw [List.foldl_cons, hrest, hstdout, printed_cons, String.append_assoc]
    exact ⟨hexit, rfl⟩

/-- If the exit code is zero in the end, what was saved last is read. -/
theorem read_of_exit {o : Outcome} {front behind : List Action} {path : String}
    {bytes : List UInt8} (h : ((front ++ .save path bytes :: behind).foldl perform o).exit = 0)
    (hbehind : ∀ saved ∈ savedPaths behind, o.files.address path ≠ o.files.address saved) :
    ((front ++ .save path bytes :: behind).foldl perform o).files.read path = .ok bytes := by
  rw [List.foldl_append, List.foldl_cons] at h
  obtain ⟨hexit, -⟩ := stdout_of_exit h
  obtain ⟨-, -, hsaved⟩ := perform_of_exit hexit
  exact read_foldl_of_read_perform (hsaved path bytes rfl) hbehind

end Outcome

/-- A command that exits with zero has a plan, and has done all of it. -/
theorem Command.run_did_of_exit {command : Command} {files : Files}
    (h : (command.run files).exit = 0) :
    ∃ actions, command.plan files.read = .ok actions
      ∧ (command.run files).Did files actions [] := by
  cases hplan : command.plan files.read with
  | error f =>
    unfold Command.run at h
    rw [hplan] at h
    exact nomatch h
  | ok actions =>
    rw [Command.run_eq_foldl hplan] at h ⊢
    obtain ⟨-, hstdout⟩ := Outcome.stdout_of_exit h
    refine ⟨actions, rfl, h, ?_, trivial, Outcome.address_foldl_perform _ actions, ?_, ?_⟩
    · rw [hstdout, String.empty_append]
    · rintro front path bytes behind rfl hbehind
      exact Outcome.read_of_exit h hbehind
    · intro path content hother hread
      exact Outcome.read_foldl_perform hother hread

/-! ### Calls of the program -/

/-- **All before anything.** A compilation or an import for which a file cannot be read or is
    refused, or the options do not pass the check, exits with one, prints nothing, and leaves all
    files as they are. Any other compilation exits with zero where it can save its files. And when
    one does, the project, the layout and the options stand for a show: the artifact is in its file,
    unless the path of the events leads to the same one, the events are in theirs, and the digest
    that is printed is the one of the artifact, byte for byte. -/
theorem respond_blocked_or_exported {arguments : List String} {command : Command} {files : Files}
    (harguments : Request.ofArguments? arguments = some (.run command)) :
    (command.Blocked files → (respond arguments files).exit = 1
      ∧ (respond arguments files).stdout = "" ∧ (respond arguments files).files = files)
    ∧ ∀ input out binary table options, command = .compile input out binary table options →
      (¬ command.Blocked files → files.CanSave (out :: binary.toList) →
        (respond arguments files).exit = 0)
      ∧ ((respond arguments files).exit = 0 →
        ∃ p layout s, readProject files.read input = .ok p
          ∧ readLayout files.read table = .ok layout ∧ p.compile layout options = .ok s
          ∧ ((∀ path ∈ binary, files.address path ≠ files.address out) →
            (respond arguments files).files.read out = .ok (utf8 s.artifact))
          ∧ (∀ path ∈ binary,
            (respond arguments files).files.read path = .ok (Event.bytes s.events))
          ∧ (respond arguments files).stdout
            = "sha256: " ++ Sha256.hexDigest (utf8 s.artifact) ++ "\n") := by
  have hrespond : respond arguments files = command.run files := by
    unfold respond
    rw [harguments]
  rw [hrespond]
  refine ⟨fun hblocked => Command.run_of_plan_ne_ok fun _ =>
    Command.plan_ne_ok_of_blocked hblocked, ?_⟩
  rintro input out binary table options rfl
  refine ⟨fun hnot hsave => ?_, fun hexit => ?_⟩
  · -- what is not blocked has a plan, and its files can be saved
    obtain ⟨s, hplan⟩ := Command.exists_plan_of_not_blocked hnot
    have hall : files.CanSave (savedPaths (s.exports out binary) ++ []) := by
      rw [s.savedPaths_exports, List.append_nil]
      exact hsave
    exact (Command.run_did hplan hall).exit
  · -- what exits with zero has done all that it planned
    obtain ⟨actions, hplan, hdid⟩ := Command.run_did_of_exit hexit
    obtain ⟨p, layout, s, hproject, hlayout, hcompile, rfl⟩ :=
      Command.exists_of_plan_compile hplan
    exact ⟨p, layout, s, hproject, hlayout, hcompile, hdid.read_artifact, hdid.read_events,
      hdid.stdout.trans (s.printed_exports out binary)⟩

/-- Three calls in a directory with a project and a layout: one that would write over the project
    but asks for no thread, one that would import a layout and write over it, and one that exports
    the project. -/
theorem respond_blocked_or_exported_workshop :
    let files := workshop terseProject terseLayout
    let idle := respond ["compile", "--in", "show.json", "--out", "show.json", "--threads", "0"]
      files
    let lost := respond ["import", "--in", "suit.json", "--out", "suit.json"] files
    let exported := respond ["compile", "--in", "show.json", "--out", "show.ino", "--binary",
      "show.bin", "--layout", "suit.json"] files
    (idle.exit = 1 ∧ idle.stdout = "" ∧ idle.files = files)
      ∧ (lost.exit = 1 ∧ lost.stdout = "" ∧ lost.files = files)
      ∧ exported.exit = 0
      ∧ ∃ s : Show, exported.files.read "show.ino" = .ok (utf8 s.artifact)
        ∧ exported.files.read "show.bin" = .ok (Event.bytes s.events)
        ∧ exported.stdout = "sha256: " ++ Sha256.hexDigest (utf8 s.artifact) ++ "\n" := by
  intro files idle lost exported
  have hhome : files.walk files.home = .ok ⟨["work"], .file "show.json" (utf8 terseProject)
      (.file "suit.json" (utf8 terseLayout) .empty)⟩ := rfl
  have hreadProject : files.read "show.json" = .ok (utf8 terseProject) :=
    IsFileName.read_eq (by decide +kernel) hhome rfl
  have hreadLayout : files.read "suit.json" = .ok (utf8 terseLayout) :=
    IsFileName.read_eq (by decide +kernel) hhome rfl
  have hproject : readProject files.read "show.json" = .ok terse := by
    have htree : (Json.parse? terseProject).bind Project.ofJson? = some terse := by decide +kernel
    exact readProject_utf8 hreadProject (Project.parse_eq_ok htree)
  have hlayout : readLayout files.read (some "suit.json")
      = .ok ⟨[⟨"arm", 1, .fixed 0, .pocket⟩]⟩ := by
    have htree : (Json.parse? terseLayout).bind Layout.ofJson?
        = some ⟨[⟨"arm", 1, .fixed 0, .pocket⟩]⟩ := by decide +kernel
    exact readLayout_utf8 hreadLayout (Layout.parse_eq_ok htree (by decide +kernel))
  -- a layout has no mark of a saved project
  have hrefused : files.Refuses Project.ofArtifact "suit.json" := by
    have hblock : savedBlock? terseLayout.toList = none := by decide +kernel
    have hnone : Project.ofArtifact terseLayout = .error .noProject := by
      rw [Project.ofArtifact, hblock]
    exact .malformed hreadLayout (ofUtf8?_utf8 terseLayout) hnone
  have hfree : ¬ (Command.compile "show.json" "show.ino" (some "show.bin") (some "suit.json")
      {}).Blocked files := by
    intro hblocked
    cases hblocked with
    | project h => exact (exists_readProject_iff files _).mp ⟨_, hproject⟩ h
    | layout h => exact (exists_readLayout_iff files _).mp ⟨_, hlayout⟩ h
    | options h => exact absurd h (by decide)
  have hsave : files.CanSave ["show.ino", "show.bin"] := by
    refine Files.canSave_of_isFileName hhome (by decide +kernel) ?_
    intro name _ inner hfound
    grind [Directory.find?]
  have hidle : Request.ofArguments? ["compile", "--in", "show.json", "--out", "show.json",
      "--threads", "0"]
      = some (.run (.compile "show.json" "show.json" none none { threads := some 0 })) := by
    decide +kernel
  have hlost : Request.ofArguments? ["import", "--in", "suit.json", "--out", "suit.json"]
      = some (.run (.recover "suit.json" "suit.json")) := by decide +kernel
  have hexported : Request.ofArguments? ["compile", "--in", "show.json", "--out", "show.ino",
      "--binary", "show.bin", "--layout", "suit.json"]
      = some (.run (.compile "show.json" "show.ino" (some "show.bin") (some "suit.json") {})) := by
    decide +kernel
  obtain ⟨hdone, hwritten⟩ := (respond_blocked_or_exported hexported).2 _ _ _ _ _ rfl
  have hexit : exported.exit = 0 := hdone hfree hsave
  obtain ⟨-, -, s, -, -, -, hartifact, hevents, hstdout⟩ := hwritten hexit
  exact ⟨(respond_blocked_or_exported hidle).1 (.options (.inr rfl)),
    (respond_blocked_or_exported hlost).1 (.artifact hrefused), hexit, s,
    hartifact (by decide +kernel), hevents _ rfl, hstdout⟩

end LightShow
