import LightShow.Proofs.Artifact.Lines

namespace LightShow

/-!
# An artifact as source text

* `Region`, `regions` — what a compiler takes the characters of a text for: code, literals, comments
  and notes to the end of a line;
* `joinLines` — a text without the backslashes that join a line to the next one;
* `Show.comment`, `Show.declarations` — the parts of an artifact;
* `Show.artifact_oneComment` — the comment with the project ends at the closing mark and nowhere
  else, and all behind it is compiled.
-/

/-! ### Regions -/

/-- What a compiler takes a character for. -/
inductive Region where
  /-- Code outside of literals. -/
  | code
  /-- A literal between two marks. -/
  | literal (mark : Char)
  /-- A comment that goes on until it is closed. -/
  | comment
  /-- A comment up to the end of the line. -/
  | note
  deriving DecidableEq

/-- What the characters of a text are taken for, if it begins inside of a region. -/
def regionsFrom : Region → List Char → List Region
  | _, [] => []
  | .code, '/' :: '*' :: rest => .comment :: .comment :: regionsFrom .comment rest
  | .code, '/' :: '/' :: rest => .note :: .note :: regionsFrom .note rest
  | .code, c :: rest =>
    if c = '"' ∨ c = '\x27' then .literal c :: regionsFrom (.literal c) rest
    else .code :: regionsFrom .code rest
  | .literal mark, '\\' :: _ :: rest =>
    .literal mark :: .literal mark :: regionsFrom (.literal mark) rest
  | .literal mark, c :: rest =>
    .literal mark :: regionsFrom (if c = mark then .code else .literal mark) rest
  | .comment, '*' :: '/' :: rest => .comment :: .comment :: regionsFrom .code rest
  | .comment, _ :: rest => .comment :: regionsFrom .comment rest
  | .note, c :: rest =>
    if c = '\n' then .code :: regionsFrom .code rest else .note :: regionsFrom .note rest

/-- A text without the backslashes at line ends and these line ends. -/
def joinLines : List Char → List Char
  | [] => []
  | '\\' :: '\n' :: rest => joinLines rest
  | c :: rest => c :: joinLines rest

/-- What a compiler takes the characters of a text for, after it has joined its lines. -/
def regions (text : List Char) : List Region := regionsFrom .code (joinLines text)

/-- A comment goes on at a character that does not close it with the next one. -/
theorem regionsFrom_comment_cons {c : Char} {rest : List Char}
    (h : ∀ d ∈ rest.head?, Apart c d) :
    regionsFrom .comment (c :: rest) = .comment :: regionsFrom .comment rest := by
  rw [regionsFrom]
  rintro rest' rfl rfl
  exact h '/' rfl ⟨rfl, rfl⟩

/-- A comment goes on up to the first place where it is closed. -/
theorem regionsFrom_comment {text : List Char} (h : text.IsChain Apart) (rest : List Char) :
    regionsFrom .comment (text ++ '*' :: '/' :: rest)
      = List.replicate (text.length + 2) Region.comment ++ regionsFrom .code rest := by
  induction text with
  | nil => rfl
  | cons c text ih =>
    have hnext : ∀ d ∈ (text ++ '*' :: '/' :: rest).head?, Apart c d := by
      cases text with
      | nil =>
        intro d hd hclose
        rw [← Option.mem_some.mp hd] at hclose
        exact absurd hclose.2 (by decide)
      | cons d text =>
        intro e he
        rw [← Option.mem_some.mp he]
        exact (List.isChain_cons_cons.mp h).1
    rw [List.cons_append, regionsFrom_comment_cons hnext, ih h.tail]
    rfl

/-- A note goes on up to the end of its line. -/
theorem regionsFrom_note {text : List Char} (h : '\n' ∉ text) (rest : List Char) :
    regionsFrom .note (text ++ '\n' :: rest)
      = List.replicate text.length Region.note ++ Region.code :: regionsFrom .code rest := by
  induction text with
  | nil => rfl
  | cons c text ih =>
    have hc : c ≠ '\n' := fun heq => h (heq ▸ List.mem_cons_self)
    rw [List.cons_append, regionsFrom, if_neg hc, ih fun hmem => h (List.mem_cons_of_mem c hmem)]
    rfl

/-- A character that neither begins nor ends a comment, a literal or an escape. -/
def IsPlain (c : Char) : Prop := c ∉ ['/', '*', '"', '\x27', '\\']

instance (c : Char) : Decidable (IsPlain c) := inferInstanceAs (Decidable (c ∉ _))

/-- Plain characters of code are code. -/
theorem regionsFrom_code {text : List Char} (h : ∀ c ∈ text, IsPlain c) (rest : List Char) :
    regionsFrom .code (text ++ rest)
      = List.replicate text.length Region.code ++ regionsFrom .code rest := by
  induction text with
  | nil => rfl
  | cons c text ih =>
    obtain ⟨hc, htext⟩ := List.forall_mem_cons.mp h
    simp only [IsPlain, List.mem_cons, List.not_mem_nil, or_false, not_or] at hc
    have hliteral : ¬ (c = '"' ∨ c = '\x27') := by simp [hc]
    have hstep : ∀ rest, regionsFrom .code (c :: rest) = .code :: regionsFrom .code rest := by
      intro rest
      rw [regionsFrom, if_neg hliteral]
      · rintro rest' rfl rfl
        exact hc.1 rfl
      · rintro rest' rfl rfl
        exact hc.1 rfl
    rw [List.cons_append, hstep, ih htext]
    rfl

/-- A comment ends at the first closing pair, and marks in notes and in literals begin nothing. -/
example : regionsFrom .comment "/**///*\n\"/*\"".toList = List.replicate 4 Region.comment
    ++ (List.replicate 3 Region.note ++ Region.code :: List.replicate 4 (Region.literal '"')) := by
  decide

/-! ### Joined lines -/

/-- A character stays, unless it is a backslash in front of a line end. -/
theorem joinLines_cons {c : Char} {rest : List Char} (h : c = '\\' → rest.head? ≠ some '\n') :
    joinLines (c :: rest) = c :: joinLines rest := by
  rw [joinLines]
  rintro rest' rfl rfl
  exact h rfl rfl

/-- A line that does not end in a backslash stays apart from the next one. -/
theorem joinLines_line {line : List Char} (hsingle : '\n' ∉ line)
    (hlast : line.getLast? ≠ some '\\') (rest : List Char) :
    joinLines (line ++ '\n' :: rest) = line ++ '\n' :: joinLines rest := by
  induction line with
  | nil => exact joinLines_cons fun h => absurd h (by decide)
  | cons c line ih =>
    have hnext : c = '\\' → (line ++ '\n' :: rest).head? ≠ some '\n' := by
      rintro rfl hhead
      cases line with
      | nil => exact hlast rfl
      | cons d line =>
        have hd : d = '\n' := Option.some.inj hhead
        exact hsingle (hd ▸ List.mem_cons_of_mem _ List.mem_cons_self)
    have hlast' : line.getLast? ≠ some '\\' := fun h => hlast (by rw [List.getLast?_cons, h]; rfl)
    rw [List.cons_append, joinLines_cons hnext,
      ih (fun hmem => hsingle (List.mem_cons_of_mem c hmem)) hlast']
    rfl

/-- A text without backslashes stays as it is. -/
theorem joinLines_eq_self {text : List Char} (h : '\\' ∉ text) : joinLines text = text := by
  induction text with
  | nil => rfl
  | cons c text ih =>
    have hc : c = '\\' → text.head? ≠ some '\n' := fun heq => absurd (heq ▸ List.mem_cons_self) h
    rw [joinLines_cons hc, ih fun hmem => h (List.mem_cons_of_mem c hmem)]

/-! ### The end of a comment -/

/-- A text that closes a comment in one place does so nowhere else. -/
theorem eq_of_append_close {front back before after : List Char}
    (hfront : ¬ ['*', '/'] <:+: front) (hback : ¬ ['*', '/'] <:+: back)
    (h : front ++ '*' :: '/' :: back = before ++ '*' :: '/' :: after) :
    before = front ∧ after = back := by
  -- by what stands between the beginnings of the two: nothing, one character, or more of them
  rcases List.append_eq_append_iff.mp h with ⟨between, rfl, hrest⟩ | ⟨between, rfl, hrest⟩
  · rcases between with _ | ⟨c, _ | ⟨d, between⟩⟩
    · simp only [List.nil_append, List.cons.injEq, true_and] at hrest
      exact ⟨List.append_nil front, hrest.symm⟩
    · simp at hrest
    · simp only [List.cons_append, List.cons.injEq] at hrest
      have hclose : ['*', '/'] <:+: back :=
        ⟨between, after, by rw [hrest.2.2, List.append_assoc]; rfl⟩
      exact absurd hclose hback
  · rcases between with _ | ⟨c, _ | ⟨d, between⟩⟩
    · simp only [List.nil_append, List.cons.injEq, true_and] at hrest
      exact ⟨(List.append_nil before).symm, hrest⟩
    · simp at hrest
    · simp only [List.cons_append, List.cons.injEq] at hrest
      have hclose : ['*', '/'] <:+: before ++ c :: d :: between :=
        ⟨before, between, by rw [← hrest.1, ← hrest.2.1, List.append_assoc]; rfl⟩
      exact absurd hclose hfront

/-! ### The parts of an artifact -/

/-- The closing mark without the end of the comment. -/
def endName : List Char := "__LUMINA_SAVE_DATA_END__".toList

theorem saveEnd_eq : saveEnd = endName ++ ['*', '/'] := by decide

/-- The line behind the comment. -/
def noteLine : List Char := "// Generated by Lumina".toList

namespace Show

/-- The comment with the project. -/
def comment (s : Show) : List Char := saveStart ++ '\n' :: (s.savedProject ++ '\n' :: saveEnd)

/-- The lines behind the note. -/
def declarationLines (s : Show) : List (List Char) :=
  tableHead.drop 2 ++ (s.events.map Event.line ++ s.tableFoot)

/-- What stands behind the note. -/
def declarations (s : Show) : List Char := ['\n'].intercalate s.declarationLines

/-- What stands behind the comment. -/
def program (s : Show) : List Char := '\n' :: '\n' :: (noteLine ++ '\n' :: s.declarations)

/-- An artifact is the comment and the program. -/
theorem toList_artifact (s : Show) : s.artifact.toList = s.comment ++ s.program := by
  have hlines : s.lines
      = [saveStart, s.savedProject, saveEnd, [], noteLine] ++ s.declarationLines := rfl
  have hne : s.declarationLines ≠ [] := List.cons_ne_nil _ _
  rw [artifact, String.toList_ofList, s.artifactChars_eq, hlines, intercalate_append '\n' _ hne]
  unfold comment program declarations
  simp only [List.flatMap_cons, List.flatMap_nil, List.append_assoc, List.cons_append,
    List.nil_append]

/-- The declarations are plain code, whatever the events are. -/
theorem isPlain_declarations (s : Show) : ∀ c ∈ s.declarations, IsPlain c := by
  have hdigit : ∀ d : Digit, IsPlain (digitChar d) := by decide
  have hhead : ∀ line ∈ tableHead.drop 2, ∀ c ∈ line, IsPlain c := by
    have hall : ∀ line ∈ tableHead.drop 2, line.all (IsPlain ·) = true := by decide +kernel
    exact fun line hline => List.all_iff_forall_prop.mp (hall line hline)
  have hrows : ∀ line ∈ s.events.map Event.line, ∀ c ∈ line, IsPlain c :=
    List.forall_mem_map.mpr fun e _ =>
      e.forall_mem_line hdigit (List.all_iff_forall_prop.mp (by decide))
  have hfoot : ∀ line ∈ s.tableFoot, ∀ c ∈ line, IsPlain c :=
    s.forall_mem_tableFoot hdigit (List.all_iff_forall_prop.mp (by decide))
      (List.all_iff_forall_prop.mp (by decide +kernel))
      (List.all_iff_forall_prop.mp (by decide +kernel))
  refine forall_mem_intercalate (List.all_iff_forall_prop.mp (by decide)) ?_
  unfold declarationLines
  simp only [List.forall_mem_append]
  exact ⟨hhead, hrows, hfoot⟩

/-- The program neither closes a comment nor joins lines. -/
theorem not_mem_program (s : Show) : '*' ∉ s.program ∧ '\\' ∉ s.program := by
  have hplain := s.isPlain_declarations
  have hstar : '*' ∉ s.declarations := fun h => absurd (hplain _ h) (by decide)
  have hbackslash : '\\' ∉ s.declarations := fun h => absurd (hplain _ h) (by decide)
  have hnote : '*' ∉ noteLine ∧ '\\' ∉ noteLine := by decide +kernel
  unfold program
  simp only [List.mem_cons, List.mem_append, not_or]
  exact ⟨⟨by decide, by decide, hnote.1, by decide, hstar⟩,
    by decide, by decide, hnote.2, by decide, hbackslash⟩

/-- The comment without its end. -/
def openComment (s : Show) : List Char := saveStart ++ '\n' :: (s.savedProject ++ '\n' :: endName)

theorem comment_eq (s : Show) : s.comment = s.openComment ++ ['*', '/'] := by
  unfold comment openComment
  rw [saveEnd_eq]
  simp only [List.append_assoc, List.cons_append]

/-- The comment is not closed before its end. -/
theorem isChain_openComment (s : Show) : s.openComment.IsChain Apart := by
  have hstart : saveStart.IsChain Apart := by decide +kernel
  have hend : endName.IsChain Apart := by decide +kernel
  exact isChain_apart_lines hstart (isChain_apart_lines (isChain_guardComment _) hend)

/-- No lines of an artifact are joined. -/
theorem joinLines_artifact (s : Show) : joinLines s.artifact.toList = s.artifact.toList := by
  -- backslashes stand in the saved project only, which does not end in one
  have hstart := s.newline_not_mem_lines saveStart (by simp [lines])
  have hsaved := s.newline_not_mem_lines s.savedProject (by simp [lines])
  have hend := s.newline_not_mem_lines saveEnd (by simp [lines])
  have hsavedLast : s.savedProject.getLast? ≠ some '\\' := by
    rw [s.getLast?_savedProject]
    decide
  have hrest : '\\' ∉ '\n' :: (noteLine ++ '\n' :: s.declarations) := fun h =>
    s.not_mem_program.2 (List.mem_cons_of_mem _ h)
  rw [s.toList_artifact, comment, program]
  simp only [List.append_assoc, List.cons_append]
  rw [joinLines_line hstart (by decide), joinLines_line hsaved hsavedLast,
    joinLines_line hend (by decide), joinLines_eq_self hrest]

/-- The comment is taken for a comment as a whole, and the text behind it begins as code. -/
theorem regionsFrom_comment_append (s : Show) (rest : List Char) :
    regionsFrom .code (s.comment ++ rest)
      = List.replicate s.comment.length Region.comment ++ regionsFrom .code rest := by
  obtain ⟨body, hbody⟩ : ∃ body, s.openComment = '/' :: '*' :: body := ⟨_, rfl⟩
  have hchain : body.IsChain Apart := by
    have hopen := s.isChain_openComment
    rw [hbody] at hopen
    exact hopen.tail.tail
  have hcomment : s.comment = '/' :: '*' :: (body ++ ['*', '/']) := by
    rw [s.comment_eq, hbody]
    rfl
  have hlength : s.comment.length = body.length + 2 + 2 := by simp [hcomment]
  calc regionsFrom .code (s.comment ++ rest)
      = .comment :: .comment :: regionsFrom .comment (body ++ '*' :: '/' :: rest) := by
        rw [hcomment]
        simp only [List.cons_append, List.append_assoc, List.nil_append, regionsFrom]
    _ = .comment :: .comment :: (List.replicate (body.length + 2) Region.comment
          ++ regionsFrom .code rest) := by rw [regionsFrom_comment hchain]
    _ = List.replicate s.comment.length Region.comment ++ regionsFrom .code rest := by
        rw [hlength]
        rfl

/-- Behind the comment, a line is taken for a note and all else for code. -/
theorem regionsFrom_program (s : Show) :
    regionsFrom .code s.program
      = .code :: .code :: (List.replicate noteLine.length Region.note
        ++ List.replicate (s.declarations.length + 1) Region.code) := by
  obtain ⟨note, hnote⟩ : ∃ note, noteLine = '/' :: '/' :: note := ⟨_, rfl⟩
  -- the note ends with its line
  have hsingle : '\n' ∉ note := by
    have hline : '\n' ∉ noteLine := by decide +kernel
    rw [hnote] at hline
    exact fun hmem => hline (List.mem_cons_of_mem _ (List.mem_cons_of_mem _ hmem))
  have hcode : regionsFrom .code s.declarations = List.replicate s.declarations.length .code := by
    have h := regionsFrom_code s.isPlain_declarations []
    rwa [List.append_nil, regionsFrom, List.append_nil] at h
  have hends : ∀ c ∈ ['\n', '\n'], IsPlain c := List.all_iff_forall_prop.mp (by decide)
  have hblank : ∀ rest, regionsFrom .code ('\n' :: '\n' :: rest)
      = .code :: .code :: regionsFrom .code rest := regionsFrom_code hends
  calc regionsFrom .code s.program
      = .code :: .code :: .note :: .note
          :: regionsFrom .note (note ++ '\n' :: s.declarations) := by
        rw [program, hnote, hblank]
        simp only [List.cons_append, regionsFrom]
    _ = .code :: .code :: .note :: .note
          :: (List.replicate note.length Region.note
            ++ Region.code :: List.replicate s.declarations.length Region.code) := by
        rw [regionsFrom_note hsingle, hcode]
    _ = _ := by
        rw [hnote]
        rfl

/-- **One comment.** Whatever the project and the events are, an artifact begins with the opening
    mark, and the end of a comment stands in it exactly once, as the end of the closing mark. A
    compiler therefore takes the saved project with its marks for one comment, the line behind the
    blank one for a note, and all else for code. -/
theorem artifact_oneComment (s : Show) :
    s.artifact.toList = s.comment ++ s.program
    ∧ saveStart <+: s.artifact.toList
    ∧ saveEnd <:+ s.comment
    ∧ (∀ before after, s.artifact.toList = before ++ '*' :: '/' :: after
      ↔ before ++ ['*', '/'] = s.comment ∧ after = s.program)
    ∧ regions s.artifact.toList
      = List.replicate s.comment.length Region.comment ++ Region.code :: Region.code
        :: (List.replicate noteLine.length Region.note
          ++ List.replicate (s.declarations.length + 1) Region.code) := by
  -- neither in front of the closing mark's end nor behind it
  have hfront : ¬ ['*', '/'] <:+: s.openComment := not_infix_of_isChain s.isChain_openComment
  have hback : ¬ ['*', '/'] <:+: s.program := fun h =>
    s.not_mem_program.1 (h.subset List.mem_cons_self)
  have hparts : s.artifact.toList = s.openComment ++ '*' :: '/' :: s.program := by
    rw [s.toList_artifact, s.comment_eq, List.append_assoc]
    rfl
  have hstart : saveStart <+: s.artifact.toList := by
    rw [s.toList_artifact, comment, List.append_assoc]
    exact List.prefix_append _ _
  have hend : saveEnd <:+ s.comment :=
    ⟨saveStart ++ '\n' :: (s.savedProject ++ ['\n']), by simp [comment]⟩
  have hclose : ∀ before after, s.artifact.toList = before ++ '*' :: '/' :: after
      ↔ before ++ ['*', '/'] = s.comment ∧ after = s.program := by
    intro before after
    rw [hparts, s.comment_eq]
    constructor
    · intro h
      obtain ⟨rfl, rfl⟩ := eq_of_append_close hfront hback h
      exact ⟨rfl, rfl⟩
    · rintro ⟨hbefore, rfl⟩
      rw [List.append_cancel_right hbefore]
  refine ⟨s.toList_artifact, hstart, hend, hclose, ?_⟩
  rw [regions, s.joinLines_artifact, s.toList_artifact, s.regionsFrom_comment_append,
    s.regionsFrom_program]

end Show

end LightShow
