namespace LightShow

/-!
# Paths

* `pathParts` — the parts of a path between its slashes;
* `pathSteps` — the steps that a path takes from one directory to the next;
* `directoriesOf` — the directories that have to be there before a file can be, the innermost one
  first.

Parts that are empty or a single point lead nowhere. At the end of a path they still say that the
path is meant as a directory.
-/

/-! ### Steps -/

/-- Puts a character in front of the first of some parts; a slash begins a new part. -/
def prepend (c : Char) : List Char × List (List Char) → List Char × List (List Char)
  | (first, others) => if c = '/' then ([], first :: others) else (c :: first, others)

/-- The parts of a path between its slashes. -/
def pathParts (path : String) : List String :=
  let (first, others) := path.toList.foldr prepend ([], [])
  (first :: others).map String.ofList

/-- The steps of a path. Points are among them, since they can only be taken in a directory. -/
def pathSteps (path : String) : List String := (pathParts path).filter (· ≠ "")

/-- Whether a step stays where it is or leads back. -/
def isDots (step : String) : Bool := step = "." || step = ".."

/-- Whether a path begins at the root. -/
def isAbsolute (path : String) : Bool := path.toList.head? = some '/'

/-- Whether a path ends in a slash. -/
def endsInSlash (path : String) : Bool := path.toList.getLast? = some '/'

/-! ### The directories above a path -/

/-- Whether a part leads nowhere. -/
def isIdle (part : String) : Bool := part = "" || part = "."

/-- The parts of the directory that holds what some parts lead to, in both lists the last one
    first. -/
def parentParts (parts : List String) : List String :=
  (parts.dropWhile isIdle).tail.dropWhile isIdle

/-- A directory above has fewer parts. -/
theorem length_parentParts_lt {parts : List String} (h : parentParts parts ≠ []) :
    (parentParts parts).length < parts.length := by
  have outer := (List.dropWhile_sublist isIdle (l := (parts.dropWhile isIdle).tail)).length_le
  have inner := (List.dropWhile_sublist isIdle (l := parts)).length_le
  have some_part : (parentParts parts).length ≠ 0 := fun none => h (List.length_eq_zero_iff.mp none)
  simp only [parentParts, List.length_tail] at *
  omega

/-- The directories above what some parts lead to, the innermost one first. -/
def directoriesAbove (parts : List String) : List String :=
  if _ : parentParts parts = [] then []
  else
    "/".intercalate (parentParts parts).reverse :: directoriesAbove (parentParts parts)
termination_by parts.length
decreasing_by exact length_parentParts_lt ‹_›

/-- The directories above what a path leads to, as the path spells them, the innermost one first.
    The directory in which the path begins is not among them: it is always there. -/
def directoriesOf (path : String) : List String := directoriesAbove (pathParts path).reverse

end LightShow
