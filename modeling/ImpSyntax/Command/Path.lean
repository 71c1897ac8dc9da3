/-!
# Paths

A path is a text in which slashes separate the steps from directory to directory.  An empty step or
a single dot stays where it is and two dots step back.  `Path.fileName?` is the name that a path
ends in, if its last step goes on to a name.
-/

namespace ImpSyntax

namespace Path

/-- Put a character in front of the first step. -/
def consStep (c : Char) : List (List Char) → List (List Char)
  | [] => [[c]]
  | step :: rest => (c :: step) :: rest

/-- The steps of a path: the texts between its slashes, some of which may be empty. -/
def steps : List Char → List (List Char)
  | [] => [[]]
  | '/' :: s => [] :: steps s
  | c :: s => consStep c (steps s)

/-- Whether a step stays in the directory it is taken from. -/
def stays (step : List Char) : Bool :=
  step == [] || step == ['.']

/-- Whether a step goes back to the directory above. -/
def goesBack (step : List Char) : Bool :=
  step == ['.', '.']

/-- The last step of a path that does not stay, if it is a name. -/
def fileName? (path : String) : Option String :=
  match ((steps path.toList).filter (!stays ·)).getLast? with
  | none => none
  | some step => if goesBack step then none else some (String.ofList step)

/-- How reports call the file at a path: by its name, or by the whole path if that ends in no
name. -/
def title (path : String) : String :=
  (fileName? path).getD path

end Path

end ImpSyntax
