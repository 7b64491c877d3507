/-!
# LineCalc — paths

A path is a root and the names below it. Reading a path drops empty names and single points, so
that two spellings of one path are shown alike; exactly two leading strokes are a root of their
own, and a double point or a tilde is a name like any other.
-/

namespace LineCalc

/-- A path. -/
structure Path where
  root : String
  names : List String
deriving DecidableEq

namespace Path

/-- The pieces of a text between strokes. -/
def pieces : List Char → List (List Char)
  | [] => [[]]
  | c :: cs =>
    if c = '/' then [] :: pieces cs
    else
      match pieces cs with
      | [] => [[c]]
      | p :: ps => (c :: p) :: ps

/-- The path that a text names. -/
def ofText (s : String) : Path :=
  let cs := s.toList
  let strokes := (cs.takeWhile (· = '/')).length
  let root := if strokes = 0 then "" else if strokes = 2 then "//" else "/"
  let names := (pieces cs).map String.ofList
  ⟨root, names.filter fun n => n ≠ "" && n ≠ "."⟩

/-- A path with one more name below it. -/
def below (p : Path) (name : String) : Path :=
  { p with names := p.names ++ [name] }

/-- The text of a path. The path without root and names is the place itself. -/
def text (p : Path) : String :=
  if p.root = "" ∧ p.names = [] then "." else p.root ++ "/".intercalate p.names

/-- The directory that state is kept in: the one that is set, else the one below the home
directory, if there is a home. -/
def stateDirectory? (setting : String) (home : Option String) : Option Path :=
  if setting ≠ "" then some (ofText setting)
  else
    match home with
    | none => none
    | some h => if h = "" then none else some (((ofText h).below ".config").below "rcalc")

/-- The state file in a directory. -/
def stateFile (directory : Path) : Path :=
  directory.below "state.json"

end Path

end LineCalc
