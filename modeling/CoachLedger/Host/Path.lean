/-
**Paths.**

Paths in configuration files are written by people: a tilde stands for the home directory, and a
relative path starts in the current directory.  Expanding a path makes it absolute and changes
nothing else about it.

A program is taken to have all three directories.  It has no home, and with it no data directory,
only if `HOME` is not set and its user is not known to the system; it has no current directory only
if that has been removed since.  A tilde would then count as a name, a relative path would stay
relative, there would be no profile, and the store would be in `.coachyard`.  Such runs are left
out, because what a path stands for, and so the store that is opened, would not be fixed.

Main definitions:

* `CoachLedger.Places` — the home, the current and the data directory;
* `CoachLedger.Path.join` — a path that starts in a directory;
* `CoachLedger.Path.parent` — the directory that a path names something in;
* `CoachLedger.Places.expand` — the absolute path of a written one.
-/

import CoachLedger.Text.Blank

set_option autoImplicit false

namespace CoachLedger

/-- The directories that paths are relative to, none of which is missing. -/
structure Places where
  home : String
  current : String
  /-- Where programs keep their data. -/
  data : String

namespace Path

/-- The path starts at the root. -/
def isAbsolute (p : String) : Bool :=
  p.toList.head? == some '/'

/-- A path that starts in a directory, unless it is absolute. -/
def join (directory p : String) : String :=
  if isAbsolute p then p
  else if directory.toList.getLast? == some '/' || directory = "" then directory ++ p
  else directory ++ "/" ++ p

/-- The parts of a path between its slashes. -/
def components (p : String) : List String :=
  (p.toList.splitOn '/').map String.ofList

/-- The component leads somewhere else. -/
def isStep (c : String) : Bool := c != "" && c != "."

/-- The components of a path that lead somewhere else. -/
def steps (p : String) : List String := (components p).filter isStep

/-- The path of steps, from the root or not. -/
def ofSteps (fromRoot : Bool) (cs : List String) : String :=
  (if fromRoot then "/" else "") ++ String.intercalate "/" cs

/-- The directory that a path names something in: the path without its last step. -/
def parent (p : String) : String := ofSteps (isAbsolute p) (steps p).dropLast

end Path

/-- The data directory of a home directory, unless another one is chosen. -/
def dataDirectory (home : String) : String := Path.join home ".local/share"

/-- The places of a home and a current directory. -/
def Places.standard (home current : String) : Places := ⟨home, current, dataDirectory home⟩

/-- The absolute path of a written one, blanks around it apart. -/
def Places.expand (places : Places) (written : String) : String :=
  match (Text.trim written).toList with
  | [] => places.current
  | ['~'] => Path.join places.current places.home
  | '~' :: '/' :: rest =>
      Path.join places.current (Path.join places.home (String.ofList rest))
  | cs => Path.join places.current (String.ofList cs)

end CoachLedger
