/-
**The program.**

The command line of the coach ledger on a real machine: files are read and stores are kept as
images in files.  What is printed and how the program exits follows from the result of the run.

Main definitions:

* `CoachLedger.machine` — the machine as the host of the program;
* `main` — the program.
-/

import CoachLedger.CommandLine.Run
import CoachLedger.Store.Image

set_option autoImplicit false

namespace CoachLedger

/-- What is found under a path. -/
def readFileState (path : String) : IO FileState := do
  match ← (IO.FS.readFile path).toBaseIO with
  | .ok s => return .text s
  | .error (.noFileOrDirectory ..) => return .absent
  | .error _ => return .unreadable

/-- Makes a directory, and says whether there is one then. -/
def makeDirectory (path : String) : IO Bool := do
  if path = "" then return true
  match ← (IO.FS.createDirAll path).toBaseIO with
  | .ok _ => return true
  | .error _ => return false

/-- The path of a file from the root, free of `..`. -/
def storePath (places : Places) (path : String) : String :=
  let back (cs : List String) (c : String) : List String :=
    if c = ".." then cs.dropLast else cs ++ [c]
  Path.ofSteps true ((Path.steps (Path.join places.current path)).foldl back [])

/-- What is found in the file of a store. -/
def readStore (path : String) : IO StoreState := do
  match ← readFileState path with
  | .absent =>
      match ← (IO.FS.realPath (Path.parent path)).toBaseIO with
      | .ok _ => return .absent
      | .error _ => return .unusable
  | .unreadable => return .unusable
  | .text s =>
      if isBlankFile s then return .blank
      else
        match (Json.read? s).bind Store.ofImage? with
        | some store => return .store store
        | none => return .unusable

/-- Keeps a store in a file. -/
def writeStore (path : String) (s : Store) : IO Unit :=
  IO.FS.writeFile path s.image.text

/-- The machine as the host of the program. -/
def machine (places : Places) : Host IO where
  places := places
  read := readFileState
  makeDirectory := makeDirectory
  readStore path := readStore (storePath places path)
  writeStore path := writeStore (storePath places path)

/-- The environment variables that a run can ask for: those of the options, those that choose
places, and those that the file with variables refers to. -/
def machineEnvironment : IO Environment := do
  let file ← readFileState CommandLine.environmentFile
  let referred :=
    match file with
    | .text s => Environment.references s.toList
    | _ => []
  let names := CommandLine.globalOptions.map fun o => CommandLine.variableOf o.name
  (["HOME", "XDG_DATA_HOME"] ++ names ++ referred).eraseDups.filterMapM fun name => do
    return (← IO.getEnv name).map fun value => (name, value)

/-- Shows the result of a run: the exit status. -/
def report (r : CommandLine.Result) : IO UInt32 := do
  match r with
  | .printed j => IO.println j.pretty; return 0
  | .raw s => IO.print s; return 0
  | .failed message => IO.eprintln ("\n" ++ CommandLine.failureLead ++ message ++ "\n"); return 1
  | .usage => IO.eprint CommandLine.helpText; return 2

end CoachLedger

open CoachLedger in
/-- Runs the program with the given arguments. -/
def main (args : List String) : IO UInt32 := do
  let home := (← IO.getEnv "HOME").getD "/"
  let current := (← IO.currentDir).toString
  let env ← machineEnvironment
  report (← CommandLine.run (machine (.standard home current)) env args)
