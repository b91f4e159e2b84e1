/-
**A disk as a value.**

The files that the program can see, as a list from absolute paths to contents.  A directory exists
if it is listed or if something lies below it.  Files are read by following a path from the root,
component by component; each component but the last has to be a directory.  The path of a store is
different: it is first made free of `..`, which takes back the component before it whether that
exists or not.

Main definitions:

* `CoachLedger.Disk` — disks;
* `CoachLedger.Disk.walk` — the place that a path leads to;
* `CoachLedger.Disk.makeDirectories` — makes the directories of a path;
* `CoachLedger.Disk.storePlace?` — the place that the path of a store leads to;
* `CoachLedger.Disk.host` — a disk as the host of the program.
-/

import CoachLedger.Host.Basic

set_option autoImplicit false

namespace CoachLedger

/-- A place on a disk: the components of its path from the root. -/
abbrev Place := List String

/-- What is at a place. -/
inductive DiskEntry
  | directory
  | text (s : String)
  | store (s : Store)

/-- A disk. -/
structure Disk where
  entries : List (Place × DiskEntry)

namespace Disk

/-- What is at a place; a directory need not be listed if something lies below it. -/
def entryAt? (d : Disk) (p : Place) : Option DiskEntry :=
  match d.entries.lookup p with
  | some e => some e
  | none =>
      if p = [] ∨ d.entries.any fun e => p.isPrefixOf e.1 then some .directory else none

/-- The place is a directory. -/
def isDirectory (d : Disk) (p : Place) : Bool :=
  match d.entryAt? p with
  | some .directory => true
  | _ => false

/-- The place is a file. -/
def isFile (d : Disk) (p : Place) : Bool :=
  match d.entryAt? p with
  | some (.text _) | some (.store _) => true
  | _ => false

/-- The disk with something at a place. -/
def withEntry (d : Disk) (p : Place) (e : DiskEntry) : Disk :=
  ⟨(p, e) :: d.entries.filter fun e => e.1 != p⟩

/-! ### Following paths -/

/-- The longest name of a file, in bytes. -/
def maxName : Nat := 255

/-- The component can be the name of a file. -/
def isName (c : String) : Bool := c.utf8ByteSize ≤ maxName && !c.toList.contains '\x00'

/-- The place that the components of a path lead to from another place. -/
def walk (d : Disk) (start : Place) : List String → Option Place
  | [] => some start
  | c :: cs =>
      if !d.isDirectory start then none
      else if !Path.isStep c then walk d start cs
      else if c = ".." then walk d start.dropLast cs
      else if isName c then walk d (start ++ [c]) cs
      else none

/-- The components of a path from the root. -/
def fromRoot (places : Places) (path : String) : List String :=
  Path.components (Path.join places.current path)

/-- What is found under a path. -/
def read (d : Disk) (places : Places) (path : String) : FileState :=
  match (d.walk [] (fromRoot places path)).bind d.entryAt? with
  | some (.text s) => .text s
  | some _ => .unreadable
  | none => .absent

/-- Makes the directories of a path from a directory, and says whether there was nothing else in
the way. -/
def makeDirectories (d : Disk) (start : Place) : List String → Bool × Disk
  | [] => (true, d)
  | c :: cs =>
      if !Path.isStep c then makeDirectories d start cs
      else if c = ".." then makeDirectories d start.dropLast cs
      else
        let p := start ++ [c]
        match d.entryAt? p with
        | some .directory => makeDirectories d p cs
        | some _ => (false, d)
        | none =>
            if isName c then makeDirectories (d.withEntry p .directory) p cs else (false, d)

/-! ### Stores -/

/-- The longest path of a store from the root, in bytes. -/
def maxStorePath : Nat := 504

/-- The longest name of a store, in bytes: files beside it have longer names. -/
def maxStoreName : Nat := 247

/-- The length of the path of a place, in bytes. -/
def lengthOf (p : Place) : Nat := p.foldl (fun n c => n + c.utf8ByteSize + 1) 0

/-- The place that the components of the path of a store lead to from another place, without
passing a file. -/
def storeWalk (d : Disk) (start : Place) : List String → Option Place
  | [] => some start
  | c :: cs =>
      if !Path.isStep c then storeWalk d start cs
      else if c = ".." then storeWalk d start.dropLast cs
      else if d.isFile start || !isName c then none
      else storeWalk d (start ++ [c]) cs

/-- A store can be at the place. -/
def holdsStore (d : Disk) (p : Place) : Bool :=
  d.isDirectory p.dropLast && p.getLast?.all (fun c => c.utf8ByteSize ≤ maxStoreName) &&
    lengthOf p ≤ maxStorePath

/-- The place that the path of a store leads to. -/
def storePlace? (d : Disk) (places : Places) (path : String) : Option Place :=
  (d.storeWalk [] (fromRoot places path)).filter d.holdsStore

/-- What is found at the place of a store. -/
def storeAt (d : Disk) (p : Place) : StoreState :=
  match d.entryAt? p with
  | none => .absent
  | some (.text s) => if isBlankFile s then .blank else .unusable
  | some (.store s) => .store s
  | some .directory => .unusable

/-- A disk as the host of the program. -/
def host (places : Places) : Host (StateM Disk) where
  places := places
  read path := do return (← get).read places path
  makeDirectory path := modifyGet fun d => d.makeDirectories [] (fromRoot places path)
  readStore path := do
    let d ← get
    return ((d.storePlace? places path).map d.storeAt).getD .unusable
  writeStore path s := modify fun d =>
    match d.storePlace? places path with
    | some p => d.withEntry p (.store s)
    | none => d

end Disk

end CoachLedger
