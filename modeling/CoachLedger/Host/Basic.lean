/-
**The host of the program.**

The program reads files and keeps stores in them.  What it asks of its surroundings is a small
structure of operations in some monad, so that the same program runs on a real machine and on a
disk that is a value.

Main definitions:

* `CoachLedger.FileState`, `CoachLedger.StoreState` — what is found under a path;
* `CoachLedger.Host` — the operations;
* `CoachLedger.Locator.opened?` — the store that is opened at a place;
* `CoachLedger.Host.openStore` — opens the store of a path;
* `CoachLedger.Host.keepStore` — keeps a store that has changed.
-/

import CoachLedger.Host.Locator
import CoachLedger.Host.Path
import CoachLedger.Store.Basic

set_option autoImplicit false

namespace CoachLedger

/-- What is found under a path. -/
inductive FileState
  | absent
  /-- Something that is not a text. -/
  | unreadable
  | text (s : String)
deriving DecidableEq, Repr

/-- What is found under the path of a store. -/
inductive StoreState
  /-- There is nothing, but a file can be made. -/
  | absent
  /-- A file without content. -/
  | blank
  | store (s : Store)
  /-- Something that is no store. -/
  | unusable

/-- A file of at most one byte counts as one without content. -/
def isBlankFile (s : String) : Bool := s.utf8ByteSize ≤ 1

/-- What the program asks of its surroundings. -/
structure Host (m : Type → Type) where
  places : Places
  /-- Reads the text under a path. -/
  read : String → m FileState
  /-- Makes a directory, and those on the way to it, and says whether there is one then. -/
  makeDirectory : String → m Bool
  /-- Looks for a store under a path. -/
  readStore : String → m StoreState
  /-- Keeps a store under a path. -/
  writeStore : String → Store → m Unit

/-! ### Opening and keeping stores -/

/-- The store that is opened at a place: the one that is found, or a new one. -/
def Locator.opened? (l : Locator) : StoreState → Option Store
  | .absent => if l.mayCreate && !l.isReadOnly then some .fresh else none
  | .blank => if l.isReadOnly then none else some .fresh
  | .store s => if l.keepsLog then some s else none
  | .unusable => none

namespace Host

variable {m : Type → Type} [Monad m]

/-- What is found at a place; in memory there is nothing yet. -/
def find (host : Host m) (l : Locator) : m StoreState :=
  match l.file with
  | some file => host.readStore file
  | none => return .blank

/-- Keeps a store at a place, and says whether it may be changed; in memory it is gone after the
run. -/
def keepStore (host : Host m) (l : Locator) (s : Store) : m Bool := do
  if l.isReadOnly then return false
  match l.file with
  | some file => host.writeStore file s
  | none => pure ()
  return true

/-- Opens the store of a path, in a directory that is made if needed: where it is, and the store.
A new store is kept at once. -/
def openStore (host : Host m) (path : String) : m (Option (Locator × Store)) := do
  if !(← host.makeDirectory (Path.parent path)) then return none
  match Locator.read? path with
  | none => return none
  | some l =>
      match l.opened? (← host.find l) with
      | none => return none
      | some s =>
          match s.checkVersion with
          | .error _ => return none
          | .ok _ => do
              let _ ← host.keepStore l s
              return some (l, s)

end Host

end CoachLedger
