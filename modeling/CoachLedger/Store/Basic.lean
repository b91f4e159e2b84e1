/-
**The store.**

The store holds a table of master records, a table of history records and the audit log.  This
module has its state, its failures, and writing: records are put into the tables by key, and one
field of all records of some coaches can be set.  A write either succeeds or changes nothing.

Main definitions:

* `CoachLedger.Store` — the state of a store;
* `CoachLedger.Store.Failure` — why an operation fails;
* `CoachLedger.Store.upsert` — puts records into the store;
* `CoachLedger.Store.update` — sets one field of the records of some coaches.
-/

import CoachLedger.Audit.Log
import CoachLedger.Store.Table

set_option autoImplicit false

namespace CoachLedger

open CoachLedger.Sql (Cell)

/-- The state of a store. -/
structure Store where
  /-- The master records in the order of the coach numbers. -/
  master : List Store.Cells
  /-- The history records in the order of their numbers. -/
  history : List Store.Cells
  /-- The largest number that a history record ever had, at least zero. -/
  lastHistoryId : Int
  /-- The audit log, unless it was removed. -/
  audit : Option Audit.Log
  /-- The version that the store is stamped with, if any. -/
  version : Option Int

namespace Store

/-- Why an operation on the store fails. -/
inductive Failure
  /-- The storage engine fails. -/
  | engine
  /-- The store has a version from which there is no way to the present one. -/
  | noUpgrade (version : Int)
  | record (error : RecordError)
  | unknownColumn (kind : RecordKind) (column : String)
  | readOnlyColumn (kind : RecordKind) (column : String)
deriving DecidableEq, Repr

/-- The message of a failure; what the storage engine says is its own affair. -/
def Failure.message? : Failure → Option String
  | engine => none
  | noUpgrade version =>
      some ("Migration 1 (initial_schema) failed on sqlite: No upgrade path from schema version " ++
        toString version)
  | record error => some ("Invalid record: " ++ error.message)
  | unknownColumn kind column =>
      some ("Unknown column '" ++ column ++ "' for " ++ kind.name ++ " records")
  | readOnlyColumn kind column =>
      some ("Column '" ++ column ++ "' of " ++ kind.name ++ " records cannot be updated")

/-- The present version. -/
def currentVersion : Int := 1

/-- A new store. -/
def fresh : Store := ⟨[], [], 0, some .empty, some currentVersion⟩

/-- The rows of a kind. -/
def rows (s : Store) : RecordKind → List Cells
  | .master => s.master
  | .history => s.history

/-- The store with other rows of a kind. -/
def withRows (s : Store) (kind : RecordKind) (rows : List Cells) : Store :=
  match kind with
  | .master => { s with master := rows }
  | .history => { s with history := rows }

/-- The bounds of the versions that can be read. -/
def maxVersion : Int := 0x7FFFFFFF

/-- Checks the version of a store that is opened; a newer one will do. -/
def checkVersion (s : Store) : Except Failure Unit :=
  let version := s.version.getD 0
  if version < -maxVersion - 1 ∨ maxVersion < version then .error .engine
  else if version < currentVersion then .error (.noUpgrade version)
  else .ok ()

/-! ### Putting records in -/

/-- The engine refuses a coach number that starts with NUL, since it takes its length for zero. -/
def acceptsCoach (r : Record) : Bool :=
  match r.get CoachLedger.identityField with
  | .text s => (s.toList.head?).any fun c => c.toNat != 0
  | _ => true

/-- The key of a record that is put in: its coach number, or the number of a history record,
which is a new one if the record has none. -/
def keyFor (s : Store) (r : Record) (cells : List (Option Cell)) : Option Cell :=
  match r.kind with
  | .master => some (cellFor .text (r.get CoachLedger.identityField))
  | .history =>
      match (((r.kind.index? r.kind.keyField).bind fun i => cells[i]?).join).getD .null with
      | .integer i => some (.integer i)
      | .null =>
          if s.lastHistoryId < Cell.maxInteger then some (.integer (s.lastHistoryId + 1)) else none
      | _ => none

/-- The record needs a number, and the greatest one has been used. -/
def isOutOfNumbers (s : Store) (r : Record) : Bool :=
  match r.kind with
  | .master => false
  | .history =>
      (((r.kind.index? r.kind.keyField).bind fun i => (encode r)[i]?).join).getD .null = .null ∧
        Cell.maxInteger ≤ s.lastHistoryId

/-- A key counts as used. -/
def useKey (s : Store) (kind : RecordKind) (key : Cell) : Store :=
  match kind, key with
  | .history, .integer i => { s with lastHistoryId := max s.lastHistoryId i }
  | _, _ => s

/-- The record sets a field besides the key. -/
def setsMore (r : Record) : Bool :=
  r.entries.any fun e => e.1 != r.kind.keyField

/-- The cells with the key in its column. -/
def withKey (kind : RecordKind) (key : Cell) (row : Cells) : Cells :=
  match kind.index? kind.keyField with
  | some i => row.set i key
  | none => row

/-- Puts one record in: its fields replace those of the row with its key, or form a new row.  The
count is zero if there is such a row and the record has nothing but the key. -/
def upsertOne (s : Store) (r : Record) : Except Failure (Nat × Store) :=
  if r.identity?.isNone then .error (.record (.missingIdentity r.kind))
  else if !acceptsCoach r then .error .engine
  else
    let cells := encode r
    match keyFor s r cells with
    | none => .error .engine
    | some key =>
        let rows := s.rows r.kind
        let update := fun row => withKey r.kind key (overlay cells row)
        let count := if hasKey r.kind key rows && !setsMore r then 0 else 1
        .ok (count,
          (s.withRows r.kind (putRow r.kind key update (update (blank r.kind)) rows)).useKey
            r.kind key)

/-- Puts records in one after the other, and counts the rows that were written. -/
def upsertFrom (s : Store) (count : Nat) : List Record → Except Failure (Nat × Store)
  | [] => .ok (count, s)
  | r :: rs =>
      match s.upsertOne r with
      | .ok (n, s) => s.upsertFrom (count + n) rs
      | .error e => .error e

/-- Puts records in one after the other, all or none. -/
def upsert (s : Store) (rs : List Record) : Except Failure (Nat × Store) :=
  s.upsertFrom 0 rs

/-! ### Setting one field -/

/-- A list cut into pieces of the given length, the last one possibly shorter. -/
def chunks {α : Type} (size : Nat) (l : List α) : List (List α) :=
  if _h : 0 < size ∧ l ≠ [] then l.take size :: chunks size (l.drop size) else []
termination_by l.length
decreasing_by
  have : 0 < l.length := List.length_pos_iff.2 _h.2
  simp only [List.length_drop]
  omega

/-- The largest number of parameters of one statement. -/
def maxBound : Nat := 900

/-- The rows with one cell set in those of the given coaches. -/
def setCell (kind : RecordKind) (coaches : List String) (index : Nat) (cell : Cell)
    (rows : List Cells) : List Cells :=
  rows.map fun row => if isOneOf kind coaches row then row.set index cell else row

/-- Sets one cell in the rows of coaches, statement by statement, and counts the rows of each. -/
def setCells (kind : RecordKind) (index : Nat) (cell : Cell) (count : Nat) (rows : List Cells) :
    List (List String) → Nat × List Cells
  | [] => (count, rows)
  | coaches :: rest =>
      setCells kind index cell (count + rows.countP (isOneOf kind coaches))
        (setCell kind coaches index cell rows) rest

/-- Sets one field of all records of the given coaches, and counts the rows.  The value is one of
the statement's parameters. -/
def update (s : Store) (kind : RecordKind) (coaches : List String) (field : String) (v : Value) :
    Except Failure (Nat × Store) :=
  match Record.check kind field v with
  | .error e => .error (.record e)
  | .ok _ =>
      if field = CoachLedger.identityField ∨ field = kind.keyField then
        .error (.readOnlyColumn kind field)
      else
        match kind.field? field, kind.index? field with
        | some f, some i =>
            let (count, rows) :=
              setCells kind i (cellFor f.kind v) 0 (s.rows kind) (chunks (maxBound - 1) coaches)
            .ok (count, s.withRows kind rows)
        | _, _ => .error (.unknownColumn kind field)

/-! ### The audit log -/

/-- Appends an entry to the audit log. -/
def log (s : Store) (entry : Audit.Entry) (change : Option Audit.Change) :
    Except Failure (Audit.Row × Store) :=
  match s.audit with
  | none => .error .engine
  | some l =>
      let (row, l) := l.append entry change
      .ok (row, { s with audit := some l })

/-- A page of the audit log. -/
def listLog (s : Store) (q : Audit.Log.Query) : Except Failure (List Audit.Row) :=
  match s.audit with
  | none => .error .engine
  | some l => .ok (l.list q)

end Store

end CoachLedger
