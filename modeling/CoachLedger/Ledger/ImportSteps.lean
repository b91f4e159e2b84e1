/-
**Imports statement by statement.**

An import reads the records of the coaches in it, puts its records in, reads again and writes the
audit row, all in one transaction, inside of which putting the records in is another one.  Only when
the transaction has ended is the change made known.  Nothing is asked of the engine if an item of
the array is no record.

Main definitions:

* `CoachLedger.Ledger.importSteps` — the work of an import on a connection;
* `CoachLedger.Ledger.importUnder` — imports records while the engine fails some of the statements;
* `CoachLedger.Ledger.importItems` — imports the items of an array.
-/

import CoachLedger.Ledger.Import
import CoachLedger.Store.Connection

set_option autoImplicit false

namespace CoachLedger.Ledger

/-- What an import has done, with the snapshots before and after it. -/
structure Import.Report where
  written : Nat
  row : Audit.Row
  old : Json
  new : Json

/-- Why an import fails. -/
inductive Import.Failure
  /-- The item at a position is no record. -/
  | invalid (position : Nat)
  | store (failure : Store.Failure)
deriving DecidableEq, Repr

/-- The change between the snapshots of an import, whose entries are paired by coach number. -/
def importChange? (l : Ledger) (old new : Json) : Option Audit.Change :=
  Audit.change? { l.options with alignment := .byIdentity } old new

/-- The work of an import, which makes nothing known. -/
def importSteps (l : Ledger) (i : Import) : Work Store.Failure Import.Report :=
  .transaction .engine do
    let before ← Work.get i.kind (coachesOf i.records)
    let written ← Work.upsert i.records
    let after ← Work.get i.kind (coachesOf i.records)
    let old := Record.listToJson before
    let new := Record.listToJson after
    let row ← Work.log i.entry (l.importChange? old new)
    return ⟨written, row, old, new⟩

/-- Imports records statement by statement.  The engine fails those that are marked. -/
def importUnder (l : Ledger) (faults : List Bool) (i : Import) :
    Except Store.Failure (Nat × Audit.Row) × Ledger :=
  match l.importSteps i ⟨l.store, [], faults⟩ with
  | (.error e, c) => (.error e, { l with store := c.tables })
  | (.ok r, c) =>
      (.ok (r.written, r.row), ({ l with store := c.tables } : Ledger).publish r.row r.old r.new)

/-- Imports the items of an array, provided that all of them are records. -/
def importItems (l : Ledger) (faults : List Bool) (kind : RecordKind) (actor source : String)
    (items : List Json) : Except Import.Failure (Nat × Audit.Row) × Ledger :=
  match readRecords kind 0 items with
  | .error position => (.error (.invalid position), l)
  | .ok records =>
      match l.importUnder faults ⟨kind, records, actor, source⟩ with
      | (.error e, l) => (.error (.store e), l)
      | (.ok done, l) => (.ok done, l)

end CoachLedger.Ledger
