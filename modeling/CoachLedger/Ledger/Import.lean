/-
**Imports.**

An import puts the records of a JSON array into the store and audits the difference that it makes
to the records of the coaches in it.  Entries of the two snapshots are paired by coach number,
because new coaches move the others.

Main definitions:

* `CoachLedger.Ledger.Import` — what is imported;
* `CoachLedger.Ledger.readRecords` — the records of the items of an array;
* `CoachLedger.Ledger.importAll` — imports records.
-/

import CoachLedger.Ledger.Basic

set_option autoImplicit false

namespace CoachLedger.Ledger

/-- The records of the items of an array, or the position of the first item that is none. -/
def readRecords (kind : RecordKind) (position : Nat) : List Json → Except Nat (List Record)
  | [] => .ok []
  | j :: js =>
      match Record.ofJson kind j with
      | .error _ => .error position
      | .ok r =>
          match readRecords kind (position + 1) js with
          | .ok rs => .ok (r :: rs)
          | .error i => .error i

/-- The coach numbers of records, each once, in ascending order. -/
def coachesOf (rs : List Record) : List String :=
  (rs.filterMap Record.identity?).eraseDups.mergeSort fun a b => (Text.order a b).isLE

/-- What is imported. -/
structure Import where
  kind : RecordKind
  records : List Record
  actor : String
  /-- Where the records come from. -/
  source : String

/-- The entry that audits an import. -/
def Import.entry (i : Import) : Audit.Entry :=
  ⟨i.actor, "import", i.kind.table, none,
    some (toString i.records.length ++ " records from " ++ i.source)⟩

/-- Imports records: counts the rows that were written, and audits them. -/
def importAll (l : Ledger) (i : Import) : Except Store.Failure ((Nat × Audit.Row) × Ledger) :=
  let coaches := coachesOf i.records
  let before := l.store.get i.kind coaches
  match l.store.upsert i.records with
  | .error e => .error e
  | .ok (written, store) =>
      let after := store.get i.kind coaches
      let old := Record.listToJson before
      let new := Record.listToJson after
      match ({ l with store := store } : Ledger).record i.entry (some .byIdentity) old new with
      | .error e => .error e
      | .ok (row, l) => .ok ((written, row), l)

end CoachLedger.Ledger
