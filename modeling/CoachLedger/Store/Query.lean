/-
**Reading from the store.**

Records are read by the numbers of their coaches or by a predicate, and come in the order of their
keys.  A search goes over the rows in that order and stops when its page is full.

Main definitions:

* `CoachLedger.Store.get` — the records of some coaches;
* `CoachLedger.Store.search`, `CoachLedger.Store.count` — the records that a predicate selects, and
  their number.
-/

import CoachLedger.Store.Basic

set_option autoImplicit false

namespace CoachLedger.Store

open CoachLedger.Sql (Cell)

/-! ### By coach number -/

/-- A row goes before another if its cell in a column is not the greater one. -/
def cellLE (a b : Cell) : Bool :=
  match a.compare b with
  | some o => o.isLE
  | none => true

/-- The rows of some coaches in the order of the coach numbers. -/
def rowsOf (kind : RecordKind) (rows : List Cells) (coaches : List String) : List Cells :=
  (rows.filter (isOneOf kind coaches)).mergeSort fun a b => cellLE (coachOf kind a) (coachOf kind b)

/-- A record goes before another if its key is not the greater one. -/
def keyLE (kind : RecordKind) (a b : Record) : Bool :=
  match (a.get kind.keyField).compare (b.get kind.keyField) with
  | some o => o.isLE
  | none => true

/-- The records of some coaches in the order of their keys. -/
def get (s : Store) (kind : RecordKind) (coaches : List String) : List Record :=
  let found := (chunks maxBound coaches).flatMap (rowsOf kind (s.rows kind))
  (found.map (decode kind)).mergeSort (keyLE kind)

/-! ### By predicate -/

/-- The first column of a predicate that is no field of the kind. -/
def foreignColumn? (kind : RecordKind) (p : Predicate) : Option String :=
  p.columns.find? fun column => !kind.has column

/-- The condition of a predicate, provided that the kind has its columns and the engine accepts
it. -/
def conditionFor (kind : RecordKind) (p : Predicate) : Except Failure Sql.Condition :=
  match foreignColumn? kind p with
  | some column => .error (.unknownColumn kind column)
  | none =>
      let c := Sql.Condition.ofPredicate p
      if c.fits then .ok c else .error .engine

/-- The first rows that a condition selects, as many as wanted. -/
def scan (kind : RecordKind) (c : Sql.Condition) : Nat → List Cells → Except Failure (List Cells)
  | 0, _ => .ok []
  | _, [] => .ok []
  | wanted + 1, row :: rows =>
      if c.overruns (rowView kind row) false then .error .engine
      else if c.selects (rowView kind row) then
        match scan kind c wanted rows with
        | .ok found => .ok (row :: found)
        | .error e => .error e
      else scan kind c (wanted + 1) rows

/-- A page of the records that a predicate selects. -/
def search (s : Store) (kind : RecordKind) (p : Predicate) (limit offset : Nat) :
    Except Failure (List Record) :=
  match conditionFor kind p with
  | .error e => .error e
  | .ok c =>
      match scan kind c (if limit = 0 then 0 else offset + limit) (s.rows kind) with
      | .error e => .error e
      | .ok found => .ok ((found.drop offset).map (decode kind))

/-- The number of records that a predicate selects. -/
def count (s : Store) (kind : RecordKind) (p : Predicate) : Except Failure Nat :=
  match conditionFor kind p with
  | .error e => .error e
  | .ok c =>
      match scan kind c (s.rows kind).length (s.rows kind) with
      | .error e => .error e
      | .ok found => .ok found.length

end CoachLedger.Store
