/-
**Tables of stored records.**

The records of a kind are the rows of a table, each with one cell per field of the kind.  The rows
stand in the order of their keys, which are distinct.

Main definitions:

* `CoachLedger.Store.Cells` — a row;
* `CoachLedger.Store.encode`, `CoachLedger.Store.overlay`, `CoachLedger.Store.decode` — records as
  rows, rows changed by records, and rows as records;
* `CoachLedger.Store.putRow` — a table with a row added or changed;
* `CoachLedger.Store.rowView` — a row as SQL conditions look at it.

Main results:

* `CoachLedger.Store.length_overlay` — a record does not change the width of a row.
-/

import CoachLedger.Record.Basic
import CoachLedger.Sql.Truth

set_option autoImplicit false

namespace CoachLedger.Store

open CoachLedger.Sql (Cell Affinity)

/-- A row: one cell for each field of the kind, in the order of the fields. -/
abbrev Cells := List Cell

/-- The cell of a column of a row. -/
def cellAt (kind : RecordKind) (row : Cells) (column : String) : Cell :=
  ((kind.index? column).bind fun i => row[i]?).getD .null

/-- The cell that holds the key of a row. -/
def keyOf (kind : RecordKind) (row : Cells) : Cell :=
  cellAt kind row kind.keyField

/-- The affinity of a column. -/
def affinityOf (kind : RecordKind) (column : String) : Affinity :=
  match kind.field? column with
  | some f => .ofKind f.kind
  | none => .text

/-- A row as SQL conditions look at it. -/
def rowView (kind : RecordKind) (row : Cells) : Sql.Row :=
  ⟨cellAt kind row, affinityOf kind⟩

/-! ### Records and rows -/

/-- The cell of a field value in a column of the given kind. -/
def cellFor (k : Kind) (v : Value) : Cell :=
  (Cell.ofValue v).stored (.ofKind k)

/-- The cells of a record; a field that was not set has none. -/
def encode (r : Record) : List (Option Cell) :=
  List.zipWith (fun (f : Field) slot => slot.map (cellFor f.kind)) r.kind.fields r.slots

/-- A row with the cells that are given in place of its own. -/
def overlay (cells : List (Option Cell)) (row : Cells) : Cells :=
  List.zipWith (fun (c : Option Cell) old => c.getD old) cells row

/-- A record does not change the width of a row. -/
theorem length_overlay (cells : List (Option Cell)) (row : Cells)
    (h : cells.length = row.length) : (overlay cells row).length = row.length := by
  simp [overlay, h]

/-- A row without any value. -/
def blank (kind : RecordKind) : Cells :=
  List.replicate kind.fields.length .null

/-- The value of a cell, unless it is null. -/
def slotOf (k : Kind) (c : Cell) : Option Value :=
  let v := c.toValue k
  if v.isNull then none else some v

/-- The record of a row. -/
def decode (kind : RecordKind) (row : Cells) : Record :=
  ⟨kind, (kind.fields.zipIdx).map fun p => slotOf p.1.kind (row[p.2]?.getD .null), by simp⟩

/-! ### Rows of a table -/

/-- The table has a row with the given key. -/
def hasKey (kind : RecordKind) (key : Cell) (rows : List Cells) : Bool :=
  rows.any fun row => keyOf kind row == key

/-- The rows with the row of a key updated, or a fresh row put in its place in the order. -/
def putRow (kind : RecordKind) (key : Cell) (update : Cells → Cells) (fresh : Cells) :
    List Cells → List Cells
  | [] => [fresh]
  | row :: rows =>
      match (keyOf kind row).compare key with
      | some .lt => row :: putRow kind key update fresh rows
      | some .eq => update row :: rows
      | _ => fresh :: row :: rows

/-- The number of the coach in a row. -/
def coachOf (kind : RecordKind) (row : Cells) : Cell :=
  cellAt kind row CoachLedger.identityField

/-- The row is one of a coach with one of the given numbers. -/
def isOneOf (kind : RecordKind) (coaches : List String) (row : Cells) : Bool :=
  match coachOf kind row with
  | .text s => coaches.contains s
  | _ => false

end CoachLedger.Store
