/-
**Images of stores.**

Between two runs of the program a store is kept as a text: its image in JSON.  Cells stand for
themselves, but a real is the array of its sign and its rank, so that nothing is lost in printing.

Main definitions:

* `CoachLedger.Store.image` — the image of a store;
* `CoachLedger.Store.ofImage?` — the store of an image.
-/

import CoachLedger.Store.Basic

set_option autoImplicit false

namespace CoachLedger.Store

open CoachLedger.Sql (Cell)

/-! ### Cells and rows -/

/-- The image of a cell. -/
def cellToJson : Cell → Json
  | .null => .null
  | .integer i => .ofInt i
  | .real negative rank => .array [.bool negative, .number (.integer rank.val)]
  | .text s => .string s

/-- The cell of an image. -/
def cellOfJson? : Json → Option Cell
  | .null => some .null
  | .number (.integer i) => some (.integer i)
  | .array [.bool negative, .number (.integer rank)] =>
      if h : rank.toNat < Binary64.topRank + 1 then some (.real negative ⟨rank.toNat, h⟩)
      else none
  | .string s => some (.text s)
  | _ => none

/-- The image of a row. -/
def rowToJson (row : Cells) : Json :=
  .array (row.map cellToJson)

/-- The row of an image, which has a cell for each field of the kind. -/
def rowOfJson? (kind : RecordKind) : Json → Option Cells
  | .array items => (items.mapM cellOfJson?).filter fun row => row.length == kind.fields.length
  | _ => none

/-- The rows of an image. -/
def rowsOfJson? (kind : RecordKind) : Json → Option (List Cells)
  | .array items => items.mapM (rowOfJson? kind)
  | _ => none

/-! ### The audit log -/

/-- The image of a row of the audit log. -/
def auditRowToJson (r : Audit.StoredRow) : Json :=
  .array
    [.ofNat r.id, .string r.entry.actor, .string r.entry.action, .string r.entry.entityName,
      Json.ofOption r.entry.entityId, Json.ofOption r.entry.description, Json.ofOption r.oldText,
      Json.ofOption r.newText]

/-- An optional text. -/
def textOfJson? : Json → Option (Option String)
  | .null => some none
  | .string s => some (some s)
  | _ => none

/-- The row of the audit log of an image. -/
def auditRowOfJson? : Json → Option Audit.StoredRow
  | .array
      [.number (.integer id), .string actor, .string action, .string entityName, entityId,
        description, oldText, newText] => do
      let entityId ← textOfJson? entityId
      let description ← textOfJson? description
      let oldText ← textOfJson? oldText
      let newText ← textOfJson? newText
      some ⟨id.toNat, ⟨actor, action, entityName, entityId, description⟩, oldText, newText⟩
  | _ => none

/-- The image of the audit log. -/
def logToJson (l : Audit.Log) : Json :=
  .array [.ofNat l.lastId, .array (l.rows.map auditRowToJson)]

/-- The audit log of an image; null is no log. -/
def logOfJson? : Json → Option (Option Audit.Log)
  | .null => some none
  | .array [.number (.integer lastId), .array rows] =>
      (rows.mapM auditRowOfJson?).map fun rows => some ⟨rows, lastId.toNat⟩
  | _ => none

/-! ### Stores -/

/-- The image of a version. -/
def versionToJson (v : Option Int) : Json :=
  match v with
  | some i => .ofInt i
  | none => .null

/-- The version of an image. -/
def versionOfJson? : Json → Option (Option Int)
  | .null => some none
  | .number (.integer i) => some (some i)
  | _ => none

/-- The image of a store. -/
def image (s : Store) : Json :=
  .object
    [("version", versionToJson s.version), ("master", .array (s.master.map rowToJson)),
      ("history", .array (s.history.map rowToJson)), ("lastHistoryId", .ofInt s.lastHistoryId),
      ("audit", (s.audit.map logToJson).getD .null)]

/-- The store of an image. -/
def ofImage? : Json → Option Store
  | .object
      [("version", version), ("master", master), ("history", history),
        ("lastHistoryId", .number (.integer lastHistoryId)), ("audit", audit)] => do
      let version ← versionOfJson? version
      let master ← rowsOfJson? .master master
      let history ← rowsOfJson? .history history
      let audit ← logOfJson? audit
      some ⟨master, history, lastHistoryId, audit, version⟩
  | _ => none

end CoachLedger.Store
