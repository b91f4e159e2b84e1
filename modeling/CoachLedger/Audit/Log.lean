/-
**The audit log.**

Every audited change is a row of the audit log, which only ever grows.  A row says who did what to
what, and keeps the two fragments of the change as JSON texts; a fragment that is null is kept as
nothing.

The time at which a row is written, `created_at`, is left out of the rows: a clock gives it, and a
row is listed with the time that was returned for it.  A page is ordered by these times, and by the
numbers where they are equal.  The numbers grow with every row, so that for every clock that does
not go back this is the order of the numbers, in which the rows are kept; see `Log.IsPage`.

Main definitions:

* `CoachLedger.Audit.Entry`, `CoachLedger.Audit.Row` — what is logged, and the row that shows it;
* `CoachLedger.Audit.Log` — logs;
* `CoachLedger.Audit.Log.append` — the log with one more row;
* `CoachLedger.Audit.Log.list` — a page of the log, newest first.
-/

import CoachLedger.Audit.Change
import CoachLedger.Json.Reader

set_option autoImplicit false

namespace CoachLedger.Audit

/-- What is logged. -/
structure Entry where
  actor : String
  action : String
  entityName : String
  entityId : Option String
  description : Option String

/-- A row of the log as it is shown. -/
structure Row where
  id : Nat
  entry : Entry
  oldValues : Option Json
  newValues : Option Json

/-- A row of the log as it is kept. -/
structure StoredRow where
  id : Nat
  entry : Entry
  oldText : Option String
  newText : Option String

/-- The text that keeps a JSON value; null is kept as nothing. -/
def keptText (j : Json) : Option String :=
  if j.isNull then none else some j.text

/-- The JSON value of a kept text; a text that is not JSON counts as nothing. -/
def ofKeptText (s : Option String) : Option Json :=
  s.bind Json.read?

/-- A kept row as it is shown. -/
def StoredRow.shown (r : StoredRow) : Row :=
  ⟨r.id, r.entry, ofKeptText r.oldText, ofKeptText r.newText⟩

/-- A log: its rows, newest first, and the last number that was given to a row. -/
structure Log where
  rows : List StoredRow
  lastId : Nat

namespace Log

/-- The log without any row. -/
def empty : Log := ⟨[], 0⟩

/-- The log with a row for an entry and its change, and the row as it is shown. -/
def append (log : Log) (entry : Entry) (change : Option Change) : Row × Log :=
  let id := log.lastId + 1
  let old := change.map Change.old
  let new := change.map Change.new
  (⟨id, entry, old, new⟩,
    ⟨⟨id, entry, old.bind keptText, new.bind keptText⟩ :: log.rows, id⟩)

/-- The rows of a page that has no length of its own. -/
def defaultPage : Nat := 50

/-- Which rows are listed. -/
structure Query where
  limit : Nat
  offset : Nat
  entityName : Option String
  actor : Option String

/-- The row is one that the query asks for. -/
def Query.admits (q : Query) (r : StoredRow) : Bool :=
  q.entityName.all (· == r.entry.entityName) && q.actor.all (· == r.entry.actor)

/-- A page of the rows that a query asks for, newest first. -/
def list (log : Log) (q : Query) : List Row :=
  let limit := if q.limit = 0 then defaultPage else q.limit
  (((log.rows.filter q.admits).drop q.offset).take limit).map StoredRow.shown

end Log

end CoachLedger.Audit
