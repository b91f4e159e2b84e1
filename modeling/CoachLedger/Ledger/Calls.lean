/-
**Calls on a ledger.**

A ledger is called to record a change, to run a workflow, to import a document, to write to the
tables, or to read from them.  Each call sends its statements to the engine, which may fail any of
them, and calls follow one another on the same ledger whether they succeed or not.

Main definitions:

* `CoachLedger.Work.read`, `CoachLedger.Work.search`, `CoachLedger.Work.count`,
  `CoachLedger.Work.list` — reading statement by statement;
* `CoachLedger.Ledger.recordUnder`, `CoachLedger.Ledger.importDocument` — recording a change and
  importing a document while the engine fails some of the statements;
* `CoachLedger.Ledger.Call`, `CoachLedger.Ledger.Answer` — calls and their answers;
* `CoachLedger.Ledger.perform`, `CoachLedger.Ledger.performAll` — a call, and calls one after the
  other.

Main results:

* `CoachLedger.Ledger.performAll_append` — calls after calls.
-/

import CoachLedger.Ledger.ImportSteps
import CoachLedger.Ledger.Steps

set_option autoImplicit false

namespace CoachLedger

/-! ### Reading statement by statement -/

namespace Work

/-- One statement that leaves the tables alone. -/
def read {α : Type} (f : Store → Except Store.Failure α) : Work Store.Failure α :=
  statement .engine fun s => (f s).map fun a => (a, s)

/-- A page of the records that a predicate selects.  The engine is not asked about a column that is
no field of the kind. -/
def search (kind : RecordKind) (p : Predicate) (limit offset : Nat) :
    Work Store.Failure (List Record) :=
  match Store.foreignColumn? kind p with
  | some column => fail (.unknownColumn kind column)
  | none => read fun s => s.search kind p limit offset

/-- The number of records that a predicate selects. -/
def count (kind : RecordKind) (p : Predicate) : Work Store.Failure Nat :=
  match Store.foreignColumn? kind p with
  | some column => fail (.unknownColumn kind column)
  | none => read fun s => s.count kind p

/-- A page of the audit log. -/
def list (q : Audit.Log.Query) : Work Store.Failure (List Audit.Row) :=
  read fun s => s.listLog q

end Work

namespace Ledger

/-- Work on the tables of a ledger, where no transaction is open.  The engine fails the statements
that are marked. -/
def onTables {ε α : Type} (l : Ledger) (faults : List Bool) (w : Work ε α) :
    Except ε α × Ledger :=
  let r := w ⟨l.store, [], faults⟩
  (r.1, { l with store := r.2.tables })

/-- The change between two snapshots that an entry audits.  Another alignment than that of the ledger
may be given. -/
def changeFor (l : Ledger) (alignment : Option Audit.Alignment) (old new : Json) :
    Option Audit.Change :=
  Audit.change? { l.options with alignment := alignment.getD l.options.alignment } old new

/-- Appends the audit row of an entry and makes it known. -/
def recordUnder (l : Ledger) (faults : List Bool) (entry : Audit.Entry)
    (alignment : Option Audit.Alignment) (old new : Json) :
    Except Store.Failure Audit.Row × Ledger :=
  match l.onTables faults (.log entry (l.changeFor alignment old new)) with
  | (.ok row, l) => (.ok row, l.publish row old new)
  | (.error e, l) => (.error e, l)

/-! ### Calls -/

/-- What a ledger is called to do.  Only records whose values have the kinds of their fields can be
put in. -/
inductive Call
  /-- Audits the change between two snapshots. -/
  | record (entry : Audit.Entry) (alignment : Option Audit.Alignment) (old new : Json)
  | run (request : Workflow.Request)
  | importing (kind : RecordKind) (actor source : String) (document : Json)
  | upsert (records : List Record) (valid : ∀ r ∈ records, r.IsValid)
  | update (kind : RecordKind) (coaches : List String) (field : String) (v : Value)
  | search (kind : RecordKind) (p : Predicate) (limit offset : Nat)
  | count (kind : RecordKind) (p : Predicate)
  | list (q : Audit.Log.Query)

/-- The answer to a call that succeeds. -/
inductive Answer
  | recorded (row : Audit.Row)
  | applied (outcome : Workflow.Outcome)
  | imported (written : Nat) (row : Audit.Row)
  | written (rows : Nat)
  | found (records : List Record)
  | counted (records : Nat)
  | listed (rows : List Audit.Row)

/-- Why a call fails. -/
inductive Call.Failure
  | store (failure : Store.Failure)
  | workflow (failure : Workflow.Failure)
  | importing (failure : Import.Failure)
  /-- The document of an import is no array. -/
  | notAnArray
deriving DecidableEq, Repr

/-- The call audits what it does. -/
def Call.isAudited : Call → Bool
  | record .. | run _ | importing .. => true
  | _ => false

/-- The audit row that an answer is about. -/
def Answer.row? : Answer → Option Audit.Row
  | recorded row | imported _ row => some row
  | applied outcome => some outcome.audit
  | _ => none

/-- Imports a document, provided that it is an array of records.  In the end the write-ahead log is
truncated, which does nothing to the tables and is taken to succeed. -/
def importDocument (l : Ledger) (faults : List Bool) (kind : RecordKind) (actor source : String) :
    Json → Except Call.Failure (Nat × Audit.Row) × Ledger
  | .array items =>
      let r := l.importItems faults kind actor source items
      (r.1.mapError .importing, r.2)
  | _ => (.error .notAnArray, l)

/-- What comes of an operation as what comes of a call. -/
def answering {ε α : Type} (f : α → Answer) (g : ε → Call.Failure) (r : Except ε α × Ledger) :
    Except Call.Failure Answer × Ledger :=
  ((r.1.map f).mapError g, r.2)

/-- Performs a call.  The engine fails the statements that are marked. -/
def perform (l : Ledger) (faults : List Bool) : Call → Except Call.Failure Answer × Ledger
  | .record entry alignment old new =>
      answering .recorded .store (l.recordUnder faults entry alignment old new)
  | .run q => answering .applied .workflow (l.execute faults q)
  | .importing kind actor source document =>
      answering (fun r => .imported r.1 r.2) id
        (l.importDocument faults kind actor source document)
  | .upsert rs _ => answering .written .store (l.onTables faults (.upsert rs))
  | .update kind coaches field v =>
      answering .written .store (l.onTables faults (.update kind coaches field v))
  | .search kind p limit offset =>
      answering .found .store (l.onTables faults (.search kind p limit offset))
  | .count kind p => answering .counted .store (l.onTables faults (.count kind p))
  | .list q => answering .listed .store (l.onTables faults (.list q))

/-! ### Calls one after the other -/

/-- A call with the statements of it that the engine fails. -/
structure Attempt where
  faults : List Bool
  call : Call

/-- A call that has been performed, with the ledger before and after it. -/
structure Step where
  call : Call
  before : Ledger
  answer : Except Call.Failure Answer
  after : Ledger

/-- The step that an attempt is. -/
def Attempt.step (l : Ledger) (a : Attempt) : Step :=
  let r := l.perform a.faults a.call
  ⟨a.call, l, r.1, r.2⟩

/-- Performs calls one after the other: the steps, and the ledger after them. -/
def performAll (l : Ledger) : List Attempt → List Step × Ledger
  | [] => ([], l)
  | a :: rest =>
      let step := a.step l
      let r := performAll step.after rest
      (step :: r.1, r.2)

/-- Calls after calls. -/
theorem performAll_append (l : Ledger) (as bs : List Attempt) :
    l.performAll (as ++ bs) =
      ((l.performAll as).1 ++ ((l.performAll as).2.performAll bs).1,
        ((l.performAll as).2.performAll bs).2) := by
  induction as generalizing l with
  | nil => rfl
  | cons a as ih =>
      rw [List.cons_append, performAll, ih]
      rfl

end Ledger

end CoachLedger
