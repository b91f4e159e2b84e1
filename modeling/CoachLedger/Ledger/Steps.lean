/-
**Workflows statement by statement.**

A workflow reads the records of the selected coaches, sets the field, reads the records again and
writes the audit row, all in one transaction, inside of which setting the field is another one.
Only when the transaction has ended is the change made known.

Main definitions:

* `CoachLedger.Ledger.steps` — the work of a workflow on a connection;
* `CoachLedger.Ledger.execute` — runs a workflow while the engine fails some of the statements.
-/

import CoachLedger.Ledger.Workflow
import CoachLedger.Store.Connection

set_option autoImplicit false

namespace CoachLedger

/-- What a workflow has done, with the snapshots before and after it. -/
structure Workflow.Report where
  outcome : Workflow.Outcome
  old : Json
  new : Json

/-- The entry that audits a workflow on the coaches that were found. -/
def Workflow.Request.entry (q : Workflow.Request) (found : List String) : Audit.Entry :=
  ⟨q.actor, q.workflow.name, RecordKind.master.table, some (String.intercalate "," found),
    q.description⟩

/-- The audit row is written once the field has been set. -/
def Ledger.auditSteps (l : Ledger) (q : Workflow.Request) (before : List Record)
    (missing : List String) (updated : Nat) (after : List Record) :
    Work Workflow.Failure Workflow.Report := do
  let old := Record.listToJson before
  let new := Record.listToJson after
  let entry := q.entry (before.filterMap Record.identity?)
  let row ← (Work.log entry (Audit.change? l.options old new)).failAs .store
  return ⟨⟨updated, missing, row⟩, old, new⟩

/-- The field is set once the records of the selected coaches have been read. -/
def Ledger.applySteps (l : Ledger) (q : Workflow.Request) (selected : List String) (value : Value)
    (before : List Record) : Work Workflow.Failure Workflow.Report :=
  let found := before.filterMap Record.identity?
  let missing := selected.filter fun coach => !found.contains coach
  if found.isEmpty then .fail (.unknownCoaches missing)
  else do
    let updated ← (Work.update .master found q.workflow.field value).failAs .store
    let after ← (Work.get .master found).failAs .store
    l.auditSteps q before missing updated after

/-- The work of a workflow, which makes nothing known. -/
def Ledger.steps (l : Ledger) (q : Workflow.Request) (selected : List String) (value : Value) :
    Work Workflow.Failure Workflow.Report :=
  .transaction (.store .engine) do
    let before ← (Work.get .master selected).failAs .store
    l.applySteps q selected value before

/-- Runs a workflow statement by statement.  The engine fails those that are marked. -/
def Ledger.execute (l : Ledger) (faults : List Bool) (q : Workflow.Request) :
    Except Workflow.Failure Workflow.Outcome × Ledger :=
  match q.resolve with
  | .error e => (.error e, l)
  | .ok (selected, value) =>
      match l.steps q selected value ⟨l.store, [], faults⟩ with
      | (.error e, c) => (.error e, { l with store := c.tables })
      | (.ok r, c) =>
          (.ok r.outcome,
            ({ l with store := c.tables } : Ledger).publish r.outcome.audit r.old r.new)

end CoachLedger
