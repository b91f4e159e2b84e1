/-
**Workflows.**

A workflow is a daily operation in the yard: it sets one field of the master records of the
selected coaches to one value.  The coaches that have no record are reported; if none has one,
the workflow fails.

Main definitions:

* `CoachLedger.Workflow` — the six workflows;
* `CoachLedger.Workflow.readValue` — the value that a workflow sets;
* `CoachLedger.Workflow.selection` — the coach numbers that a list of texts selects;
* `CoachLedger.Workflow.Request.resolve` — the selection and the value of a request;
* `CoachLedger.Ledger.run` — runs a workflow.

Main results:

* `CoachLedger.Workflow.field_kind` — the value that a workflow sets has the kind of its field.
-/

import CoachLedger.Ledger.Basic

set_option autoImplicit false

namespace CoachLedger

/-- The workflows. -/
inductive Workflow
  | yardIn
  | yardOut
  | batteryStatus
  | upholsteryStatus
  | testDate
  | fitmentDate
deriving DecidableEq, Repr

namespace Workflow

/-- All workflows. -/
def all : List Workflow :=
  [yardIn, yardOut, batteryStatus, upholsteryStatus, testDate, fitmentDate]

/-- The name of a workflow, under which it is audited. -/
def name : Workflow → String
  | yardIn => "yard_in"
  | yardOut => "yard_out"
  | batteryStatus => "battery_status"
  | upholsteryStatus => "upholstery_status"
  | testDate => "test_date"
  | fitmentDate => "fitment_date"

/-- The field that a workflow sets. -/
def field : Workflow → String
  | yardIn => "yard_in_date"
  | yardOut => "yard_out_date"
  | batteryStatus => "battery_status"
  | upholsteryStatus => "upholstery_status"
  | testDate => "brake_test_date"
  | fitmentDate => "fire_extinguisher_fitment_date"

/-- The kind of the value that a workflow sets. -/
def kind : Workflow → Kind
  | batteryStatus | upholsteryStatus => .text
  | _ => .date

/-- The value that a workflow sets has the kind of its field. -/
theorem field_kind (w : Workflow) :
    (RecordKind.master.field? w.field).map Field.kind = some w.kind := by
  cases w <;> decide +kernel

/-- The workflow that a name denotes, in any case, with hyphens or underscores. -/
def ofName? (s : String) : Option Workflow :=
  let s := (Text.fold (Text.trim s)).map fun c => if c = '-' then '_' else c
  all.find? fun w => w.name == s

/-- The message about a name that denotes no workflow. -/
def invalidName (s : String) : String :=
  "Invalid workflow '" ++ s ++ "'. Valid options: " ++ String.intercalate ", " (all.map name)

/-- Why a workflow fails. -/
inductive Failure
  | emptySelection
  | unknownCoaches (coaches : List String)
  | invalidValue (workflow : Workflow) (value : String)
  | store (failure : Store.Failure)
deriving DecidableEq, Repr

/-- The message of a failure. -/
def Failure.message? : Failure → Option String
  | emptySelection => some "No coaches selected"
  | unknownCoaches coaches => some ("Unknown coach numbers: " ++ String.intercalate ", " coaches)
  | invalidValue w v =>
      some ("Invalid value '" ++ v ++ "' for " ++ w.name ++ ": expected " ++ w.kind.name)
  | store f => f.message?

/-- The value of a text for a workflow: a date, or a status that is not blank. -/
def readValue (w : Workflow) (raw : String) : Except Failure Value :=
  let s := Text.trim raw
  let v :=
    match w.kind with
    | .date => (Date.read? s).map Value.date
    | _ => if s = "" then none else some (.text s)
  match v with
  | some v => .ok v
  | none => .error (.invalidValue w raw)

/-- The coach numbers that a list of texts selects: without the blanks around them, without blank
texts, and each only once. -/
def selection (coaches : List String) : List String :=
  ((coaches.map Text.trim).filter fun s => s ≠ "").eraseDups

/-- What is asked of a workflow. -/
structure Request where
  workflow : Workflow
  coaches : List String
  value : String
  actor : String
  description : Option String

/-- The coaches that a request selects and the value that it sets, which need no store. -/
def Request.resolve (q : Request) : Except Failure (List String × Value) :=
  let selected := selection q.coaches
  if selected.isEmpty then .error .emptySelection
  else (q.workflow.readValue q.value).map fun value => (selected, value)

/-- What a workflow has done. -/
structure Outcome where
  updated : Nat
  /-- The selected coaches without a record. -/
  missing : List String
  audit : Audit.Row

end Workflow

/-- Sets the field of a workflow in the records of the selected coaches, and audits it. -/
def Ledger.carryOut (l : Ledger) (q : Workflow.Request) (selected : List String) (value : Value) :
    Except Workflow.Failure (Workflow.Outcome × Ledger) :=
  let before := l.store.get .master selected
  let found := before.filterMap Record.identity?
  let missing := selected.filter fun coach => !found.contains coach
  if found.isEmpty then .error (.unknownCoaches missing)
  else
    match l.store.update .master found q.workflow.field value with
    | .error e => .error (.store e)
    | .ok (updated, store) =>
        let after := store.get .master found
        let entry : Audit.Entry :=
          ⟨q.actor, q.workflow.name, RecordKind.master.table,
            some (String.intercalate "," found), q.description⟩
        let old := Record.listToJson before
        let new := Record.listToJson after
        match ({ l with store := store } : Ledger).record entry none old new with
        | .error e => .error (.store e)
        | .ok (row, l) => .ok (⟨updated, missing, row⟩, l)

/-- Runs a workflow. -/
def Ledger.run (l : Ledger) (q : Workflow.Request) :
    Except Workflow.Failure (Workflow.Outcome × Ledger) :=
  match q.resolve with
  | .error e => .error e
  | .ok (selected, value) => l.carryOut q selected value

end CoachLedger
