/-
**Work on a connection.**

What is done to a store is sent to the engine statement by statement.  The engine may fail any of
them, and a failure does not undo what was written before it: this is what transactions are for,
which may be nested.  If the work inside a transaction fails, or the transaction cannot be ended,
the tables go back to what they were when it began.  There is one failure after which the engine
itself undoes all transactions that are open: a new record needs a number and none is left.

Main definitions:

* `CoachLedger.Connection` — a connection to a store, with its open transactions;
* `CoachLedger.Work` — work on a connection;
* `CoachLedger.Work.statement`, `CoachLedger.Work.transaction` — a single statement, and work that
  is done as a whole or not at all;
* `CoachLedger.Work.get`, `CoachLedger.Work.update`, `CoachLedger.Work.upsert`,
  `CoachLedger.Work.log` — reading and writing statement by statement.

Main results:

* `CoachLedger.Connection.rollback_eq` — undoing a transaction goes back to where it began.
-/

import CoachLedger.Store.Query

set_option autoImplicit false

namespace CoachLedger

open CoachLedger.Sql (Cell)

/-- A connection to a store. -/
structure Connection where
  /-- What the tables hold now. -/
  tables : Store
  /-- What they held when the open transactions began, the innermost one first. -/
  saved : List Store
  /-- Which of the next statements the engine fails; it fails none after these. -/
  faults : List Bool

namespace Connection

/-- The connection after one more statement. -/
def next (c : Connection) : Connection :=
  { c with faults := c.faults.tail }

/-- The engine fails the next statement. -/
def isFaulty (c : Connection) : Bool :=
  c.faults.headD false

/-- The connection with one more transaction open. -/
def opened (c : Connection) : Connection :=
  { c with saved := c.tables :: c.saved }

/-- The connection with the innermost transaction ended. -/
def closed (c : Connection) : Connection :=
  { c with saved := c.saved.tail }

/-- The connection with the innermost transaction undone. -/
def rollback (c : Connection) : Connection :=
  match c.saved with
  | [] => c
  | tables :: saved => { c with tables := tables, saved := saved }

/-- The connection with all open transactions undone. -/
def abandoned (c : Connection) : Connection :=
  { c with tables := c.saved.getLast?.getD c.tables, saved := [] }

/-- Ends the one transaction that is open, keeping what was written in it or not; the engine fails
that if the transaction has been undone. -/
def settled (c : Connection) (keep : Bool) : Except Store.Failure Unit × Store :=
  match c.saved with
  | [] => (.error .engine, c.tables)
  | tables :: _ => (.ok (), if keep then c.tables else tables)

/-- Undoing a transaction goes back to where it began. -/
theorem rollback_eq {c : Connection} {tables : Store} {saved : List Store}
    (h : c.saved = tables :: saved) :
    c.rollback = { c with tables := tables, saved := saved } := by
  rw [rollback, h]

end Connection

/-- Work on a connection: what comes of it, and the connection after it. -/
def Work (ε α : Type) : Type := Connection → Except ε α × Connection

namespace Work

variable {ε δ α β : Type}

/-- Nothing is left to do. -/
def done (a : α) : Work ε α := fun c => (.ok a, c)

/-- The work fails. -/
def fail (e : ε) : Work ε α := fun c => (.error e, c)

/-- First one work and then, unless it fails, another one. -/
def andThen (w : Work ε α) (f : α → Work ε β) : Work ε β := fun c =>
  match w c with
  | (.ok a, c) => f a c
  | (.error e, c) => (.error e, c)

instance : Monad (Work ε) where
  pure := done
  bind := andThen

/-- The work with its failures as those of another kind. -/
def failAs (f : ε → δ) (w : Work ε α) : Work δ α := fun c =>
  ((w c).1.mapError f, (w c).2)

/-! ### Statements and transactions -/

/-- What is asked of the engine, which may fail it.  A failure leaves everything as it is. -/
def ask (engine : ε) (w : Work ε α) : Work ε α := fun c =>
  if c.isFaulty then (.error engine, c.next) else w c.next

/-- One statement on the tables; if it fails, it changes nothing. -/
def statement (engine : ε) (f : Store → Except ε (α × Store)) : Work ε α :=
  ask engine fun c =>
    match f c.tables with
    | .ok (a, tables) => (.ok a, { c with tables := tables })
    | .error e => (.error e, c)

/-- A transaction begins. -/
def begin (engine : ε) : Work ε Unit :=
  ask engine fun c => (.ok (), c.opened)

/-- The innermost transaction ends. -/
def commit (engine : ε) : Work ε Unit :=
  ask engine fun c => (.ok (), c.closed)

/-- The work, undone back to the innermost transaction if it fails. -/
def orRollback (w : Work ε α) : Work ε α := fun c =>
  match w c with
  | (.ok a, c) => (.ok a, c)
  | (.error e, c) => (.error e, c.rollback)

/-- The work; if it fails on tables that are full, the engine undoes all open transactions. -/
def orAbandon (full : Store → Bool) (w : Work ε α) : Work ε α := fun c =>
  match w c with
  | (.ok a, d) => (.ok a, d)
  | (.error e, d) => (.error e, if full c.tables then d.abandoned else d)

/-- Work that is done as a whole or not at all. -/
def transaction (engine : ε) (w : Work ε α) : Work ε α := do
  begin engine
  orRollback do
    let a ← w
    commit engine
    return a

/-! ### Records -/

/-- The rows of coaches, with one statement for each piece of their list. -/
def fetch (kind : RecordKind) : List (List String) → Work Store.Failure (List Store.Cells)
  | [] => return []
  | coaches :: rest => do
      let found ← statement .engine fun s => .ok (Store.rowsOf kind (s.rows kind) coaches, s)
      let others ← fetch kind rest
      return found ++ others

/-- The records of some coaches in the order of their keys. -/
def get (kind : RecordKind) (coaches : List String) : Work Store.Failure (List Record) := do
  let found ← fetch kind (Store.chunks Store.maxBound coaches)
  return (found.map (Store.decode kind)).mergeSort (Store.keyLE kind)

/-- Sets one cell in the rows of coaches, with one statement for each piece of their list, and
counts the rows. -/
def setPieces (kind : RecordKind) (index : Nat) (cell : Cell) (count : Nat) :
    List (List String) → Work Store.Failure Nat
  | [] => return count
  | coaches :: rest => do
      let n ← statement .engine fun s =>
        .ok ((s.rows kind).countP (Store.isOneOf kind coaches),
          s.withRows kind (Store.setCell kind coaches index cell (s.rows kind)))
      setPieces kind index cell (count + n) rest

/-- Sets one field of all records of the given coaches, and counts the rows. -/
def update (kind : RecordKind) (coaches : List String) (field : String) (v : Value) :
    Work Store.Failure Nat :=
  match Record.check kind field v with
  | .error e => fail (.record e)
  | .ok _ =>
      if field = CoachLedger.identityField ∨ field = kind.keyField then
        fail (.readOnlyColumn kind field)
      else
        match kind.field? field, kind.index? field with
        | some f, some i =>
            if coaches.isEmpty then return 0
            else
              transaction .engine
                (setPieces kind i (Store.cellFor f.kind v) 0
                  (Store.chunks (Store.maxBound - 1) coaches))
        | _, _ => fail (.unknownColumn kind field)

/-- Puts one record in, once it is known to have a coach number. -/
def put (r : Record) : Work Store.Failure Nat :=
  if r.identity?.isNone then fail (.record (.missingIdentity r.kind))
  else orAbandon (fun s => s.isOutOfNumbers r) (statement .engine fun s => s.upsertOne r)

/-- Puts records in one after the other, and counts the rows that were written. -/
def putAll (count : Nat) : List Record → Work Store.Failure Nat
  | [] => return count
  | r :: rs => do
      let n ← put r
      putAll (count + n) rs

/-- Puts records in one after the other, all or none. -/
def upsert (rs : List Record) : Work Store.Failure Nat :=
  if rs.isEmpty then return 0 else transaction .engine (putAll 0 rs)

/-- Appends an entry to the audit log. -/
def log (entry : Audit.Entry) (change : Option Audit.Change) : Work Store.Failure Audit.Row :=
  statement .engine fun s => s.log entry change

end Work

end CoachLedger
