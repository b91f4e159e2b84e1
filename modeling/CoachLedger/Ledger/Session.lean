/-
**Sessions.**

A session works on a ledger whose store is open.  The store can be closed and opened again, which
checks its version; if the version will not do, the store stays closed.  What needs the store then
fails, after everything that can be said without it.

Main definitions:

* `CoachLedger.Session` — a ledger with a store that is open or closed;
* `CoachLedger.Session.ledger?` — the ledger, provided that its store is open;
* `CoachLedger.Session.reopen` — closes the store and opens it again;
* `CoachLedger.Session.search`, `CoachLedger.Session.count`, `CoachLedger.Session.run` — what has
  something to say without the store.
-/

import CoachLedger.Ledger.Workflow

set_option autoImplicit false

namespace CoachLedger

/-- A ledger whose store is open or closed. -/
structure Session where
  ledger : Ledger
  isOpen : Bool

namespace Session

/-- A session on a ledger. -/
def start (l : Ledger) : Session := ⟨l, true⟩

/-- The session with the ledger in another state. -/
def withLedger (s : Session) (l : Ledger) : Session := { s with ledger := l }

/-- The ledger, provided that its store is open. -/
def ledger? (s : Session) : Except Store.Failure Ledger :=
  if s.isOpen then .ok s.ledger else .error .engine

/-- Closes the store and opens it again: whether that works, and the session after it. -/
def reopen (s : Session) : Except Store.Failure Unit × Session :=
  let result := s.ledger.store.checkVersion
  (result, { s with isOpen := result.isOk })

/-- A page of the records that a predicate selects. -/
def search (s : Session) (kind : RecordKind) (p : Predicate) (limit offset : Nat) :
    Except Store.Failure (List Record) :=
  match Store.conditionFor kind p with
  | .error e => .error e
  | .ok _ => s.ledger?.bind fun l => l.store.search kind p limit offset

/-- The number of records that a predicate selects. -/
def count (s : Session) (kind : RecordKind) (p : Predicate) : Except Store.Failure Nat :=
  match Store.conditionFor kind p with
  | .error e => .error e
  | .ok _ => s.ledger?.bind fun l => l.store.count kind p

/-- Runs a workflow. -/
def run (s : Session) (q : Workflow.Request) :
    Except Workflow.Failure (Workflow.Outcome × Session) :=
  match q.resolve, s.ledger? with
  | .error e, _ => .error e
  | _, .error e => .error (.store e)
  | .ok (selected, value), .ok l =>
      (l.carryOut q selected value).map fun r => (r.1, s.withLedger r.2)

/-! ### Small laws -/

end Session

end CoachLedger
