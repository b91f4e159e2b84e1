/-
**The ledger.**

A ledger is a store whose changes are audited: for each change the difference of two snapshots
goes into the audit log, and the snapshots as a whole go to those who are subscribed to changes.
A change and its audit row are written together or not at all, and only what was written is made
known.

Main definitions:

* `CoachLedger.Notification` — what subscribers receive;
* `CoachLedger.Ledger` — a store with its audit options and its notification channel;
* `CoachLedger.Ledger.write` — appends an audit row;
* `CoachLedger.Ledger.record` — appends an audit row and makes it known.
-/

import CoachLedger.Audit.Channel
import CoachLedger.Store.Query

set_option autoImplicit false

namespace CoachLedger

/-- A change as subscribers learn of it, with both snapshots as a whole. -/
structure Notification where
  auditId : Nat
  actor : String
  action : String
  entityName : String
  entityId : Option String
  old : Json
  new : Json

/-- A store whose changes are audited. -/
structure Ledger where
  store : Store
  options : Audit.Options
  /-- The channel on which changes are made known, if they are. -/
  channel : Option (Audit.Channel Notification)

namespace Ledger

/-- Appends the audit row of an entry for the change between two snapshots.  Another alignment
than that of the ledger may be given. -/
def write (l : Ledger) (entry : Audit.Entry) (alignment : Option Audit.Alignment)
    (old new : Json) : Except Store.Failure (Audit.Row × Ledger) :=
  let options := { l.options with alignment := alignment.getD l.options.alignment }
  match l.store.log entry (Audit.change? options old new) with
  | .ok (row, store) => .ok (row, { l with store := store })
  | .error e => .error e

/-- The notification of an audit row. -/
def notification (row : Audit.Row) (old new : Json) : Notification :=
  ⟨row.id, row.entry.actor, row.entry.action, row.entry.entityName, row.entry.entityId, old, new⟩

/-- Makes an audit row known. -/
def publish (l : Ledger) (row : Audit.Row) (old new : Json) : Ledger :=
  { l with
    channel := l.channel.map fun c =>
      match c.publish (notification row old new) with
      | .ok (_, c) => c
      | .error _ => c }

/-- Appends the audit row of an entry and makes it known. -/
def record (l : Ledger) (entry : Audit.Entry) (alignment : Option Audit.Alignment)
    (old new : Json) : Except Store.Failure (Audit.Row × Ledger) :=
  match l.write entry alignment old new with
  | .ok (row, l) => .ok (row, l.publish row old new)
  | .error e => .error e

end Ledger

end CoachLedger
