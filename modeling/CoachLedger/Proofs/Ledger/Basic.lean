/-
**What is logged and made known.**

Logging a change writes one row, which keeps the texts of what it shows, and leaves the tables
alone. Making a row known sends one notification.

Main definitions:

* `CoachLedger.Ledger.keptRow` — the row that keeps what an audit row shows;
* `CoachLedger.Audit.Channel.sent` — a channel after a message.

Main results:

* `CoachLedger.Ledger.log_eq_ok` — **what logging a change does**;
* `CoachLedger.Ledger.channel_publish` — making a row known sends one notification.
-/

import CoachLedger.Ledger.Basic
import CoachLedger.Proofs.Store.Sound

set_option autoImplicit false

namespace CoachLedger

/-- Repeated members are dropped. -/
theorem nodup_eraseDups (l : List String) : l.eraseDups.Nodup := by
  induction hn : l.length using Nat.strongRecOn generalizing l with
  | _ n ih =>
      cases l with
      | nil => exact List.nodup_nil
      | cons a l =>
          have hlt : (l.filter fun b => !b == a).length < n := by
            have := List.length_filter_le (fun b => !b == a) l
            rw [List.length_cons] at hn
            omega
          rw [List.eraseDups_cons, List.nodup_cons, List.mem_eraseDups]
          exact ⟨by simp, ih _ hlt _ rfl⟩

/-! ### Notifications -/

namespace Audit.Channel

variable {α : Type}

/-- The channel after a message, which is dropped if nobody can receive it. -/
def sent (c : Channel α) (message : α) : Channel α :=
  if c.isClosed || c.subscribers.isEmpty then c
  else
    { c with
      published := c.published + 1
      kept := latest c.capacity (c.kept ++ [message]) }

end Audit.Channel

namespace Ledger

/-- Making an audit row known sends one notification, if there is a channel. -/
theorem channel_publish (l : Ledger) (row : Audit.Row) (old new : Json) :
    (l.publish row old new).channel =
      l.channel.map fun c => c.sent (notification row old new) := by
  unfold publish
  cases l.channel with
  | none => rfl
  | some c =>
      dsimp only [Option.map_some]
      unfold Audit.Channel.publish Audit.Channel.sent
      cases c.isClosed with
      | true => rfl
      | false => cases c.subscribers <;> rfl

/-! ### Audit rows -/

/-- The row that keeps what an audit row shows. -/
def keptRow (row : Audit.Row) : Audit.StoredRow :=
  ⟨row.id, row.entry, row.oldValues.bind Audit.keptText, row.newValues.bind Audit.keptText⟩

section

variable {s t : Store} {entry : Audit.Entry} {change : Option Audit.Change} {row : Audit.Row}

/-- **What logging a change does.** -/
theorem log_eq_ok (h : s.log entry change = .ok (row, t)) :
    ∃ log, s.audit = some log ∧
      t = { s with audit := some ⟨keptRow row :: log.rows, row.id⟩ } ∧
      row = ⟨log.lastId + 1, entry, change.map Audit.Change.old, change.map Audit.Change.new⟩ := by
  obtain ⟨log, hlog, rfl, rfl⟩ := Store.log_ok h
  exact ⟨log, hlog, rfl, rfl⟩

theorem rows_log (h : s.log entry change = .ok (row, t)) (kind : RecordKind) :
    t.rows kind = s.rows kind := by
  obtain ⟨log, -, rfl, -⟩ := log_eq_ok h
  cases kind <;> rfl

end

end Ledger

end CoachLedger
