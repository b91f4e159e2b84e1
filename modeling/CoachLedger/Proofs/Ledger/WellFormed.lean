/-
**A store stays well formed.**

Whatever calls are performed on a ledger with a new store, one after the other, whether they succeed
or fail and whichever statements the engine fails, the store is well formed after each of them, and
each row that it has then keeps its key for ever.

Main results:

* `CoachLedger.Ledger.Effect.keepsKeys` — what a call does keeps the keys;
* `CoachLedger.Ledger.keepsKeys_performAll` — **a run keeps the keys**;
* `CoachLedger.Ledger.performAll_staysWellFormed` — **a store stays well formed over every run**.
-/

import CoachLedger.Proofs.Ledger.Calls
import CoachLedger.Proofs.Store.WellFormed

set_option autoImplicit false

namespace CoachLedger.Ledger

open CoachLedger.Store (KeepsKeys)

/-- What a call does keeps the keys: the records are written before the audit row, which changes
nothing about them. -/
theorem Effect.keepsKeys {s t : Store} {audited : Bool} {row : Option Audit.Row}
    {note : Option Notification} (h : Effect s t audited row note) (hs : s.Reachable) :
    KeepsKeys s t := by
  have hsound := Store.isSound_of_reachable hs
  cases h with
  | silent h => exact h.keepsKeys hsound
  | audited old new h hlog => exact (h.keepsKeys hsound).trans (.of_rows (rows_log hlog))

theorem keepsKeys_step (l : Ledger) (a : Attempt) (hs : l.store.Reachable) :
    KeepsKeys l.store (a.step l).after.store := by
  rcases step_cases l a with ⟨e, -, hafter⟩ | ⟨answer, note, t, -, hreply, hafter⟩
  · rw [hafter]
    exact .refl _
  · rw [hafter]
    exact (reply_eq_ok hreply).keepsKeys hs

/-- **A run keeps the keys.**  The induction is on the calls. -/
theorem keepsKeys_performAll (l : Ledger) (attempts : List Attempt) (hs : l.store.Reachable) :
    KeepsKeys l.store (l.performAll attempts).2.store := by
  induction attempts generalizing l with
  | nil => exact .refl _
  | cons a rest ih =>
      exact (keepsKeys_step l a hs).trans (ih (a.step l).after (reachable_step l a hs))

/-- **A store stays well formed over every run.**  After any calls on a new store it is well formed,
and whatever calls follow, the rows that it has by then keep their keys. -/
theorem performAll_staysWellFormed (options : Audit.Options)
    (channel : Option (Audit.Channel Notification)) (attempts others : List Attempt) :
    let l : Ledger := ⟨.fresh, options, channel⟩
    (l.performAll attempts).2.store.IsWellFormed ∧
      KeepsKeys (l.performAll attempts).2.store (l.performAll (attempts ++ others)).2.store := by
  intro l
  have hs : (l.performAll attempts).2.store.Reachable := l.reachable_performAll attempts .fresh
  refine ⟨Store.isWellFormed hs, ?_⟩
  rw [performAll_append]
  exact keepsKeys_performAll _ others hs

end CoachLedger.Ledger
