/-
**What every audit log is like.**

The rows of a log have numbers, which descend from the newest row to the oldest one and are never
past the last number that was given.  A row is therefore appended under a number that is larger than
all others.  A page of the log shows rows that the query asks for, in the descending order of their
numbers; this is also the order of the times at which they were written, as long as the clock does
not go back.

Main definitions:

* `CoachLedger.Audit.Log.IsSound` — what every log is like;
* `CoachLedger.Audit.Log.Query.Asks` — the query asks for a row;
* `CoachLedger.Audit.Log.NewestFirst` — the order of a page;
* `CoachLedger.Audit.Log.IsPage` — a page of a log.

Main results:

* `CoachLedger.Audit.Log.isSound_append` — appending a row leaves a log like this;
* `CoachLedger.Store.isSound_audit` — **every audit log is like this**;
* `CoachLedger.Audit.Log.isPage_list` — **what is listed is a page of the log**;
* `CoachLedger.Audit.Log.IsPage.unique` — there is only one such page.
-/

import CoachLedger.Proofs.Ledger.Basic
import CoachLedger.Proofs.Store.Writes

set_option autoImplicit false

namespace CoachLedger

namespace Audit.Log

variable {log : Log} {q : Query}

/-! ### The numbers of the rows -/

/-- The first row has the larger number. -/
def NumberGT (a b : StoredRow) : Prop := b.id < a.id

/-- The numbers of the rows descend, and none is past the last number that was given. -/
structure IsSound (log : Log) : Prop where
  descending : log.rows.Pairwise NumberGT
  ids : ∀ row ∈ log.rows, row.id ≤ log.lastId

theorem isSound_empty : empty.IsSound :=
  ⟨.nil, fun row h => by cases h⟩

/-- A row with the next number is newer than all others. -/
theorem isSound_append (h : log.IsSound) (row : StoredRow) (hrow : row.id = log.lastId + 1) :
    IsSound ⟨row :: log.rows, row.id⟩ := by
  have hlt : ∀ old ∈ log.rows, old.id < row.id := by
    intro old hold
    have hle := h.ids old hold
    omega
  refine ⟨List.pairwise_cons.2 ⟨hlt, h.descending⟩, List.forall_mem_cons.2 ⟨Nat.le_refl _, ?_⟩⟩
  intro old hold
  exact Nat.le_of_lt (hlt old hold)

/-! ### Pages -/

/-- The query asks for a row: it is about the entity and by the actor that are wanted, if any. -/
def Query.Asks (q : Query) (row : StoredRow) : Prop :=
  (∀ name, q.entityName = some name → row.entry.entityName = name) ∧
    ∀ actor, q.actor = some actor → row.entry.actor = actor

theorem Query.admits_iff (q : Query) (row : StoredRow) : q.admits row = true ↔ q.Asks row := by
  unfold Query.admits Query.Asks
  rw [Bool.and_eq_true, Option.all_eq_true, Option.all_eq_true]
  simp only [beq_iff_eq]
  constructor
  · rintro ⟨hentity, hactor⟩
    exact ⟨fun name h => (hentity name h).symm, fun actor h => (hactor actor h).symm⟩
  · rintro ⟨hentity, hactor⟩
    exact ⟨fun name h => (hentity name h).symm, fun actor h => (hactor actor h).symm⟩

/-- The first row was written later, by a clock that knows when the row of a number was written, or
at the same time with the larger number. -/
def NewestFirst (clock : Nat → Int) (a b : StoredRow) : Prop :=
  clock b.id < clock a.id ∨ (clock a.id = clock b.id ∧ b.id < a.id)

/-- The clock never goes back. -/
def IsSteady (clock : Nat → Int) : Prop :=
  ∀ i j, i ≤ j → clock i ≤ clock j

theorem newestFirst_of_numberGT {clock : Nat → Int} (hc : IsSteady clock) {a b : StoredRow}
    (h : NumberGT a b) : NewestFirst clock a b := by
  have hle := hc b.id a.id (Nat.le_of_lt h)
  rcases Int.lt_or_eq_of_le hle with hlt | heq
  · exact .inl hlt
  · exact .inr ⟨heq.symm, h⟩

/-- The rows of a page: after those that are left out, as many as asked for, or fifty. -/
def IsPage (log : Log) (q : Query) (page : List Row) : Prop :=
  ∃ found : List StoredRow, (∀ row, row ∈ found ↔ row ∈ log.rows ∧ q.Asks row) ∧
    found.Pairwise NumberGT ∧ (∀ clock, IsSteady clock → found.Pairwise (NewestFirst clock)) ∧
    page = ((found.drop q.offset).take (if q.limit = 0 then 50 else q.limit)).map StoredRow.shown

/-- **What is listed is a page of the log.** -/
theorem isPage_list (h : log.IsSound) (q : Query) : log.IsPage q (log.list q) := by
  have hfound : (log.rows.filter q.admits).Pairwise NumberGT := h.descending.filter _
  refine ⟨log.rows.filter q.admits, ?_, hfound, ?_, rfl⟩
  · intro row
    rw [List.mem_filter, q.admits_iff]
  · intro clock hc
    exact hfound.imp fun hab => newestFirst_of_numberGT hc hab

/-- Rows in descending order are determined by their members. -/
theorem eq_of_descending {xs ys : List StoredRow} (hx : xs.Pairwise NumberGT)
    (hy : ys.Pairwise NumberGT) (h : ∀ row, row ∈ xs ↔ row ∈ ys) : xs = ys := by
  have hnodup {zs : List StoredRow} (hz : zs.Pairwise NumberGT) : zs.Nodup :=
    hz.imp fun hab heq => by
      rw [NumberGT, heq] at hab
      exact Nat.lt_irrefl _ hab
  have hperm : xs.Perm ys := (List.perm_ext_iff_of_nodup (hnodup hx) (hnodup hy)).2 h
  refine hperm.eq_of_pairwise ?_ hx hy
  intro a b _ _ hab hba
  exact absurd hba (Nat.lt_asymm hab)

/-- There is only one page. -/
theorem IsPage.unique {page other : List Row} (h : log.IsPage q page) (h' : log.IsPage q other) :
    page = other := by
  obtain ⟨xs, hmem, hx, -, rfl⟩ := h
  obtain ⟨ys, hmem', hy, -, rfl⟩ := h'
  rw [eq_of_descending hx hy fun row => (hmem row).trans (hmem' row).symm]

end Audit.Log

/-! ### The audit log of a store -/

namespace Store

variable {s t : Store}

/-- The audit log of the store is as every log is. -/
def HasSoundLog (s : Store) : Prop :=
  ∀ log, s.audit = some log → log.IsSound

theorem HasSoundLog.of_audit (h : s.HasSoundLog) (ha : t.audit = s.audit) : t.HasSoundLog := by
  intro log hlog
  exact h log (ha ▸ hlog)

/-- **Every audit log is like this.** -/
theorem isSound_audit (hs : s.Reachable) : s.HasSoundLog := by
  induction hs with
  | fresh =>
      intro log hlog
      obtain rfl := Option.some.inj hlog
      exact Audit.Log.isSound_empty
  | upsert hs hr h ih => exact ih.of_audit (Writes.upsert hr h).audit
  | update hs h ih => exact ih.of_audit (Writes.update h).audit
  | log hs h ih =>
      obtain ⟨log, hlog, rfl, hrow⟩ := Ledger.log_eq_ok h
      intro log' hlog'
      obtain rfl := Option.some.inj hlog'
      have hid := congrArg Audit.Row.id hrow
      exact Audit.Log.isSound_append (ih log hlog) (Ledger.keptRow _) hid
  | removeLog hs ih =>
      intro log hlog
      cases hlog
  | stamp hs version ih => exact ih.of_audit rfl

end Store

end CoachLedger
