/-
**A workflow is done as a whole or not at all.**

Whichever statements the engine fails, a workflow that is run statement by statement either fails
and leaves the ledger as it was, or does what it does in one go.  It fails without a fault of the
engine only if it fails in one go.

Main definitions:

* `CoachLedger.Ledger.task` — a workflow as a function of the tables.

Main results:

* `CoachLedger.Ledger.follows_steps` — the statements follow this function;
* `CoachLedger.Ledger.execute_of_error` — **a workflow that fails leaves the ledger as it was**;
* `CoachLedger.Ledger.execute_of_ok` — a workflow that does not fail does what it does in one go;
* `CoachLedger.Ledger.execute_nil` — without faults both ways of running it are the same.
-/

import CoachLedger.Ledger.Steps
import CoachLedger.Proofs.Store.Connection

set_option autoImplicit false

namespace CoachLedger.Ledger

open CoachLedger.Work (Action Follows)

variable {l m : Ledger} {q : Workflow.Request} {selected : List String} {value : Value}

/-! ### Workflows as functions of the tables -/

/-- The audit row is written once the field has been set. -/
def audit (l : Ledger) (q : Workflow.Request) (before : List Record) (missing : List String)
    (updated : Nat) (after : List Record) : Action Workflow.Failure Workflow.Report := fun s =>
  let old := Record.listToJson before
  let new := Record.listToJson after
  let entry := q.entry (before.filterMap Record.identity?)
  ((s.log entry (Audit.change? l.options old new)).mapError .store).bind fun r =>
    .ok (⟨⟨updated, missing, r.1⟩, old, new⟩, r.2)

/-- The field is set once the records of the selected coaches have been read. -/
def apply (l : Ledger) (q : Workflow.Request) (selected : List String) (value : Value)
    (before : List Record) : Action Workflow.Failure Workflow.Report := fun s =>
  let found := before.filterMap Record.identity?
  let missing := selected.filter fun coach => !found.contains coach
  if found.isEmpty then .error (.unknownCoaches missing)
  else
    ((s.update .master found q.workflow.field value).mapError .store).bind fun p =>
      l.audit q before missing p.1 (p.2.get .master found) p.2

/-- A workflow as a function of the tables. -/
def task (l : Ledger) (q : Workflow.Request) (selected : List String) (value : Value) :
    Action Workflow.Failure Workflow.Report := fun s =>
  l.apply q selected value (s.get .master selected) s

/-- What is left of a ledger when its tables have been changed and the change is made known. -/
def finish (l : Ledger) (p : Workflow.Report × Store) : Workflow.Outcome × Ledger :=
  (p.1.outcome, ({ l with store := p.2 } : Ledger).publish p.1.outcome.audit p.1.old p.1.new)

/-- A workflow in one go is this function, after which the change is made known. -/
theorem carryOut_eq (l : Ledger) (q : Workflow.Request) (selected : List String) (value : Value) :
    l.carryOut q selected value = (l.task q selected value l.store).map l.finish := by
  -- Writing the audit row cannot depend on the channel, which is used at the end.
  unfold carryOut task apply audit Workflow.Request.entry
  dsimp only
  split
  · rfl
  · cases l.store.update .master _ q.workflow.field value with
    | error e => rfl
    | ok p =>
        unfold record write
        dsimp only [Option.getD_none, Except.mapError, Except.bind]
        cases p.2.log _ _ with
        | error e => rfl
        | ok r => rfl

/-! ### Statement by statement -/

theorem follows_auditSteps (l : Ledger) (q : Workflow.Request) (before : List Record)
    (missing : List String) (updated : Nat) (after : List Record) :
    Follows (l.auditSteps q before missing updated after)
      (l.audit q before missing updated after) := by
  have hlog := (Work.follows_log (q.entry (before.filterMap Record.identity?))
    (Audit.change? l.options (Record.listToJson before) (Record.listToJson after))).failAs
      Workflow.Failure.store
  have hreport (row : Audit.Row) : Follows (Work.done
      ⟨⟨updated, missing, row⟩, Record.listToJson before, Record.listToJson after⟩ :
        Work Workflow.Failure Workflow.Report) _ := Work.follows_done _
  exact hlog.bind hreport

theorem follows_applySteps (l : Ledger) (q : Workflow.Request) (selected : List String)
    (value : Value) (before : List Record) :
    Follows (l.applySteps q selected value before) (l.apply q selected value before) := by
  unfold applySteps apply
  dsimp only
  by_cases h : (before.filterMap Record.identity?).isEmpty = true
  · simp only [if_pos h]
    exact Work.follows_fail _
  · simp only [if_neg h]
    refine ((Work.follows_update ..).failAs Workflow.Failure.store).bind
      (g := fun updated s => l.audit q before _ updated (s.get .master _) s) fun updated => ?_
    have hget := (Work.follows_get .master (before.filterMap Record.identity?)).failAs
      Workflow.Failure.store
    exact (hget.bind fun after => l.follows_auditSteps q before
      (selected.filter fun coach => !(before.filterMap Record.identity?).contains coach)
      updated after).congr fun s => rfl

/-- The work of a workflow follows its function, and leaves nothing behind if it fails. -/
theorem follows_steps (l : Ledger) (q : Workflow.Request) (selected : List String) (value : Value) :
    Follows (l.steps q selected value) (l.task q selected value) ∧
      Work.Restores (l.steps q selected value) := by
  have hbody := ((Work.follows_get .master selected).failAs Workflow.Failure.store).bind
    fun before => l.follows_applySteps q selected value before
  exact ⟨(Work.follows_transaction _ hbody).congr fun s => rfl,
    Work.restores_transaction _ hbody⟩

/-! ### Runs -/

/-- How a run goes: the request cannot be resolved, or the statements fail, or they do not. -/
theorem execute_cases (l : Ledger) (faults : List Bool) (q : Workflow.Request) :
    (∃ e, q.resolve = .error e ∧ l.execute faults q = (.error e, l)) ∨
    ∃ selected value, q.resolve = .ok (selected, value) ∧
      ((∃ e c, l.steps q selected value ⟨l.store, [], faults⟩ = (.error e, c) ∧
        l.execute faults q = (.error e, { l with store := c.tables })) ∨
      ∃ r c, l.steps q selected value ⟨l.store, [], faults⟩ = (.ok r, c) ∧
        l.execute faults q = (.ok (l.finish (r, c.tables)).1, (l.finish (r, c.tables)).2)) := by
  unfold execute
  cases hq : q.resolve with
  | error e => exact .inl ⟨e, rfl, rfl⟩
  | ok p =>
      obtain ⟨selected, value⟩ := p
      refine .inr ⟨selected, value, rfl, ?_⟩
      dsimp only
      cases hs : l.steps q selected value ⟨l.store, [], faults⟩ with
      | mk r c =>
          cases r with
          | error e => exact .inl ⟨e, c, rfl, rfl⟩
          | ok r => exact .inr ⟨r, c, rfl, rfl⟩

/-- **A workflow that fails leaves the ledger as it was.** -/
theorem execute_of_error {faults : List Bool} {e : Workflow.Failure}
    (h : l.execute faults q = (.error e, m)) : m = l := by
  rcases l.execute_cases faults q with
    ⟨e', -, hx⟩ | ⟨selected, value, -, ⟨e', c, hs, hx⟩ | ⟨r, c, -, hx⟩⟩
  · rw [h] at hx
    exact (Prod.mk.inj hx).2
  · -- The statements have been undone, and nothing else of the ledger has been touched.
    have htables := (l.follows_steps q selected value).2.tables hs
    rw [h] at hx
    rw [(Prod.mk.inj hx).2, htables]
  · rw [h] at hx
    cases (Prod.mk.inj hx).1

theorem run_eq {p : List String × Value} (h : q.resolve = .ok p) :
    l.run q = (l.task q p.1 p.2 l.store).map l.finish := by
  unfold run
  rw [h]
  exact l.carryOut_eq q p.1 p.2

/-- A workflow succeeds if its request can be resolved and its function does not fail. -/
theorem run_eq_ok {out : Workflow.Outcome} (h : l.run q = .ok (out, m)) :
    ∃ selected value r u, q.resolve = .ok (selected, value) ∧
      l.task q selected value l.store = .ok (r, u) ∧ l.finish (r, u) = (out, m) := by
  cases hq : q.resolve with
  | error e =>
      unfold run at h
      rw [hq] at h
      cases h
  | ok p =>
      obtain ⟨selected, value⟩ := p
      rw [run_eq hq] at h
      cases ht : l.task q selected value l.store with
      | error e =>
          rw [ht] at h
          cases h
      | ok p =>
          rw [ht] at h
          exact ⟨selected, value, p.1, p.2, rfl, ht, Except.ok.inj h⟩

/-- **A workflow that does not fail does what it does in one go.** -/
theorem execute_of_ok {faults : List Bool} {out : Workflow.Outcome}
    (h : l.execute faults q = (.ok out, m)) : l.run q = .ok (out, m) := by
  rcases l.execute_cases faults q with
    ⟨e, -, hx⟩ | ⟨selected, value, hq, ⟨e, c, -, hx⟩ | ⟨r, c, hs, hx⟩⟩
  · rw [h] at hx
    cases (Prod.mk.inj hx).1
  · rw [h] at hx
    cases (Prod.mk.inj hx).1
  · have htask := ((l.follows_steps q selected value).1.ok _ _ _ hs).1
    rw [h] at hx
    obtain ⟨hout, hm⟩ := Prod.mk.inj hx
    rw [run_eq hq, htask, hm, Except.ok.inj hout]
    rfl

/-- **Without faults both ways of running a workflow are the same.** -/
theorem execute_nil (l : Ledger) (q : Workflow.Request) :
    l.execute [] q =
      match l.run q with
      | .ok (out, m) => (.ok out, m)
      | .error e => (.error e, l) := by
  rcases l.execute_cases [] q with
    ⟨e, hq, hx⟩ | ⟨selected, value, hq, ⟨e, c, hs, hx⟩ | ⟨r, c, hs, hx⟩⟩
  · have hrun : l.run q = .error e := by
      unfold run
      rw [hq]
    rw [hx, hrun]
  · have hanswer := ((l.follows_steps q selected value).1.steady ⟨l.store, [], []⟩ rfl).2
    rw [hs] at hanswer
    rw [execute_of_error hx] at hx
    rw [hx, run_eq hq]
    cases ht : l.task q selected value l.store with
    | ok p =>
        rw [ht] at hanswer
        cases hanswer
    | error e' =>
        rw [ht] at hanswer
        rw [Except.error.inj hanswer]
        rfl
  · rw [execute_of_ok hx, hx]

end CoachLedger.Ledger
