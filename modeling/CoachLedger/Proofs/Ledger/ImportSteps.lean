/-
**An import is done as a whole or not at all.**

Whichever statements the engine fails, an import that is done statement by statement either fails
and leaves the ledger as it was, or does what it does in one go.  It fails without a fault of the
engine only if it fails in one go.  What an import does in one go is to put its records in and to
log the change between two snapshots.

Main definitions:

* `CoachLedger.Ledger.AreRecords` — the items of an array are records;
* `CoachLedger.Ledger.importTask` — an import as a function of the tables;
* `CoachLedger.Ledger.IsImported` — what an import has done.

Main results:

* `CoachLedger.Ledger.readRecords_eq_ok`, `CoachLedger.Ledger.readRecords_eq_error` — the items of
  an array are records, or one of them is not;
* `CoachLedger.Ledger.follows_importSteps` — the statements follow this function;
* `CoachLedger.Ledger.importAll_eq_ok`, `CoachLedger.Ledger.importAll_eq_error` — what an import
  does in one go, and why it fails;
* `CoachLedger.Ledger.shows_importAll` — what the audit row of an import shows;
* `CoachLedger.Ledger.importItems_cases` — **an import of an array is done as a whole or not at
  all**.
-/

import CoachLedger.Ledger.ImportSteps
import CoachLedger.Proofs.Ledger.Basic
import CoachLedger.Proofs.Store.Connection
import CoachLedger.Proofs.Store.Overlay

set_option autoImplicit false

namespace CoachLedger

namespace Ledger

/-! ### Records of an array -/

/-- The items are these records. -/
def AreRecords (kind : RecordKind) (items : List Json) (rs : List Record) : Prop :=
  List.Forall₂ (fun j r => Record.ofJson kind j = .ok r) items rs

theorem readRecords_eq_ok {kind : RecordKind} {position : Nat} {items : List Json}
    {rs : List Record} (h : readRecords kind position items = .ok rs) :
    AreRecords kind items rs := by
  induction items generalizing position rs with
  | nil =>
      obtain rfl := Except.ok.inj h
      exact .nil
  | cons j js ih =>
      rw [readRecords] at h
      split at h
      · cases h
      · rename_i r hr
        split at h
        · rename_i rest hrest
          obtain rfl := Except.ok.inj h
          exact .cons hr (ih hrest)
        · cases h

/-- If there is no list of records, one of the items is no record. -/
theorem readRecords_eq_error {kind : RecordKind} {position i : Nat} {items : List Json}
    (h : readRecords kind position items = .error i) :
    ∃ j ∈ items, ∃ e, Record.ofJson kind j = .error e := by
  induction items generalizing position with
  | nil => cases h
  | cons j js ih =>
      rw [readRecords] at h
      split at h
      · rename_i e he
        exact ⟨j, List.mem_cons_self .., e, he⟩
      · split at h
        · cases h
        · rename_i i' hrest
          obtain rfl := Except.error.inj h
          obtain ⟨j', hj', hx⟩ := ih hrest
          exact ⟨j', List.mem_cons_of_mem _ hj', hx⟩

theorem AreRecords.forall {kind : RecordKind} {items : List Json} {rs : List Record}
    (h : AreRecords kind items rs) : ∀ r ∈ rs, r.IsValid ∧ r.kind = kind := by
  induction h with
  | nil => exact fun r hr => by cases hr
  | cons hr _ ih =>
      exact List.forall_mem_cons.2 ⟨⟨Record.isValid_ofJson hr, Record.kind_ofJson hr⟩, ih⟩

/-! ### The coaches of an import -/

theorem nodup_coachesOf (rs : List Record) : (coachesOf rs).Nodup :=
  (List.mergeSort_perm _ _).nodup_iff.2 (nodup_eraseDups _)

theorem mem_coachesOf {rs : List Record} {c : String} :
    c ∈ coachesOf rs ↔ ∃ r ∈ rs, r.identity? = some c := by
  rw [coachesOf, List.mem_mergeSort, List.mem_eraseDups, List.mem_filterMap]

open CoachLedger.Work (Action Follows)

variable {l m : Ledger} {i : Import}

/-! ### Imports as functions of the tables -/

/-- The snapshot of the coaches of an import. -/
def importSnapshot (i : Import) (s : Store) : Json :=
  Record.listToJson (s.get i.kind (coachesOf i.records))

/-- An import as a function of the tables. -/
def importTask (l : Ledger) (i : Import) : Action Store.Failure Import.Report := fun s =>
  (s.upsert i.records).bind fun p =>
    (p.2.log i.entry (l.importChange? (importSnapshot i s) (importSnapshot i p.2))).bind fun r =>
      .ok (⟨p.1, r.1, importSnapshot i s, importSnapshot i p.2⟩, r.2)

/-- What is left of a ledger when its tables have been changed and the change is made known. -/
def importFinish (l : Ledger) (p : Import.Report × Store) : (Nat × Audit.Row) × Ledger :=
  ((p.1.written, p.1.row), ({ l with store := p.2 } : Ledger).publish p.1.row p.1.old p.1.new)

/-- An import in one go is this function, after which the change is made known. -/
theorem importAll_eq (l : Ledger) (i : Import) :
    l.importAll i = (l.importTask i l.store).map l.importFinish := by
  unfold importAll importTask importSnapshot
  dsimp only
  cases l.store.upsert i.records with
  | error e => rfl
  | ok p =>
      unfold record write importChange?
      dsimp only [Option.getD_some, Except.bind]
      cases p.2.log _ _ with
      | error e => rfl
      | ok r => rfl

/-- The work of an import follows its function, and leaves nothing behind if it fails. -/
theorem follows_importSteps (l : Ledger) (i : Import) :
    Follows (l.importSteps i) (l.importTask i) ∧ Work.Restores (l.importSteps i) := by
  have hlog (before after : List Record) (written : Nat) :=
    (Work.follows_log i.entry (l.importChange? (Record.listToJson before)
      (Record.listToJson after))).bind fun row =>
        Work.follows_done (ε := Store.Failure)
          (⟨written, row, Record.listToJson before, Record.listToJson after⟩ : Import.Report)
  have hbody := (Work.follows_get i.kind (coachesOf i.records)).bind fun before =>
    (Work.follows_upsert i.records).bind fun written =>
      (Work.follows_get i.kind (coachesOf i.records)).bind fun after => hlog before after written
  exact ⟨(Work.follows_transaction _ hbody).congr fun s => rfl,
    Work.restores_transaction _ hbody⟩

/-- **How an import goes**: it fails and leaves the ledger as it was, or it does what it does in one
go. -/
theorem importUnder_cases (l : Ledger) (faults : List Bool) (i : Import) :
    (∃ e, l.importUnder faults i = (.error e, l) ∧ (faults = [] → l.importAll i = .error e)) ∨
      ∃ n row m, l.importUnder faults i = (.ok (n, row), m) ∧
        l.importAll i = .ok ((n, row), m) := by
  obtain ⟨hfollows, hrestores⟩ := l.follows_importSteps i
  rw [importAll_eq]
  unfold importUnder
  rcases hfollows.outcome hrestores l.store faults with
    ⟨e, c, hsteps, htables, hsteady⟩ | ⟨r, c, hsteps, htask⟩
  · refine .inl ⟨e, ?_, fun hf => ?_⟩
    · rw [hsteps]
      dsimp only
      rw [htables]
    · rw [hsteady hf]
      rfl
  · refine .inr ⟨r.written, r.row, (l.importFinish (r, c.tables)).2, ?_, ?_⟩
    · rw [hsteps]
      rfl
    · rw [htask]
      rfl

/-! ### What an import does -/

/-- **What an import does in one go.** -/
theorem importAll_eq_ok {n : Nat} {row : Audit.Row} (h : l.importAll i = .ok ((n, row), m)) :
    ∃ t, l.store.upsert i.records = .ok (n, t) ∧
      t.log i.entry (l.importChange? (importSnapshot i l.store) (importSnapshot i t)) =
        .ok (row, m.store) ∧
      m = ({ l with store := m.store } : Ledger).publish row (importSnapshot i l.store)
        (importSnapshot i t) := by
  rw [importAll_eq, importTask] at h
  cases hu : l.store.upsert i.records with
  | error e =>
      rw [hu] at h
      cases h
  | ok p =>
      obtain ⟨k, t⟩ := p
      rw [hu, Except.bind] at h
      cases hl : t.log i.entry
          (l.importChange? (importSnapshot i l.store) (importSnapshot i t)) with
      | error e =>
          rw [hl] at h
          cases h
      | ok r =>
          rw [hl] at h
          obtain ⟨hdone, rfl⟩ := Prod.mk.inj (Except.ok.inj h)
          obtain ⟨rfl, rfl⟩ := Prod.mk.inj hdone
          exact ⟨t, rfl, hl, rfl⟩

/-- An import fails if its records cannot be put in, or if there is no audit log. -/
theorem importAll_eq_error {e : Store.Failure} (h : l.importAll i = .error e) :
    l.store.upsert i.records = .error e ∨
      ∃ n t, l.store.upsert i.records = .ok (n, t) ∧ t.audit = none := by
  rw [importAll_eq, importTask] at h
  cases hu : l.store.upsert i.records with
  | error e' =>
      rw [hu] at h
      cases h
      exact .inl rfl
  | ok p =>
      refine .inr ⟨p.1, p.2, rfl, ?_⟩
      rw [hu] at h
      cases hl : p.2.audit with
      | none => rfl
      | some log =>
          dsimp only [Except.bind] at h
          unfold Store.log at h
          rw [hl] at h
          cases h

/-- What is read depends on the tables alone. -/
theorem get_congr {s t : Store} {kind : RecordKind} (h : s.rows kind = t.rows kind)
    (coaches : List String) : s.get kind coaches = t.get kind coaches := by
  rw [Store.get, Store.get, h]

/-- What an import has done: the store has the records put in and one more audit row, and one
notification has been sent. -/
structure IsImported (l : Ledger) (i : Import) (n : Nat) (row : Audit.Row) (m : Ledger) : Prop where
  tables : ∃ t log, l.store.upsert i.records = .ok (n, t) ∧ l.store.audit = some log ∧
    m.store = { t with audit := some ⟨keptRow row :: log.rows, row.id⟩ } ∧
    row.id = log.lastId + 1
  entry : row.entry = i.entry
  channel : m.channel = l.channel.map fun c =>
    c.sent (notification row (importSnapshot i l.store) (importSnapshot i m.store))
  options : m.options = l.options

/-- **What an import has done if it succeeds.** -/
theorem isImported_importAll {n : Nat} {row : Audit.Row} (h : l.importAll i = .ok ((n, row), m)) :
    IsImported l i n row m := by
  obtain ⟨t, hupsert, hlog, hm⟩ := importAll_eq_ok h
  obtain ⟨log, haudit, hstore, hrow⟩ := log_eq_ok hlog
  have hsnapshot : importSnapshot i m.store = importSnapshot i t := by
    rw [importSnapshot, importSnapshot, get_congr (rows_log hlog i.kind)]
  refine ⟨⟨t, log, hupsert, ?_, hstore, by rw [hrow]⟩, by rw [hrow], ?_, ?_⟩
  · rw [← (Store.audit_upsertFrom hupsert).1, haudit]
  · rw [hm, channel_publish, ← hsnapshot]
    rfl
  · rw [hm]
    rfl

/-- **What the audit row of an import shows** is the change between its snapshots.  The tables are
those of the store that the records have been put into. -/
theorem shows_importAll (hs : l.store.Reachable) (hr : ∀ r ∈ i.records, r.IsValid) {n : Nat}
    {row : Audit.Row} (h : l.importAll i = .ok ((n, row), m)) :
    ∃ t, l.store.upsert i.records = .ok (n, t) ∧ Store.IsSound m.store ∧
      (∀ kind, m.store.rows kind = t.rows kind) ∧
      row.oldValues = (l.importChange? (importSnapshot i l.store)
        (importSnapshot i m.store)).map Audit.Change.old ∧
      row.newValues = (l.importChange? (importSnapshot i l.store)
        (importSnapshot i m.store)).map Audit.Change.new := by
  obtain ⟨t, hupsert, hlog, -⟩ := importAll_eq_ok h
  obtain ⟨log, -, -, hrow⟩ := log_eq_ok hlog
  have hsnapshot : importSnapshot i m.store = importSnapshot i t := by
    rw [importSnapshot, importSnapshot, get_congr (rows_log hlog i.kind)]
  rw [hsnapshot, hrow]
  exact ⟨t, hupsert, Store.isSound_of_reachable ((hs.upsert hr hupsert).log hlog), rows_log hlog,
    rfl, rfl⟩

/-! ### Imports of arrays -/

/-- An item is no record, or the records cannot be put in, or there is no audit log. -/
def CannotImport (l : Ledger) (kind : RecordKind) (items : List Json) : Prop :=
  (∃ j ∈ items, ∃ e, Record.ofJson kind j = .error e) ∨
    (∃ rs, AreRecords kind items rs ∧ ∃ e, l.store.upsert rs = .error e) ∨ l.store.audit = none

/-- **An import of an array is done as a whole or not at all.**  Without a fault of the engine it
fails only if it cannot be done. -/
theorem importItems_cases (l : Ledger) (faults : List Bool) (kind : RecordKind)
    (actor source : String) (items : List Json) :
    (∃ e, l.importItems faults kind actor source items = (.error e, l) ∧
      (faults = [] → CannotImport l kind items)) ∨
    ∃ rs n row m, l.importItems faults kind actor source items = (.ok (n, row), m) ∧
      AreRecords kind items rs ∧ l.importAll ⟨kind, rs, actor, source⟩ = .ok ((n, row), m) := by
  unfold importItems
  cases hread : readRecords kind 0 items with
  | error position => exact .inl ⟨_, rfl, fun _ => .inl (readRecords_eq_error hread)⟩
  | ok rs =>
      have hrs := readRecords_eq_ok hread
      dsimp only
      rcases l.importUnder_cases faults ⟨kind, rs, actor, source⟩ with
        ⟨e, hunder, hsteady⟩ | ⟨n, row, m, hunder, hall⟩
      · rw [hunder]
        refine .inl ⟨_, rfl, fun hf => .inr ?_⟩
        rcases importAll_eq_error (hsteady hf) with hupsert | ⟨n, t, hupsert, haudit⟩
        · exact .inl ⟨rs, hrs, e, hupsert⟩
        · exact .inr ((Store.audit_upsertFrom hupsert).1 ▸ haudit)
      · rw [hunder]
        exact .inr ⟨rs, n, row, m, rfl, hrs, hall⟩

end Ledger

end CoachLedger
