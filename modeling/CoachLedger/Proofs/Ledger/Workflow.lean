/-
**What a workflow does.**

A workflow that succeeds sets its field in the master records of those of the selected coaches that
have one, and does nothing else to the records.  It counts these coaches and reports the others,
writes one row into the audit log, and makes the change known once, with the records as they were
and as they are.

Main definitions:

* `CoachLedger.Workflow.Request.known` — the selected coaches that have a master record;
* `CoachLedger.Store.IsSetTo` — the tables after a field has been set;
* `CoachLedger.Ledger.IsApplied` — what a workflow has done.

Main results:

* `CoachLedger.Store.isSetTo_update` — setting a field changes nothing else;
* `CoachLedger.Ledger.isApplied_run` — **what a workflow does if it succeeds**;
* `CoachLedger.Ledger.run_isOk_iff` — **when a workflow succeeds**;
* `CoachLedger.Ledger.execute_allOrNothing` — **a workflow is done as a whole or not at all**.
-/

import CoachLedger.Proofs.Ledger.Basic
import CoachLedger.Proofs.Ledger.Steps
import CoachLedger.Proofs.Store.Selection

set_option autoImplicit false

namespace CoachLedger

open CoachLedger.Sql (Cell)

/-! ### Selections -/

namespace Workflow

theorem nodup_selection (coaches : List String) : (selection coaches).Nodup :=
  nodup_eraseDups _

/-- The selected coaches that have a master record. -/
def Request.known (q : Request) (s : Store) : List String :=
  (selection q.coaches).filter s.knows

theorem Request.resolve_eq_ok {q : Request} {selected : List String} {v : Value}
    (h : q.resolve = .ok (selected, v)) :
    selected = selection q.coaches ∧ q.workflow.readValue q.value = .ok v := by
  unfold resolve at h
  dsimp only at h
  split at h
  · cases h
  · cases hv : q.workflow.readValue q.value with
    | error e =>
        rw [hv] at h
        cases h
    | ok w =>
        rw [hv] at h
        obtain ⟨hs, hw⟩ := Prod.mk.inj (Except.ok.inj h)
        exact ⟨hs.symm, congrArg Except.ok hw⟩

theorem Request.resolve_of_ok {q : Request} {v : Value} (hne : selection q.coaches ≠ [])
    (hv : q.workflow.readValue q.value = .ok v) : q.resolve = .ok (selection q.coaches, v) := by
  unfold resolve
  dsimp only
  rw [if_neg (by rwa [List.isEmpty_iff]), hv]
  rfl

/-- The field that a workflow sets may be set. -/
theorem isSettable_field (w : Workflow) :
    ∃ index f, Store.IsSettable .master w.field index f ∧ f.kind = w.kind := by
  obtain ⟨f, hf, hkind⟩ := Option.map_eq_some_iff.1 w.field_kind
  obtain ⟨index, hi, -, -⟩ := RecordKind.index?_of_field? hf
  refine ⟨index, f, ⟨hf, hi, ?_, ?_⟩, hkind⟩
  · cases w <;> decide
  · cases w <;> decide

/-- The value that a workflow sets has the kind of its field, which is not a number. -/
theorem kind?_readValue {w : Workflow} {raw : String} {v : Value} (h : w.readValue raw = .ok v) :
    v.kind? = some w.kind ∧ w.kind ≠ .number := by
  have hdate (hk : w.kind = .date) : v.kind? = some w.kind := by
    unfold readValue at h
    rw [hk] at h
    dsimp only at h
    cases hd : Date.read? (Text.trim raw) with
    | none =>
        rw [hd] at h
        cases h
    | some d =>
        rw [hd] at h
        rw [hk, ← Except.ok.inj h]
        rfl
  have htext (hk : w.kind = .text) : v.kind? = some w.kind := by
    unfold readValue at h
    rw [hk] at h
    dsimp only at h
    split at h
    · rename_i u hu
      split at hu
      · cases hu
      · rw [hk, ← Except.ok.inj h, ← Option.some.inj hu]
        rfl
    · cases h
  cases w with
  | batteryStatus => exact ⟨htext rfl, by decide⟩
  | upholsteryStatus => exact ⟨htext rfl, by decide⟩
  | _ => exact ⟨hdate rfl, by decide⟩

end Workflow

/-! ### Setting the field -/

namespace Store

variable {s t : Store} {coaches : List String} {field : String} {v : Value} {n : Nat}

/-- The tables after a field of the master records of some coaches has been set to a value.  No
other cell has changed. -/
structure IsSetTo (s t : Store) (coaches : List String) (field : String) (v : Value) : Prop where
  records : t.records .master =
    (s.records .master).map fun r => if r.isOf coaches then r.put field v else r
  cells : List.Forall₂
    (fun row row' => ∀ column, column ≠ field ∨ isOneOf .master coaches row = false →
      cellAt .master row' column = cellAt .master row column) s.master t.master
  history : t.history = s.history
  lastHistoryId : t.lastHistoryId = s.lastHistoryId
  version : t.version = s.version

theorem isOneOf_congr {cs ds : List String} (h : ∀ c, c ∈ cs ↔ c ∈ ds) {kind : RecordKind}
    (row : Cells) : isOneOf kind cs row = isOneOf kind ds row := by
  unfold isOneOf
  split
  · rw [Bool.eq_iff_iff, List.contains_iff_mem, List.contains_iff_mem, h]
  · rfl

/-- Only the members of the list of coaches matter. -/
theorem IsSetTo.congr {cs ds : List String} (hset : IsSetTo s t cs field v)
    (h : ∀ c, c ∈ cs ↔ c ∈ ds) : IsSetTo s t ds field v := by
  refine ⟨?_, ?_, hset.history, hset.lastHistoryId, hset.version⟩
  · rw [hset.records]
    refine List.map_congr_left ?_
    intro r _
    rw [Record.isOf_congr h]
  · refine hset.cells.imp fun row row' hcells column hcolumn => hcells column ?_
    rw [isOneOf_congr h]
    exact hcolumn

theorem decode_setIn {index : Nat} {f : Field} (hset : IsSettable .master field index f)
    (hfits : v.Fits f.kind) (hv : v ≠ .null) (hk : f.kind ≠ .number) {row : Cells}
    (hrow : IsRow .master row) :
    decode .master (setIn .master coaches index (cellFor f.kind v) row) =
      if (decode .master row).isOf coaches then (decode .master row).put field v
      else decode .master row := by
  have hlt : index < row.length := by
    obtain ⟨g, hg, -⟩ := RecordKind.fields_of_index? hset.index?
    rw [hrow.length]
    exact (List.getElem?_eq_some_iff.1 hg).1
  rw [isOf_decode hrow, setIn]
  split
  · exact decode_set hset.index? hset.field? hlt hv (Cell.toValue_cellFor hfits hk)
  · rfl

/-- **Setting a field to a value that is no number changes nothing else.** -/
theorem isSetTo_update (hs : IsSound s) (hv : v ≠ .null) (hk : v.kind? ≠ some .number)
    (h : s.update .master coaches field v = .ok (n, t)) : IsSetTo s t coaches field v := by
  obtain ⟨index, f, hset, hfits, -, rfl⟩ := update_ok h
  have hnumber : f.kind ≠ .number := by
    intro hf
    cases hkind : v.kind? with
    | none =>
        cases v with
        | null => exact hv rfl
        | _ => cases hkind
    | some k => exact hk (by rw [hkind, hfits k hkind, hf])
  refine ⟨?_, ?_, rfl, rfl, rfl⟩
  · rw [records, rows_withRows_self, records, List.map_map, List.map_map]
    refine List.map_congr_left ?_
    intro row hrow
    exact decode_setIn hset hfits hv hnumber (hs.rows .master row hrow)
  · change List.Forall₂ _ s.master (s.master.map _)
    rw [List.forall₂_map_right_iff, List.forall₂_same]
    intro row _ column hcolumn
    rw [setIn]
    split
    · rename_i hof
      rcases hcolumn with hne | hnot
      · exact cellAt_set_of_ne hset.index? hne _
      · rw [hnot] at hof
        cases hof
    · rfl

end Store

namespace Ledger

/-! ### What a workflow does -/

variable {l m : Ledger} {q : Workflow.Request} {out : Workflow.Outcome} {selected : List String}
  {v : Value} {s u : Store}

/-- The master records of some coaches, in the order of the table, as they are made known. -/
def snapshot (s : Store) (coaches : List String) : Json :=
  Record.listToJson ((s.records .master).filter (Record.isOf coaches))

/-- What a workflow has done: its field has been set in the records of the known coaches, one row
has been written into the audit log, and one notification has been sent. -/
structure IsApplied (l : Ledger) (q : Workflow.Request) (out : Workflow.Outcome) (m : Ledger) :
    Prop where
  known : q.known l.store ≠ []
  missing : out.missing = (Workflow.selection q.coaches).filter fun coach => !l.store.knows coach
  updated : out.updated = (q.known l.store).length
  tables : ∃ v, q.workflow.readValue q.value = .ok v ∧
    Store.IsSetTo l.store m.store (q.known l.store) q.workflow.field v
  audit : ∃ log row, l.store.audit = some log ∧ m.store.audit = some ⟨row :: log.rows, row.id⟩ ∧
    row.id = log.lastId + 1 ∧ row.id = out.audit.id ∧ row.entry = out.audit.entry
  entry : ∃ found, found.Perm (q.known l.store) ∧ out.audit.entry = q.entry found
  channel : m.channel = l.channel.map fun c => c.sent (notification out.audit
    (snapshot l.store (q.known l.store)) (snapshot m.store (q.known l.store)))
  options : m.options = l.options

/-- How a workflow succeeds on the tables. -/
theorem task_eq_ok {r : Workflow.Report} (h : l.task q selected v s = .ok (r, u)) :
    ∃ found n t log change,
      (s.get .master selected).filterMap Record.identity? = found ∧ found ≠ [] ∧
      s.update .master found q.workflow.field v = .ok (n, t) ∧ t.audit = some log ∧
      change = Audit.change? l.options (Record.listToJson (s.get .master selected))
        (Record.listToJson (t.get .master found)) ∧
      u = { t with audit := some (log.append (q.entry found) change).2 } ∧
      r = ⟨⟨n, selected.filter fun coach => !found.contains coach,
          (log.append (q.entry found) change).1⟩,
        Record.listToJson (s.get .master selected), Record.listToJson (t.get .master found)⟩ := by
  unfold task apply at h
  dsimp only at h
  split at h
  · cases h
  · rename_i hfound
    cases hu : s.update .master ((s.get .master selected).filterMap Record.identity?)
        q.workflow.field v with
    | error e =>
        rw [hu] at h
        cases h
    | ok p =>
        obtain ⟨n, t⟩ := p
        rw [hu] at h
        dsimp only [Except.mapError, Except.bind] at h
        unfold audit at h
        dsimp only at h
        cases hl : t.log (q.entry ((s.get .master selected).filterMap Record.identity?))
            (Audit.change? l.options (Record.listToJson (s.get .master selected))
              (Record.listToJson (t.get .master
                ((s.get .master selected).filterMap Record.identity?)))) with
        | error e =>
            rw [hl] at h
            cases h
        | ok p' =>
            obtain ⟨row, t'⟩ := p'
            rw [hl] at h
            obtain ⟨hr, rfl⟩ := Prod.mk.inj (Except.ok.inj h)
            obtain ⟨log, hlog, rfl, rfl⟩ := Store.log_ok hl
            refine ⟨_, n, t, log, _, rfl, ?_, hu, hlog, rfl, rfl, hr.symm⟩
            intro hnil
            exact hfound (by rw [hnil]; rfl)

/-- The coaches that are found are the known ones. -/
theorem mem_found (hs : Store.IsSound s) (q : Workflow.Request) (t : String) :
    t ∈ (s.get .master (Workflow.selection q.coaches)).filterMap Record.identity? ↔
      t ∈ q.known s := by
  rw [Store.mem_identities_get hs (Workflow.nodup_selection _), Workflow.Request.known,
    List.mem_filter]

/-- **What a workflow does if it succeeds.** -/
theorem isApplied_run (hs : Store.IsSound l.store) (h : l.run q = .ok (out, m)) :
    IsApplied l q out m := by
  obtain ⟨selected, v, r, u, hq, htask, hfinish⟩ := run_eq_ok h
  obtain ⟨rfl, hv⟩ := Workflow.Request.resolve_eq_ok hq
  obtain ⟨hkind, hnumber⟩ := Workflow.kind?_readValue hv
  have hd := Workflow.nodup_selection q.coaches
  obtain ⟨found, n, t, log, change, hfound, hne, hupdate, hlog, -, rfl, rfl⟩ := task_eq_ok htask
  obtain ⟨rfl, rfl⟩ := Prod.mk.inj hfinish
  -- The coaches are found in the order of the table, and known in that of the request.
  have hmem : ∀ c, c ∈ found ↔ c ∈ q.known l.store := hfound ▸ mem_found hs q
  have hnodup : found.Nodup := hfound ▸ Store.nodup_identities_get hs hd
  have hperm : found.Perm (q.known l.store) := hfound ▸ Store.identities_get_perm hs hd
  have hset : Store.IsSetTo l.store t found q.workflow.field v := by
    refine Store.isSetTo_update hs ?_ ?_ hupdate
    · rintro rfl
      cases hkind
    · rw [hkind]
      exact fun hn => hnumber (Option.some.inj hn)
  have haudit : t.audit = l.store.audit := by
    obtain ⟨index, f, -, -, -, rfl⟩ := Store.update_ok hupdate
    rfl
  have hbefore : Record.listToJson (l.store.get .master (Workflow.selection q.coaches)) =
      snapshot l.store (q.known l.store) := by
    rw [snapshot, Workflow.Request.known, Store.filter_isOf_knows, Store.get_master hs hd]
  have hafter : Record.listToJson (t.get .master found) = snapshot t (q.known l.store) := by
    rw [snapshot, Store.get_master (Store.isSound_update hs hupdate) hnodup]
    exact congrArg Record.listToJson (List.filter_congr fun r _ => Record.isOf_congr hmem r)
  refine ⟨?_, ?_, ?_, ⟨v, hv, ?_⟩, ⟨log, _, haudit ▸ hlog, rfl, rfl, rfl, rfl⟩,
    ⟨found, hperm, rfl⟩, ?_, rfl⟩
  · intro hnil
    rw [hnil] at hperm
    exact hne hperm.eq_nil
  · refine List.filter_congr fun c hc => congrArg not ?_
    rw [Bool.eq_iff_iff, List.contains_iff_mem, hmem, Workflow.Request.known, List.mem_filter]
    exact and_iff_right hc
  · obtain ⟨index, f, -, -, hcount, -⟩ := Store.update_ok hupdate
    have hknown : found.filter l.store.knows = found :=
      List.filter_eq_self.2 fun c hc => (List.mem_filter.1 ((hmem c).1 hc)).2
    calc n = (l.store.rows .master).countP (Store.isOneOf .master found) := hcount hnodup
      _ = (found.filter l.store.knows).length := Store.countP_isOneOf hs hnodup
      _ = (q.known l.store).length := by rw [hknown, hperm.length_eq]
  · obtain ⟨hrecords, hcells, hhistory, hlast, hversion⟩ := hset.congr hmem
    exact ⟨hrecords, hcells, hhistory, hlast, hversion⟩
  · dsimp only
    rw [channel_publish, hbefore, hafter]
    rfl

/-! ### When a workflow succeeds -/

/-- The tables can be changed if a coach is known and there is an audit log. -/
theorem task_isOk (hs : Store.IsSound s) (hknown : q.known s ≠ []) {log : Audit.Log}
    (hlog : s.audit = some log) (hv : v.kind? = some q.workflow.kind) :
    (l.task q (Workflow.selection q.coaches) v s).isOk = true := by
  have hperm := Store.identities_get_perm hs (Workflow.nodup_selection q.coaches)
  have hfound : ¬((s.get .master (Workflow.selection q.coaches)).filterMap
      Record.identity?).isEmpty = true := by
    rw [List.isEmpty_iff]
    intro hnil
    rw [hnil] at hperm
    exact hknown hperm.nil_eq.symm
  obtain ⟨index, f, hset, hkind⟩ := q.workflow.isSettable_field
  have hfits : v.Fits f.kind := by
    intro k hk
    rw [hkind]
    exact Option.some.inj (hk.symm.trans hv)
  obtain ⟨n, hupdate⟩ := Store.update_eq_ok hset hfits s
    ((s.get .master (Workflow.selection q.coaches)).filterMap Record.identity?)
  unfold task apply
  dsimp only
  rw [if_neg hfound, hupdate]
  dsimp only [Except.mapError, Except.bind]
  unfold audit Store.log Store.withRows
  dsimp only
  rw [hlog]
  rfl

/-- **When a workflow succeeds.**  There must be a selected coach with a master record, a value for
the field, and an audit log. -/
theorem run_isOk_iff (hs : Store.IsSound l.store) :
    (l.run q).isOk = true ↔ q.known l.store ≠ [] ∧ (q.workflow.readValue q.value).isOk = true ∧
      l.store.audit.isSome = true := by
  constructor
  · intro h
    cases hr : l.run q with
    | error e =>
        rw [hr] at h
        cases h
    | ok p =>
        obtain ⟨out, m⟩ := p
        have happlied := isApplied_run hs hr
        obtain ⟨v, hv, -⟩ := happlied.tables
        obtain ⟨log, row, hlog, -⟩ := happlied.audit
        exact ⟨happlied.known, by rw [hv]; rfl, by rw [hlog]; rfl⟩
  · rintro ⟨hknown, hvalue, hlog⟩
    obtain ⟨log, hlog⟩ := Option.isSome_iff_exists.1 hlog
    cases hv : q.workflow.readValue q.value with
    | error e =>
        rw [hv] at hvalue
        cases hvalue
    | ok v =>
        have hselected : Workflow.selection q.coaches ≠ [] := by
          intro hnil
          rw [Workflow.Request.known, hnil] at hknown
          exact hknown rfl
        rw [run_eq (Workflow.Request.resolve_of_ok hselected hv)]
        have htask := task_isOk (l := l) (q := q) (v := v) hs hknown hlog ?_
        · cases ht : l.task q (Workflow.selection q.coaches) v l.store with
          | error e =>
              rw [ht] at htask
              cases htask
          | ok p => rfl
        · exact (Workflow.kind?_readValue hv).1

/-! ### All or nothing -/

/-- **A workflow is done as a whole or not at all.**  Whichever statements the engine fails, it
either fails and leaves the ledger as it was, or it does all that it is to do.  Without a fault of
the engine it fails only if there is no selected coach with a master record, no value for the field,
or no audit log. -/
theorem execute_allOrNothing (hs : l.store.Reachable) (faults : List Bool) (q : Workflow.Request) :
    (∃ e, l.execute faults q = (.error e, l) ∧
      (faults = [] → q.known l.store = [] ∨ (q.workflow.readValue q.value).isOk = false ∨
        l.store.audit = none)) ∨
    ∃ out m, l.execute faults q = (.ok out, m) ∧ l.run q = .ok (out, m) ∧ IsApplied l q out m := by
  have hsound := Store.isSound_of_reachable hs
  cases hx : l.execute faults q with
  | mk r m =>
      cases r with
      | ok out =>
          have hrun := execute_of_ok hx
          exact .inr ⟨out, m, rfl, hrun, isApplied_run hsound hrun⟩
      | error e =>
          obtain rfl := execute_of_error hx
          refine .inl ⟨e, rfl, ?_⟩
          rintro rfl
          -- Without faults the workflow fails in one go as well.
          have hrun : (m.run q).isOk ≠ true := by
            intro hok
            rw [execute_nil] at hx
            cases hr : m.run q with
            | ok p =>
                rw [hr] at hx
                cases (Prod.mk.inj hx).1
            | error e' =>
                rw [hr] at hok
                cases hok
          rw [Ne, run_isOk_iff hsound] at hrun
          by_cases hknown : q.known m.store = []
          · exact .inl hknown
          · by_cases hvalue : (q.workflow.readValue q.value).isOk = true
            · refine .inr (.inr (Option.isSome_eq_false_iff.1 ?_ |> Option.isNone_iff_eq_none.1))
              rw [Bool.eq_false_iff]
              exact fun hlog => hrun ⟨hknown, hvalue, hlog⟩
            · exact .inr (.inl (Bool.eq_false_iff.2 hvalue))

/-- A ledger with one coach, and a channel that somebody is subscribed to. -/
def yardLedger : Ledger :=
  ⟨Store.yard, .standard,
    some { (Audit.Channel.create 8 : Audit.Channel Notification) with
      subscribers := [("desk", 0)] }⟩

/-- The coach comes into the yard, and so does one that is not known. -/
def yardRequest : Workflow.Request :=
  ⟨.yardIn, [" C1 ", "", "C9", "C1"], "2024-03-01", "clerk", none⟩

theorem reachable_yardLedger : yardLedger.store.Reachable :=
  Store.reachable_yard

theorem execute_allOrNothing_yard :
    yardLedger.store.Reachable ∧ ∃ out m, yardLedger.execute [] yardRequest = (.ok out, m) ∧
      out.updated = 1 ∧ out.missing = ["C9"] ∧ IsApplied yardLedger yardRequest out m := by
  refine ⟨reachable_yardLedger, ?_⟩
  rcases execute_allOrNothing reachable_yardLedger [] yardRequest with
    ⟨e, -, he⟩ | ⟨out, m, hx, -, happlied⟩
  · rcases he rfl with hknown | hvalue | hlog
    · exact absurd hknown (by decide +kernel)
    · exact absurd hvalue (by decide +kernel)
    · exact absurd hlog (by decide +kernel)
  · refine ⟨out, m, hx, ?_, ?_, happlied⟩
    · rw [happlied.updated]
      decide +kernel
    · rw [happlied.missing]
      decide +kernel

end Ledger

end CoachLedger
