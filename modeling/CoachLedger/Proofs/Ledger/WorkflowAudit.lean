/-
**What the audit log shows of a workflow.**

A workflow sets one field to one value, so the audit log shows this field for each coach whose
record had another value before, and no other coach and no other field.  The snapshots before and
after have the same coaches in the same order, so it does not matter how their entries are aligned.
When the workflow runs again, no record has another value any more, and nothing is shown.

Main definitions:

* `CoachLedger.Audit.fieldFragment` — the fragment of a coach that shows one field;
* `CoachLedger.Ledger.ShowsFieldChanges` — the audit row of a workflow shows what it has changed.

Main results:

* `CoachLedger.Ledger.get_after` — the records after a workflow are those before it with the field
  set;
* `CoachLedger.Ledger.showsFieldChanges_run` — what the audit row of a workflow shows;
* `CoachLedger.Ledger.execute_auditExact` — **it shows what has changed, and a second run changes
  nothing**.
-/

import CoachLedger.Proofs.Ledger.Workflow
import CoachLedger.Proofs.Store.Masters

set_option autoImplicit false

namespace CoachLedger

/-! ### Setting a field -/

namespace Record

variable {r : Record} {field : String} {v : Value}

/-- Setting a field to another value changes this field only. -/
theorem changedFields_put (hf : r.kind.has field = true)
    (hv : (r.get field).toJson = v.toJson → r.get field = v) :
    changedFields r (r.put field v) = if r.get field = v then [] else [field] := by
  have hmem (name : String) : name ∈ changedFields r (r.put field v) ↔
      name = field ∧ r.get field ≠ v := by
    rw [mem_changedFields]
    by_cases hn : name = field
    · rw [hn, get_put_self hf]
      exact (not_congr ⟨hv, congrArg Value.toJson⟩).trans (and_iff_right rfl).symm
    · rw [get_put_of_ne r hn]
      exact iff_of_false (fun h => h rfl) fun h => hn h.1
  split
  · rename_i heq
    refine List.eq_nil_iff_forall_not_mem.2 fun name hname => ?_
    exact ((hmem name).1 hname).2 heq
  · rename_i hne
    refine List.perm_singleton.1 ?_
    refine (List.perm_ext_iff_of_nodup (nodup_changedFields _ _) (List.nodup_singleton _)).2 ?_
    intro name
    rw [hmem, List.mem_singleton]
    exact and_iff_left hne

theorem identity?_put (hne : field ≠ CoachLedger.identityField) :
    (r.put field v).identity? = r.identity? := by
  rw [identity?, identity?, get_put_of_ne r hne.symm]

theorem isOf_put (hne : field ≠ CoachLedger.identityField) (coaches : List String) :
    (r.put field v).isOf coaches = r.isOf coaches := by
  rw [isOf, isOf, identity?_put hne]

end Record

/-- The fragment of a coach that shows one field. -/
def Audit.fieldFragment (coach field : String) (j : Json) : Json :=
  .object [(Audit.tagField, .string coach), (field, j)]

/-- The entry of a record with a field set. -/
theorem Audit.entryOfRecords_put {r : Record} {field coach : String} {v : Value}
    (hf : r.kind.has field = true) (hne : field ≠ CoachLedger.identityField)
    (hc : r.get CoachLedger.identityField = .text coach)
    (hv : (r.get field).toJson = v.toJson → r.get field = v) :
    Audit.entryOfRecords (some r, some (r.put field v)) =
      if r.get field = v then none
      else some ⟨Audit.fieldFragment coach field (r.get field).toJson,
        Audit.fieldFragment coach field v.toJson⟩ := by
  rw [Audit.entryOfRecords, Record.changedFields_put hf hv]
  by_cases h : r.get field = v
  · rw [if_pos h, if_pos rfl, if_pos h]
  · rw [if_neg h, if_neg (List.cons_ne_nil _ _), if_neg h, Audit.tagged, Audit.tagged,
      Record.get_put_of_ne r hne.symm, hc]
    simp only [Record.showing, List.map_cons, List.map_nil, Record.get_put_self hf]
    rfl

namespace Store

variable {s t u : Store} {kind : RecordKind}

/-- Setting the same field of the same coaches again changes nothing. -/
theorem rows_update_again {cs ds : List String} {field : String} {v : Value} {n k : Nat}
    (h : s.update kind cs field v = .ok (n, t)) {t' : Store} (ht : t'.rows kind = t.rows kind)
    (h' : t'.update kind ds field v = .ok (k, u)) (hcs : ∀ c, c ∈ cs ↔ c ∈ ds) :
    u.rows kind = t'.rows kind := by
  obtain ⟨i, f, hset, -, -, rfl⟩ := update_ok h
  obtain ⟨j, g, hset', -, -, rfl⟩ := update_ok h'
  obtain rfl : i = j := Option.some.inj (hset.index?.symm.trans hset'.index?)
  obtain rfl : f = g := Option.some.inj (hset.field?.symm.trans hset'.field?)
  rw [rows_withRows_self, ht, rows_withRows_self, List.map_map]
  refine List.map_congr_left fun row _ => ?_
  have hmem : ∀ c, c ∈ cs ++ ds ↔ c ∈ cs := by
    intro c
    rw [List.mem_append, hcs, or_self]
  rw [Function.comp_apply, setIn_setIn hset.index? hset.ne_identity, setIn, setIn,
    isOneOf_congr hmem]

end Store

namespace Ledger

variable {l m : Ledger} {q : Workflow.Request} {out : Workflow.Outcome} {v : Value}

/-! ### The snapshots -/

/-- **The records after a workflow are those before it with the field set.** -/
theorem get_after {s t : Store} {selected found : List String} {field : String} {n : Nat}
    (hs : Store.IsSound s) (hd : selected.Nodup) (hne : field ≠ CoachLedger.identityField)
    (hv : v ≠ .null) (hk : v.kind? ≠ some .number)
    (hfound : (s.get .master selected).filterMap Record.identity? = found)
    (h : s.update .master found field v = .ok (n, t)) :
    t.get .master found = (s.get .master selected).map fun r => r.put field v := by
  have hnodup : found.Nodup := hfound ▸ Store.nodup_identities_get hs hd
  have hset := (Store.isSetTo_update hs hv hk h).records
  -- The coaches that are found are the selected ones that have a record.
  have hof : ∀ r ∈ s.records .master, r.isOf found = r.isOf selected := by
    intro r hr
    obtain ⟨c, -, hid, -⟩ := Store.exists_get_identity hs hr
    rw [Bool.eq_iff_iff, Record.isOf_iff hid, Record.isOf_iff hid, ← hfound,
      Store.mem_identities_get hs hd]
    exact and_iff_left (Store.knows_iff.2 ⟨r, hr, hid⟩)
  rw [Store.get_master (Store.isSound_update hs h) hnodup, Store.get_master hs hd, hset,
    List.filter_map]
  have hselect : (s.records .master).filter
      (Record.isOf found ∘ fun r => if r.isOf found then r.put field v else r) =
      (s.records .master).filter (Record.isOf selected) := by
    refine List.filter_congr fun r hr => ?_
    rw [Function.comp_apply, ← hof r hr]
    split
    · exact Record.isOf_put hne found
    · rfl
  rw [hselect]
  refine List.map_congr_left fun r hr => ?_
  obtain ⟨hr, hsel⟩ := List.mem_filter.1 hr
  rw [if_pos (by rw [hof r hr, hsel])]

/-! ### The audit row -/

/-- The audit row of a workflow shows the field of each known coach whose value was another one, in
ascending order of the coaches, with the value before and the value that was set. -/
def ShowsFieldChanges (s : Store) (q : Workflow.Request) (v : Value) (row : Audit.Row) : Prop :=
  ∃ changed : List String, changed.Pairwise (· < ·) ∧
    (∀ c, c ∈ changed ↔ c ∈ q.known s ∧ s.fieldOf c q.workflow.field ≠ v) ∧
    row.oldValues = Audit.arrayOf? (changed.map fun c =>
      Audit.fieldFragment c q.workflow.field (s.fieldOf c q.workflow.field).toJson) ∧
    row.newValues = Audit.arrayOf? (changed.map fun c =>
      Audit.fieldFragment c q.workflow.field v.toJson)

/-- A change of the records of the known coaches is shown coach by coach. -/
theorem showsFieldChanges_of_get {s : Store} {row : Audit.Row} {o : Audit.Options}
    (hs : Store.IsSound s) (ho : o.identityField = CoachLedger.identityField)
    (hv : v.kind? = some q.workflow.kind) (hnumber : q.workflow.kind ≠ .number)
    (hold : row.oldValues = (Audit.change? o
      (Record.listToJson (s.get .master (Workflow.selection q.coaches)))
      (Record.listToJson ((s.get .master (Workflow.selection q.coaches)).map fun r =>
        r.put q.workflow.field v))).map Audit.Change.old)
    (hnew : row.newValues = (Audit.change? o
      (Record.listToJson (s.get .master (Workflow.selection q.coaches)))
      (Record.listToJson ((s.get .master (Workflow.selection q.coaches)).map fun r =>
        r.put q.workflow.field v))).map Audit.Change.new) :
    ShowsFieldChanges s q v row := by
  have hd := Workflow.nodup_selection q.coaches
  obtain ⟨index, f, hset, hkind⟩ := q.workflow.isSettable_field
  have hhas : RecordKind.master.has q.workflow.field = true :=
    RecordKind.has_of_field? hset.field?
  have hmem : ∀ r ∈ s.get .master (Workflow.selection q.coaches), r ∈ s.records .master :=
    fun r hr => Store.mem_records_of_get hs hd hr
  have hfits : v.Fits f.kind := fun k hk => by
    rw [hkind]
    exact Option.some.inj (hk.symm.trans hv)
  -- The entry of a record is that of its coach.
  obtain ⟨entry, hentry⟩ : ∃ entry : String → Audit.Change, ∀ c, entry c =
      ⟨Audit.fieldFragment c q.workflow.field (s.fieldOf c q.workflow.field).toJson,
        Audit.fieldFragment c q.workflow.field v.toJson⟩ := ⟨_, fun c => rfl⟩
  obtain ⟨changed, hchanged⟩ : ∃ changed, ((s.get .master (Workflow.selection q.coaches)).filter
      fun r => r.get q.workflow.field ≠ v).filterMap Record.identity? = changed := ⟨_, rfl⟩
  have hentries : (s.get .master (Workflow.selection q.coaches)).filterMap
      (fun r => Audit.entryOfRecords (some r, some (r.put q.workflow.field v))) =
        changed.map entry := by
    rw [← hchanged, List.filterMap_filter, List.map_filterMap]
    refine List.filterMap_congr fun r hr => ?_
    obtain ⟨c, hc, hid, hk⟩ := Store.exists_get_identity hs (hmem r hr)
    have hinj : (r.get q.workflow.field).toJson = v.toJson → r.get q.workflow.field = v :=
      Value.toJson_inj (by rw [hkind]; exact hnumber)
        (Store.fits_of_mem_records hs (hmem r hr) hset.field?) hfits
    rw [Audit.entryOfRecords_put (by rw [hk]; exact hhas) hset.ne_identity hc hinj]
    by_cases heq : r.get q.workflow.field = v
    · simp [heq]
    · simp [heq, hid, hentry, Store.fieldOf_eq hs (hmem r hr) hid]
  have hchange := Audit.change?_map (o := o) ho
    (fun r hr => Store.hasCoach_of_mem_records hs (hmem r hr))
    (f := fun r => r.put q.workflow.field v)
    fun r _ => ⟨Record.kind_put r _ v, Record.get_put_of_ne r hset.ne_identity.symm v⟩
  rw [hentries] at hchange
  rw [hchange] at hold hnew
  refine ⟨changed, ?_, ?_, ?_, ?_⟩
  · rw [← hchanged]
    exact (Store.ascending_identities_get hs hd).sublist (List.filter_sublist.filterMap _)
  · intro c
    rw [← hchanged, List.mem_filterMap, Workflow.Request.known, List.mem_filter,
      ← Store.mem_identities_get hs hd, List.mem_filterMap]
    constructor
    · rintro ⟨r, hr, hid⟩
      obtain ⟨hr, hne⟩ := List.mem_filter.1 hr
      refine ⟨⟨r, hr, hid⟩, ?_⟩
      rw [Store.fieldOf_eq hs (hmem r hr) hid]
      simpa using hne
    · rintro ⟨⟨r, hr, hid⟩, hne⟩
      rw [Store.fieldOf_eq hs (hmem r hr) hid] at hne
      exact ⟨r, List.mem_filter.2 ⟨hr, by simpa using hne⟩, hid⟩
  · rw [hold, (Audit.map_ofEntries? _).1, List.map_map]
    refine congrArg Audit.arrayOf? (List.map_congr_left fun c _ => ?_)
    rw [Function.comp_apply, hentry]
  · rw [hnew, (Audit.map_ofEntries? _).2, List.map_map]
    refine congrArg Audit.arrayOf? (List.map_congr_left fun c _ => ?_)
    rw [Function.comp_apply, hentry]

/-- A workflow that succeeds sets the field of the coaches that are found and logs the change. -/
theorem run_steps (h : l.run q = .ok (out, m)) :
    ∃ v found n t, q.workflow.readValue q.value = .ok v ∧
      (l.store.get .master (Workflow.selection q.coaches)).filterMap Record.identity? = found ∧
      l.store.update .master found q.workflow.field v = .ok (n, t) ∧
      t.log (q.entry found) (Audit.change? l.options
        (Record.listToJson (l.store.get .master (Workflow.selection q.coaches)))
        (Record.listToJson (t.get .master found))) = .ok (out.audit, m.store) ∧
      m.options = l.options := by
  obtain ⟨selected, v, r, u, hq, htask, hfinish⟩ := run_eq_ok h
  obtain ⟨rfl, hv⟩ := Workflow.Request.resolve_eq_ok hq
  obtain ⟨found, n, t, log, change, hfound, -, hupdate, hlog, rfl, rfl, rfl⟩ := task_eq_ok htask
  obtain ⟨rfl, rfl⟩ := Prod.mk.inj hfinish
  refine ⟨v, found, n, t, hv, hfound, hupdate, ?_, rfl⟩
  unfold Store.log
  rw [hlog]
  rfl

theorem reachable_run (hs : l.store.Reachable) (h : l.run q = .ok (out, m)) :
    m.store.Reachable := by
  obtain ⟨v, found, n, t, -, -, hupdate, hlog, -⟩ := run_steps h
  exact (hs.update hupdate).log hlog

/-- **What the audit row of a workflow shows.** -/
theorem showsFieldChanges_run (hs : Store.IsSound l.store)
    (ho : l.options.identityField = CoachLedger.identityField) (h : l.run q = .ok (out, m)) :
    ∃ v log, q.workflow.readValue q.value = .ok v ∧ ShowsFieldChanges l.store q v out.audit ∧
      l.store.audit = some log ∧ m.store.audit = some ⟨keptRow out.audit :: log.rows, out.audit.id⟩ := by
  obtain ⟨v, found, n, t, hv, hfound, hupdate, hlog, -⟩ := run_steps h
  obtain ⟨hkind, hnumber⟩ := Workflow.kind?_readValue hv
  obtain ⟨index, f, hset, -⟩ := q.workflow.isSettable_field
  have hnull : v ≠ .null := by
    rintro rfl
    cases hkind
  have hk : v.kind? ≠ some .number := by
    rw [hkind]
    exact fun hn => hnumber (Option.some.inj hn)
  rw [get_after hs (Workflow.nodup_selection _) hset.ne_identity hnull hk hfound hupdate] at hlog
  obtain ⟨log, hlog', hstore, hrow⟩ := log_eq_ok hlog
  have haudit : t.audit = l.store.audit := by
    obtain ⟨i, g, -, -, -, rfl⟩ := Store.update_ok hupdate
    rfl
  refine ⟨v, log, hv, showsFieldChanges_of_get hs ho hkind hnumber ?_ ?_, haudit ▸ hlog', ?_⟩
  · rw [hrow]
  · rw [hrow]
  · rw [hstore]

/-! ### A second run -/

/-- After a workflow the coaches are known that were known before, and those that were selected have
the value. -/
theorem known_and_fieldOf_run (hs : l.store.Reachable) (h : l.run q = .ok (out, m)) {v : Value}
    (hv : q.workflow.readValue q.value = .ok v) :
    (∀ c, m.store.knows c = l.store.knows c) ∧
      ∀ c ∈ q.known l.store, m.store.fieldOf c q.workflow.field = v := by
  have hsound := Store.isSound_of_reachable hs
  obtain ⟨v', hv', hset⟩ := (isApplied_run hsound h).tables
  obtain rfl : v = v' := Except.ok.inj (hv.symm.trans hv')
  obtain ⟨index, f, hfield, -⟩ := q.workflow.isSettable_field
  -- A record keeps its coach, whether it is changed or not.
  have hidentity (r : Record) : (if r.isOf (q.known l.store) then r.put q.workflow.field v
      else r).identity? = r.identity? := by
    split
    · exact Record.identity?_put hfield.ne_identity
    · rfl
  refine ⟨?_, ?_⟩
  · intro c
    rw [Store.knows, hset.records, List.any_map, Store.knows]
    refine congrArg (fun p => List.any _ p) (funext fun r => ?_)
    rw [Function.comp_apply, hidentity]
  · intro c hc
    obtain ⟨r, hr, hid⟩ := Store.knows_iff.1 (List.mem_filter.1 hc).2
    have hmem : r.put q.workflow.field v ∈ m.store.records .master := by
      rw [hset.records]
      refine List.mem_map.2 ⟨r, hr, ?_⟩
      rw [if_pos ((Record.isOf_iff hid).2 hc)]
    obtain ⟨-, -, -, hkind⟩ := Store.exists_get_identity hsound hr
    rw [Store.fieldOf_eq (Store.isSound_of_reachable (reachable_run hs h)) hmem
      ((Record.identity?_put hfield.ne_identity).trans hid)]
    refine Record.get_put_self ?_ v
    rw [hkind]
    exact RecordKind.has_of_field? hfield.field?

/-- The same request succeeds again with the same result, leaves the master records as they are, and
logs an entry without values. -/
def IsRepeated (q : Workflow.Request) (m : Ledger) (out : Workflow.Outcome) : Prop :=
  ∃ out' m' log, m.execute [] q = (.ok out', m') ∧ out'.updated = out.updated ∧
    out'.missing = out.missing ∧ m'.store.master = m.store.master ∧
    out'.audit.oldValues = none ∧ out'.audit.newValues = none ∧ m.store.audit = some log ∧
    m'.store.audit = some ⟨keptRow out'.audit :: log.rows, out'.audit.id⟩

/-- **A second run succeeds with the same result and changes nothing.** -/
theorem isRepeated_run (hs : l.store.Reachable)
    (ho : l.options.identityField = CoachLedger.identityField) (h : l.run q = .ok (out, m)) :
    IsRepeated q m out := by
  have hsound := Store.isSound_of_reachable hs
  have hreach := reachable_run hs h
  have hsound' := Store.isSound_of_reachable hreach
  have happlied := isApplied_run hsound h
  obtain ⟨v, hv, -⟩ := happlied.tables
  obtain ⟨hknows, hfield⟩ := known_and_fieldOf_run hs h hv
  have hknown : q.known m.store = q.known l.store := List.filter_congr fun c _ => hknows c
  -- The second run has what it needs.
  have hok : (m.run q).isOk = true := by
    obtain ⟨log, row, -, hlog, -⟩ := happlied.audit
    refine (run_isOk_iff hsound').2 ⟨?_, ?_, ?_⟩
    · rw [hknown]
      exact happlied.known
    · rw [hv]
      rfl
    · rw [hlog]
      rfl
  cases hrun : m.run q with
  | error e =>
      rw [hrun] at hok
      cases hok
  | ok p =>
      obtain ⟨out', m'⟩ := p
      have happlied' := isApplied_run hsound' hrun
      have hoptions : m.options.identityField = CoachLedger.identityField := by
        rw [happlied.options, ho]
      obtain ⟨w, log, hw, ⟨changed, -, hchanged, hold, hnew⟩, hlog, hlog'⟩ :=
        showsFieldChanges_run hsound' hoptions hrun
      obtain rfl : v = w := Except.ok.inj (hv.symm.trans hw)
      -- No known coach has another value.
      have hnil : changed = [] := by
        refine List.eq_nil_iff_forall_not_mem.2 fun c hc => ?_
        obtain ⟨hc, hne⟩ := (hchanged c).1 hc
        exact hne (hfield c (hknown ▸ hc))
      refine ⟨out', m', log, ?_, ?_, ?_, ?_, ?_, ?_, hlog, hlog'⟩
      · rw [execute_nil, hrun]
      · rw [happlied'.updated, happlied.updated, hknown]
      · rw [happlied'.missing, happlied.missing]
        exact List.filter_congr fun c _ => congrArg not (hknows c)
      · -- The same cells are set to the same values.
        obtain ⟨v₁, found₁, n₁, t₁, hv₁, hfound₁, hupdate₁, hlog₁, -⟩ := run_steps h
        obtain ⟨v₂, found₂, n₂, t₂, hv₂, hfound₂, hupdate₂, hlog₂, -⟩ := run_steps hrun
        obtain rfl : v₁ = v₂ := Except.ok.inj (hv₁.symm.trans hv₂)
        have hmem : ∀ c, c ∈ found₁ ↔ c ∈ found₂ := by
          intro c
          rw [← hfound₁, ← hfound₂, mem_found hsound, mem_found hsound', hknown]
        exact (rows_log hlog₂ .master).trans
          (Store.rows_update_again hupdate₁ (rows_log hlog₁ .master) hupdate₂ hmem)
      · rw [hold, hnil]
        rfl
      · rw [hnew, hnil]
        rfl

/-- **The audit log shows exactly what a workflow has changed**, and a second run of it changes
nothing. -/
theorem execute_auditExact (hs : l.store.Reachable)
    (ho : l.options.identityField = CoachLedger.identityField) {faults : List Bool}
    (h : l.execute faults q = (.ok out, m)) :
    (∃ v log, q.workflow.readValue q.value = .ok v ∧ ShowsFieldChanges l.store q v out.audit ∧
      l.store.audit = some log ∧
      m.store.audit = some ⟨keptRow out.audit :: log.rows, out.audit.id⟩) ∧
    IsRepeated q m out := by
  have hrun := execute_of_ok h
  exact ⟨showsFieldChanges_run (Store.isSound_of_reachable hs) ho hrun, isRepeated_run hs ho hrun⟩

/-- A coach comes into the yard, which the audit log shows. -/
theorem execute_auditExact_yard :
    yardLedger.store.Reachable ∧ yardLedger.options.identityField = CoachLedger.identityField ∧
      ∃ out m, yardLedger.execute [] yardRequest = (.ok out, m) ∧
        out.audit.oldValues.isSome = true ∧ IsRepeated yardRequest m out := by
  have hsound := Store.isSound_of_reachable reachable_yardLedger
  have hok : (yardLedger.run yardRequest).isOk = true :=
    (run_isOk_iff hsound).2 ⟨by decide +kernel, by decide +kernel, by decide +kernel⟩
  have hx := execute_nil yardLedger yardRequest
  cases hrun : yardLedger.run yardRequest with
  | error e =>
      rw [hrun] at hok
      cases hok
  | ok p =>
      rw [hrun] at hx
      obtain ⟨⟨v, log, hv, ⟨changed, -, hmem, hold, -⟩, -⟩, hrepeated⟩ :=
        execute_auditExact reachable_yardLedger rfl hx
      -- The coach was not in the yard before.
      have hvalue : yardLedger.store.fieldOf "C1" yardRequest.workflow.field = .null := by
        decide +kernel
      have hchanged : "C1" ∈ changed := by
        refine (hmem "C1").2 ⟨by decide +kernel, ?_⟩
        rw [hvalue]
        rintro rfl
        cases (Workflow.kind?_readValue hv).1
      refine ⟨reachable_yardLedger, rfl, p.1, p.2, hx, ?_, hrepeated⟩
      rw [hold]
      cases changed with
      | nil => cases hchanged
      | cons c changed => rfl

end Ledger

end CoachLedger
