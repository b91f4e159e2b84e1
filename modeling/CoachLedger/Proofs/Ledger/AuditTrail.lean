/-
**The audit log only grows, and the notifications mirror it.**

A call that succeeds and is audited appends one row to the audit log, whose number is larger than
all others, and sends one notification, which names the row.  Any other call, and any call that
fails, leaves the log alone and sends nothing.  Over a run the rows of before stay what they are and
where they are, the rows of the calls that succeeded are put before them one by one, and the
notifications are those of these rows, in the same order, on whatever channel they are sent.

Main definitions:

* `CoachLedger.Ledger.Announces` — a notification that names an audit row;
* `CoachLedger.Ledger.Step.appended?` — the row that a step appends;
* `CoachLedger.Ledger.Step.IsAppendOnly` — what a step does to the log and to the channel;
* `CoachLedger.Ledger.IsTrail` — what a run does to them.

Main results:

* `CoachLedger.Ledger.isAppendOnly_step` — **a step appends one row or nothing**;
* `CoachLedger.Ledger.isTrail_performAll` — **a run appends the rows of its steps**;
* `CoachLedger.Ledger.performAll_appendsOnly` — the log only grows, the notifications mirror it, and
  what is listed is a page of it.
-/

import CoachLedger.Proofs.Audit.Log
import CoachLedger.Proofs.Ledger.Calls

set_option autoImplicit false

namespace CoachLedger

/-- The rows of the audit log, newest first; a log that was removed has none. -/
def Store.auditRows (s : Store) : List Audit.StoredRow :=
  (s.audit.map Audit.Log.rows).getD []

theorem Store.descending_auditRows {s : Store} (h : s.HasSoundLog) :
    s.auditRows.Pairwise Audit.Log.NumberGT := by
  unfold auditRows
  cases hlog : s.audit with
  | none => exact .nil
  | some log => exact (h log hlog).descending

namespace Ledger

/-- The notification names the audit row. -/
structure Announces (note : Notification) (row : Audit.StoredRow) : Prop where
  auditId : note.auditId = row.id
  actor : note.actor = row.entry.actor
  action : note.action = row.entry.action
  entityName : note.entityName = row.entry.entityName
  entityId : note.entityId = row.entry.entityId

theorem announces_notification (row : Audit.Row) (old new : Json) :
    Announces (notification row old new) (keptRow row) :=
  ⟨rfl, rfl, rfl, rfl, rfl⟩

/-! ### What a call does to the log -/

section

variable {s t : Store} {audited : Bool} {row : Option Audit.Row} {note : Option Notification}

/-- What a call does leaves the log alone, or appends one row, which the notification names. -/
theorem Effect.audit (h : Effect s t audited row note) :
    (audited = false ∧ row = none ∧ note = none ∧ t.audit = s.audit) ∨
    ∃ log new sent, audited = true ∧ row = some new ∧ note = some sent ∧
      Announces sent (keptRow new) ∧ s.audit = some log ∧ new.id = log.lastId + 1 ∧
      t.audit = some ⟨keptRow new :: log.rows, new.id⟩ := by
  cases h with
  | silent h => exact .inl ⟨rfl, rfl, rfl, h.audit⟩
  | audited old new h hlog =>
      obtain ⟨log, haudit, rfl, hrow⟩ := log_eq_ok hlog
      exact .inr ⟨log, _, _, rfl, rfl, rfl, announces_notification _ old new, h.audit ▸ haudit,
        congrArg Audit.Row.id hrow, rfl⟩

/-- The rows of the log afterwards. -/
theorem Effect.auditRows (h : Effect s t audited row note) :
    t.auditRows = (row.map keptRow).toList ++ s.auditRows := by
  unfold Store.auditRows
  rcases h.audit with ⟨-, rfl, -, ha⟩ | ⟨log, new, sent, -, rfl, -, -, hlog, -, ha⟩
  · rw [ha]
    rfl
  · rw [ha, hlog]
    rfl

end

/-! ### What a step does -/

namespace Step

/-- The row that a step appends to the log. -/
def appended? (step : Step) : Option Audit.StoredRow :=
  match step.answer with
  | .ok answer => answer.row?.map keptRow
  | .error _ => none

/-- What a step does to the audit log and to the channel. -/
structure IsAppendOnly (step : Step) : Prop where
  /-- A call that fails changes nothing at all. -/
  failed : ∀ e, step.answer = .error e → step.after = step.before
  /-- A call that is not audited leaves the log and the channel alone. -/
  silent : step.call.isAudited = false →
    step.after.store.audit = step.before.store.audit ∧ step.after.channel = step.before.channel
  /-- An audited call that succeeds appends one row with a larger number than all others, and sends
  one notification, which names the row. -/
  audited : ∀ answer, step.answer = .ok answer → step.call.isAudited = true →
    ∃ row note, answer.row? = some row ∧
      step.after.store.auditRows = keptRow row :: step.before.store.auditRows ∧
      (∀ old ∈ step.before.store.auditRows, old.id < row.id) ∧ Announces note (keptRow row) ∧
      step.after.channel = step.before.channel.map fun c => c.sent note
  /-- A page of the log that is listed is a page of the log. -/
  listed : ∀ q answer, step.call = .list q → step.answer = .ok answer →
    ∃ log page, step.before.store.audit = some log ∧ answer = .listed page ∧ log.IsPage q page

end Step

/-- The page of the log that a call lists. -/
theorem list_eq_ok {l : Ledger} {q : Audit.Log.Query} {answer : Answer}
    {note : Option Notification} {t : Store}
    (h : l.reply (.list q) l.store = .ok ((answer, note), t)) :
    ∃ log, l.store.audit = some log ∧ answer = .listed (log.list q) := by
  rw [reply] at h
  obtain ⟨page, hread, hreply⟩ := Work.Action.giving_eq_ok h
  obtain ⟨rfl, -⟩ := Prod.mk.inj hreply
  obtain ⟨hlist, -⟩ := Work.reading_eq_ok hread
  unfold Store.listLog at hlist
  cases hlog : l.store.audit with
  | none =>
      rw [hlog] at hlist
      cases hlist
  | some log =>
      rw [hlog] at hlist
      obtain rfl := Except.ok.inj hlist
      exact ⟨log, rfl, rfl⟩

/-- **A step appends one row or nothing.** -/
theorem isAppendOnly_step (l : Ledger) (a : Attempt) (hs : l.store.Reachable) :
    (a.step l).IsAppendOnly := by
  have hsound := Store.isSound_audit hs
  have hbefore : (a.step l).before = l := rfl
  have hcall : (a.step l).call = a.call := rfl
  rcases step_cases l a with ⟨e, hanswer, hafter⟩ | ⟨answer, note, t, hanswer, hreply, hafter⟩
  · refine ⟨fun _ _ => hafter, ?_, ?_, ?_⟩
    · intro _
      rw [hafter]
      exact ⟨rfl, rfl⟩
    · intro answer h
      rw [hanswer] at h
      cases h
    · intro q answer _ h
      rw [hanswer] at h
      cases h
  · have heffect := reply_eq_ok hreply
    refine ⟨?_, ?_, ?_, ?_⟩
    · intro e h
      rw [hanswer] at h
      cases h
    · intro hsilent
      rw [hcall] at hsilent
      rw [hafter]
      rcases heffect.audit with ⟨-, -, rfl, ha⟩ | ⟨_, _, _, haudited, -⟩
      · rw [Option.toList_none, tell_nil]
        exact ⟨ha, rfl⟩
      · rw [hsilent] at haudited
        cases haudited
    · intro answer' h haudited
      rw [hanswer] at h
      obtain rfl := Except.ok.inj h
      rw [hcall] at haudited
      have hrows := heffect.auditRows
      rcases heffect.audit with ⟨hsilent, -⟩ | ⟨log, row, sent, -, hrow, rfl, hsent, hlog, hid, ha⟩
      · rw [haudited] at hsilent
        cases hsilent
      · rw [hrow] at hrows
        refine ⟨row, sent, hrow, ?_, ?_, hsent, ?_⟩
        · rw [hafter]
          exact hrows
        · intro old hold
          rw [hbefore, Store.auditRows, hlog] at hold
          have hle := (hsound log hlog).ids old hold
          omega
        · rw [hafter]
          rfl
    · intro q answer' hq h
      rw [hanswer] at h
      obtain rfl := Except.ok.inj h
      rw [hcall] at hq
      rw [hq] at hreply
      obtain ⟨log, hlog, rfl⟩ := list_eq_ok hreply
      exact ⟨log, log.list q, hlog, rfl, Audit.Log.isPage_list (hsound log hlog) q⟩

/-! ### What a run does -/

/-- What a run does to the audit log and to the channel: the rows of its steps are put before those
that were there, one by one, and there is one notification for each of them, in their order. -/
structure IsTrail (l : Ledger) (attempts : List Attempt) (notes : List Notification) : Prop where
  rows : (l.performAll attempts).2.store.auditRows =
    ((l.performAll attempts).1.filterMap Step.appended?).reverse ++ l.store.auditRows
  announced : List.Forall₂ Announces notes ((l.performAll attempts).1.filterMap Step.appended?)
  /-- On any channel the calls have the same answers, and just these notifications are sent. -/
  sent : ∀ channel, (((l.on channel).performAll attempts).1.map Step.answer =
      (l.performAll attempts).1.map Step.answer) ∧
    ((l.on channel).performAll attempts).2 = ((l.performAll attempts).2.on channel).tell notes

/-- Sending notifications one after the other. -/
theorem tell_tell (l : Ledger) (first second : List Notification) :
    (l.tell first).tell second = l.tell (first ++ second) := by
  unfold tell
  dsimp only
  rw [Option.map_map]
  congr 2
  funext c
  exact List.foldl_append.symm

/-- What a step appends is what its call has appended. -/
theorem appended?_of_ok {step : Step} {answer : Answer} (h : step.answer = .ok answer) :
    step.appended? = answer.row?.map keptRow := by
  rw [Step.appended?, h]

theorem appended?_of_error {step : Step} {e : Call.Failure} (h : step.answer = .error e) :
    step.appended? = none := by
  rw [Step.appended?, h]

theorem performAll_cons (l : Ledger) (a : Attempt) (rest : List Attempt) :
    l.performAll (a :: rest) =
      (a.step l :: ((a.step l).after.performAll rest).1,
        ((a.step l).after.performAll rest).2) := rfl

/-- A run that begins with a step that leaves the ledger as it was. -/
theorem IsTrail.cons_error {l : Ledger} {a : Attempt} {rest : List Attempt}
    {notes : List Notification} {e : Call.Failure}
    (h : ∀ channel, (l.on channel).perform a.faults a.call = (.error e, l.on channel))
    (hrest : IsTrail l rest notes) : IsTrail l (a :: rest) notes := by
  have hstep : ∀ channel, (a.step (l.on channel)).answer = .error e ∧
      (a.step (l.on channel)).after = l.on channel := by
    intro channel
    exact ⟨congrArg Prod.fst (h channel), congrArg Prod.snd (h channel)⟩
  obtain ⟨hanswer, hafter⟩ : (a.step l).answer = .error e ∧ (a.step l).after = l := hstep l.channel
  refine ⟨?_, ?_, ?_⟩
  · rw [performAll_cons, hafter, List.filterMap_cons_none (appended?_of_error hanswer)]
    exact hrest.rows
  · rw [performAll_cons, hafter, List.filterMap_cons_none (appended?_of_error hanswer)]
    exact hrest.announced
  · intro channel
    obtain ⟨hanswers, hend⟩ := hrest.sent channel
    rw [performAll_cons, performAll_cons, (hstep channel).2, hafter, List.map_cons, List.map_cons,
      (hstep channel).1, hanswer, hanswers]
    exact ⟨rfl, hend⟩

/-- A run that begins with a step that changes the tables and sends a notification or none. -/
theorem IsTrail.cons_ok {l m : Ledger} {a : Attempt} {rest : List Attempt}
    {notes : List Notification} {answer : Answer} {note : Option Notification} {t : Store}
    (heffect : Effect l.store t a.call.isAudited answer.row? note)
    (h : ∀ channel, (l.on channel).perform a.faults a.call =
      (.ok answer, ((l.withStore t).on channel).tell note.toList))
    (hm : m = (l.withStore t).tell note.toList) (hrest : IsTrail m rest notes) :
    IsTrail l (a :: rest) (note.toList ++ notes) := by
  have hstep : ∀ channel, (a.step (l.on channel)).answer = .ok answer ∧
      (a.step (l.on channel)).after = ((l.withStore t).on channel).tell note.toList := by
    intro channel
    exact ⟨congrArg Prod.fst (h channel), congrArg Prod.snd (h channel)⟩
  obtain ⟨hanswer, hafter⟩ : (a.step l).answer = .ok answer ∧ (a.step l).after = m := by
    rw [hm]
    exact hstep l.channel
  have hstore : m.store = t := by rw [hm]; rfl
  have hrows := heffect.auditRows
  have hcons : (a.step l :: (m.performAll rest).1).filterMap Step.appended? =
      (answer.row?.map keptRow).toList ++ (m.performAll rest).1.filterMap Step.appended? := by
    cases hrow : answer.row? with
    | none =>
        have hnone : (a.step l).appended? = none := by
          rw [appended?_of_ok hanswer, hrow]
          rfl
        rw [List.filterMap_cons_none hnone]
        rfl
    | some row =>
        have hsome : (a.step l).appended? = some (keptRow row) := by
          rw [appended?_of_ok hanswer, hrow]
          rfl
        rw [List.filterMap_cons_some hsome]
        rfl
  refine ⟨?_, ?_, ?_⟩
  · rw [performAll_cons, hafter]
    dsimp only
    rw [hrest.rows, hcons, hstore, hrows, List.reverse_append, List.append_assoc]
    cases answer.row? <;> rfl
  · rw [performAll_cons, hafter]
    dsimp only
    rw [hcons]
    rcases heffect.audit with ⟨-, hrow, rfl, -⟩ | ⟨log, row, sent, -, hrow, rfl, hsent, -⟩
    · rw [hrow]
      exact hrest.announced
    · rw [hrow]
      exact .cons hsent hrest.announced
  · intro channel
    -- What is sent first has reached the channel when the other calls are performed.
    have hon : ((l.withStore t).on channel).tell note.toList =
        m.on (channel.map fun c => note.toList.foldl Audit.Channel.sent c) := by
      rw [hm]
      rfl
    obtain ⟨hanswers, hend⟩ := hrest.sent (channel.map fun c =>
      note.toList.foldl Audit.Channel.sent c)
    rw [performAll_cons, performAll_cons, (hstep channel).2, hafter, List.map_cons, List.map_cons,
      (hstep channel).1, hanswer, hon, hanswers]
    refine ⟨rfl, ?_⟩
    dsimp only
    rw [hend, ← tell_tell]
    rfl

/-- **A run appends the rows of its steps**, and sends a notification for each of them.  The
induction is on the calls. -/
theorem isTrail_performAll (l : Ledger) (attempts : List Attempt) :
    ∃ notes, IsTrail l attempts notes := by
  induction attempts generalizing l with
  | nil =>
      refine ⟨[], rfl, .nil, ?_⟩
      intro channel
      exact ⟨rfl, (tell_nil _).symm⟩
  | cons a rest ih =>
      rcases l.perform_cases a.faults a.call with ⟨e, -, h⟩ | ⟨answer, note, t, hreply, h⟩
      · obtain ⟨notes, hrest⟩ := ih l
        exact ⟨notes, hrest.cons_error h⟩
      · obtain ⟨notes, hrest⟩ := ih ((l.withStore t).tell note.toList)
        exact ⟨_, hrest.cons_ok (reply_eq_ok hreply) h rfl⟩

/-- Without a fault of the engine the log can be listed. -/
theorem perform_list {l : Ledger} {log : Audit.Log} (hlog : l.store.audit = some log)
    (q : Audit.Log.Query) : l.perform [] (.list q) = (.ok (.listed (log.list q)), l) := by
  let c : Connection := ⟨l.store, [], []⟩
  have hread : Work.reading (fun s => s.listLog q) c.tables = .ok (log.list q, l.store) := by
    have hlist : l.store.listLog q = .ok (log.list q) := by rw [Store.listLog, hlog]
    change (l.store.listLog q).map _ = _
    rw [hlist]
    rfl
  have hwork : Work.statement .engine (Work.reading fun s => s.listLog q) c =
      (.ok (log.list q), c) := Work.statement_of_ok _ rfl hread
  have hlist : Work.list q = Work.statement .engine (Work.reading fun s => s.listLog q) := rfl
  rw [perform, hlist, onTables, hwork]
  rfl

/-- **The audit log only grows, and the notifications mirror it**, over any calls on a store that
can be reached.  In the end, as before each call, the rows are listed in the descending order of
their numbers. -/
theorem performAll_appendsOnly {l : Ledger} (hs : l.store.Reachable) (attempts : List Attempt) :
    (∀ step ∈ (l.performAll attempts).1, step.IsAppendOnly) ∧
      (∃ notes, IsTrail l attempts notes) ∧
      (l.performAll attempts).2.store.auditRows.Pairwise Audit.Log.NumberGT ∧
      ∀ log, (l.performAll attempts).2.store.audit = some log → ∀ q, ∃ page,
        (l.performAll attempts).2.perform [] (.list q) =
          (.ok (.listed page), (l.performAll attempts).2) ∧ log.IsPage q page := by
  have hsteps := forall_steps isAppendOnly_step l attempts hs
  have hsound := Store.isSound_audit (l.reachable_performAll attempts hs)
  refine ⟨hsteps, isTrail_performAll l attempts, Store.descending_auditRows hsound, ?_⟩
  intro log hlog q
  exact ⟨log.list q, perform_list hlog q, Audit.Log.isPage_list (hsound log hlog) q⟩

/-- A workflow that succeeds, the same one while the engine fails the statement that ends the
transaction, and an entry that is recorded. -/
def yardAttempts : List Attempt :=
  [⟨[], .run yardRequest⟩, ⟨[false, false, false, false, false, false, false, true],
      .run yardRequest⟩,
    ⟨[], .record ⟨"clerk", "note", "yard", none, none⟩ none .null .null⟩]

theorem performAll_appendsOnly_yard :
    yardLedger.store.Reachable ∧
      (yardLedger.performAll yardAttempts).1.map (fun step => step.answer.isOk) =
        [true, false, true] ∧
      (yardLedger.performAll yardAttempts).2.store.auditRows.map Audit.StoredRow.id = [2, 1] ∧
      ∃ notes, IsTrail yardLedger yardAttempts notes := by
  refine ⟨reachable_yardLedger, ?_, ?_,
    (performAll_appendsOnly reachable_yardLedger yardAttempts).2.1⟩
  · decide +kernel
  · decide +kernel

end Ledger

end CoachLedger
