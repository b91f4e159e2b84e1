/-
**What a call can do.**

Each call is work on the tables that is done as a whole or not at all, after which at most one
notification is sent.  The work of a call that succeeds writes records into the tables, or sets a
field, or leaves the records alone, and then it appends at most one row to the audit log.  A call
that fails leaves the ledger as it was.  Nothing of this depends on who is subscribed to the
notifications.

Main definitions:

* `CoachLedger.Work.IsAtomic` — the work follows a function of the tables, as a whole or not at all;
* `CoachLedger.Ledger.Reply` — an answer, and the notification that goes with it;
* `CoachLedger.Ledger.work`, `CoachLedger.Ledger.reply` — a call as work on the tables, and as a
  function of them;
* `CoachLedger.Ledger.Effect` — what a call that succeeds has done to the tables.

Main results:

* `CoachLedger.Ledger.isAtomic_work` — **the work of a call is done as a whole or not at all**;
* `CoachLedger.Ledger.perform_eq_settle` — a call is its work, after which its notification is sent;
* `CoachLedger.Ledger.perform_cases` — **how a call goes**, whoever listens;
* `CoachLedger.Ledger.reply_eq_ok` — **what a call does to the tables**;
* `CoachLedger.Ledger.forall_steps` — what holds of each step holds of all steps of a run.
-/

import CoachLedger.Ledger.Calls
import CoachLedger.Proofs.Ledger.ImportSteps
import CoachLedger.Proofs.Ledger.WorkflowAudit
import CoachLedger.Proofs.Store.Writes

set_option autoImplicit false

namespace CoachLedger

/-! ### Work that is done as a whole or not at all -/

namespace Work

variable {ε δ α β : Type}

theorem restores_fail (e : ε) : Restores (fail e : Work ε α) := by
  intro c e' d h
  rw [← (Prod.mk.inj h).2]
  exact .inl ⟨rfl, rfl⟩

theorem restores_done (a : α) : Restores (done a : Work ε α) := by
  intro c e d h
  cases h

theorem restores_statement (engine : ε) (f : Action ε α) : Restores (statement engine f) :=
  fun _ _ _ h => .inl (statement_restores h)

/-- The work does what the function does, and leaves nothing behind if it fails. -/
structure IsAtomic (w : Work ε α) (f : Action ε α) : Prop where
  follows : Follows w f
  restores : Restores w

theorem isAtomic_fail (e : ε) : IsAtomic (fail e : Work ε α) fun _ => .error e :=
  ⟨follows_fail e, restores_fail e⟩

theorem isAtomic_statement (engine : ε) (f : Action ε α) : IsAtomic (statement engine f) f :=
  ⟨follows_statement engine f, restores_statement engine f⟩

theorem isAtomic_upsert (rs : List Record) : IsAtomic (upsert rs) fun s => s.upsert rs := by
  refine ⟨follows_upsert rs, ?_⟩
  unfold upsert
  cases rs with
  | nil => exact restores_done 0
  | cons r rs => exact restores_transaction _ (follows_putAll 0 (r :: rs))

theorem isAtomic_update (kind : RecordKind) (coaches : List String) (field : String) (v : Value) :
    IsAtomic (update kind coaches field v) fun s => s.update kind coaches field v := by
  refine ⟨follows_update kind coaches field v, ?_⟩
  -- Whatever can be said without the tables comes first, and all else is one transaction.
  unfold update
  split
  · exact restores_fail _
  · split
    · exact restores_fail _
    · split
      · split
        · exact restores_done 0
        · exact restores_transaction _ (follows_setPieces ..)
      · exact restores_fail _

/-- A function of the tables that leaves them as they are. -/
def reading (f : Store → Except Store.Failure α) : Action Store.Failure α :=
  fun s => (f s).map fun a => (a, s)

theorem reading_eq_ok {f : Store → Except Store.Failure α} {s t : Store} {a : α}
    (h : reading f s = .ok (a, t)) : f s = .ok a ∧ t = s := by
  unfold reading at h
  cases hf : f s with
  | error e =>
      rw [hf] at h
      cases h
  | ok b =>
      rw [hf] at h
      obtain ⟨hb, ht⟩ := Prod.mk.inj (Except.ok.inj h)
      exact ⟨congrArg Except.ok hb, ht.symm⟩

/-- Reading by a predicate: the engine is not asked about a column that is no field of the kind. -/
theorem isAtomic_guarded (kind : RecordKind) (p : Predicate) {f : Store → Except Store.Failure α}
    (hf : ∀ column, Store.foreignColumn? kind p = some column →
      ∀ s, f s = .error (.unknownColumn kind column)) :
    IsAtomic
      (match Store.foreignColumn? kind p with
        | some column => fail (.unknownColumn kind column)
        | none => read f) (reading f) := by
  cases h : Store.foreignColumn? kind p with
  | none => exact isAtomic_statement _ _
  | some column =>
      have hfail : reading f = fun _ => .error (.unknownColumn kind column) := by
        funext s
        rw [reading, hf column h s]
        rfl
      rw [hfail]
      exact isAtomic_fail _

theorem isAtomic_search (kind : RecordKind) (p : Predicate) (limit offset : Nat) :
    IsAtomic (search kind p limit offset) (reading fun s => s.search kind p limit offset) := by
  refine isAtomic_guarded kind p ?_
  intro column h s
  rw [Store.search, Store.conditionFor, h]

theorem isAtomic_count (kind : RecordKind) (p : Predicate) :
    IsAtomic (count kind p) (reading fun s => s.count kind p) := by
  refine isAtomic_guarded kind p ?_
  intro column h s
  rw [Store.count, Store.conditionFor, h]

/-! ### Work that needs something first -/

/-- The work for what comes of something that can be said without the tables. -/
def given (r : Except ε α) (w : α → Work ε β) : Work ε β :=
  match r with
  | .ok a => w a
  | .error e => fail e

/-- The function of the tables for what comes of something that can be said without them. -/
def Action.given (r : Except ε α) (f : α → Action ε β) : Action ε β := fun s =>
  r.bind fun a => f a s

theorem Action.given_eq_ok {r : Except ε α} {f : α → Action ε β} {s t : Store} {b : β}
    (h : Action.given r f s = .ok (b, t)) : ∃ a, r = .ok a ∧ f a s = .ok (b, t) := by
  cases r with
  | ok a => exact ⟨a, rfl, h⟩
  | error e => cases h

theorem isAtomic_given (r : Except ε α) {w : α → Work ε β} {f : α → Action ε β}
    (h : ∀ a, IsAtomic (w a) (f a)) : IsAtomic (given r w) (Action.given r f) := by
  cases r with
  | ok a => exact h a
  | error e => exact isAtomic_fail e

/-! ### Answers in another form -/

/-- The work with its answer and its failure in another form. -/
def giving (f : α → β) (g : ε → δ) (w : Work ε α) : Work δ β := fun c =>
  (((w c).1.map f).mapError g, (w c).2)

/-- The function with its answer and its failure in another form. -/
def Action.giving (f : α → β) (g : ε → δ) (w : Action ε α) : Action δ β := fun s =>
  ((w s).map fun p => (f p.1, p.2)).mapError g

theorem Action.giving_eq_ok {f : α → β} {g : ε → δ} {w : Action ε α} {s t : Store} {b : β}
    (h : Action.giving f g w s = .ok (b, t)) : ∃ a, w s = .ok (a, t) ∧ b = f a := by
  unfold Action.giving at h
  cases hw : w s with
  | error e =>
      rw [hw] at h
      cases h
  | ok p =>
      rw [hw] at h
      obtain ⟨hb, ht⟩ := Prod.mk.inj (Except.ok.inj h)
      exact ⟨p.1, by rw [← ht], hb.symm⟩

theorem IsAtomic.giving {w : Work ε α} {v : Action ε α} (h : IsAtomic w v) (f : α → β)
    (g : ε → δ) : IsAtomic (w.giving f g) (Action.giving f g v) := by
  have hrestores : Restores (w.giving f g) := by
    intro c e d he
    obtain ⟨hr, hd⟩ := Prod.mk.inj he
    cases hw : w c with
    | mk r c' =>
        rw [hw] at hr hd
        cases r with
        | ok a => cases hr
        | error e' => exact hd ▸ h.restores c e' c' hw
  refine ⟨⟨?_, ?_, ?_⟩, hrestores⟩
  · intro c b d hb
    obtain ⟨hr, hd⟩ := Prod.mk.inj hb
    cases hw : w c with
    | mk r c' =>
        rw [hw] at hr hd
        cases r with
        | error e => cases hr
        | ok a =>
            obtain rfl := Except.ok.inj hr
            obtain ⟨hf, hsaved⟩ := h.follows.ok c a c' hw
            rw [Action.giving, hf, ← hd]
            exact ⟨rfl, hsaved⟩
  · intro c e d he
    exact (hrestores c e d he).imp_left And.right
  · intro c hc
    obtain ⟨hfaults, hanswer⟩ := h.follows.steady c hc
    refine ⟨hfaults, ?_⟩
    change ((w c).1.map f).mapError g = _
    rw [hanswer, Action.giving]
    cases v c.tables <;> rfl

end Work

namespace Ledger

open CoachLedger.Work (Action IsAtomic)

/-! ### Calls as work on the tables -/

/-- An answer, with the notification of the audit row, if there is one. -/
abbrev Reply : Type := Answer × Option Notification

/-- The reply to an audit row that was recorded. -/
def recordReply (old new : Json) (row : Audit.Row) : Reply :=
  (.recorded row, some (notification row old new))

/-- The reply to a workflow. -/
def runReply (r : Workflow.Report) : Reply :=
  (.applied r.outcome, some (notification r.outcome.audit r.old r.new))

/-- The reply to an import. -/
def importReply (r : Import.Report) : Reply :=
  (.imported r.written r.row, some (notification r.row r.old r.new))

/-- The records of a document that is imported. -/
def recordsIn (kind : RecordKind) : Json → Except Call.Failure (List Record)
  | .array items => (readRecords kind 0 items).mapError fun i => .importing (.invalid i)
  | _ => .error .notAnArray

/-- A call as work on the tables, which makes nothing known. -/
def work (l : Ledger) : Call → Work Call.Failure Reply
  | .record entry alignment old new =>
      (Work.log entry (l.changeFor alignment old new)).giving (recordReply old new) .store
  | .run q =>
      Work.given (q.resolve.mapError .workflow) fun p =>
        (l.steps q p.1 p.2).giving runReply .workflow
  | .importing kind actor source document =>
      Work.given (recordsIn kind document) fun rs =>
        (l.importSteps ⟨kind, rs, actor, source⟩).giving importReply fun e => .importing (.store e)
  | .upsert rs _ => (Work.upsert rs).giving (fun n => (.written n, none)) .store
  | .update kind coaches field v =>
      (Work.update kind coaches field v).giving (fun n => (.written n, none)) .store
  | .search kind p limit offset =>
      (Work.search kind p limit offset).giving (fun rs => (.found rs, none)) .store
  | .count kind p => (Work.count kind p).giving (fun n => (.counted n, none)) .store
  | .list q => (Work.list q).giving (fun rows => (.listed rows, none)) .store

/-- A call as a function of the tables. -/
def reply (l : Ledger) : Call → Action Call.Failure Reply
  | .record entry alignment old new =>
      Action.giving (recordReply old new) .store fun s =>
        s.log entry (l.changeFor alignment old new)
  | .run q =>
      Action.given (q.resolve.mapError .workflow) fun p =>
        Action.giving runReply .workflow (l.task q p.1 p.2)
  | .importing kind actor source document =>
      Action.given (recordsIn kind document) fun rs =>
        Action.giving importReply (fun e => .importing (.store e))
          (l.importTask ⟨kind, rs, actor, source⟩)
  | .upsert rs _ => Action.giving (fun n => (.written n, none)) .store fun s => s.upsert rs
  | .update kind coaches field v =>
      Action.giving (fun n => (.written n, none)) .store fun s => s.update kind coaches field v
  | .search kind p limit offset =>
      Action.giving (fun rs => (.found rs, none)) .store
        (Work.reading fun s => s.search kind p limit offset)
  | .count kind p =>
      Action.giving (fun n => (.counted n, none)) .store (Work.reading fun s => s.count kind p)
  | .list q =>
      Action.giving (fun rows => (.listed rows, none)) .store (Work.reading fun s => s.listLog q)

/-- **The work of a call is done as a whole or not at all.** -/
theorem isAtomic_work (l : Ledger) (call : Call) : IsAtomic (l.work call) (l.reply call) := by
  cases call with
  | record entry alignment old new => exact (Work.isAtomic_statement _ _).giving _ _
  | run q =>
      refine Work.isAtomic_given _ fun p => ?_
      obtain ⟨hfollows, hrestores⟩ := l.follows_steps q p.1 p.2
      exact IsAtomic.giving ⟨hfollows, hrestores⟩ _ _
  | importing kind actor source document =>
      refine Work.isAtomic_given _ fun rs => ?_
      obtain ⟨hfollows, hrestores⟩ := l.follows_importSteps ⟨kind, rs, actor, source⟩
      exact IsAtomic.giving ⟨hfollows, hrestores⟩ _ _
  | upsert rs valid => exact (Work.isAtomic_upsert rs).giving _ _
  | update kind coaches field v => exact (Work.isAtomic_update kind coaches field v).giving _ _
  | search kind p limit offset => exact (Work.isAtomic_search kind p limit offset).giving _ _
  | count kind p => exact (Work.isAtomic_count kind p).giving _ _
  | list q => exact (Work.isAtomic_statement _ _).giving _ _

/-! ### How a call goes -/

/-- The ledger after notifications have been sent. -/
def tell (l : Ledger) (notes : List Notification) : Ledger :=
  { l with channel := l.channel.map fun c => notes.foldl Audit.Channel.sent c }

theorem publish_eq_tell (l : Ledger) (row : Audit.Row) (old new : Json) :
    l.publish row old new = l.tell [notification row old new] := by
  have hchannel := l.channel_publish row old new
  unfold publish at hchannel ⊢
  unfold tell
  dsimp only at hchannel
  rw [hchannel]
  rfl

/-- What is left of a ledger after work on its tables, and what comes of the work. -/
def settle (l : Ledger) : Except Call.Failure Reply × Connection →
    Except Call.Failure Answer × Ledger
  | (.ok (a, note), c) => (.ok a, ({ l with store := c.tables } : Ledger).tell note.toList)
  | (.error e, c) => (.error e, { l with store := c.tables })

theorem tell_nil (l : Ledger) : l.tell [] = l := by
  obtain ⟨store, options, channel⟩ := l
  cases channel <;> rfl

theorem recordUnder_eq_settle (l : Ledger) (faults : List Bool) (entry : Audit.Entry)
    (alignment : Option Audit.Alignment) (old new : Json) :
    answering .recorded .store (l.recordUnder faults entry alignment old new) =
      l.settle ((Work.log entry (l.changeFor alignment old new)).giving (recordReply old new) .store
        ⟨l.store, [], faults⟩) := by
  unfold recordUnder onTables Work.giving
  cases Work.log entry (l.changeFor alignment old new) ⟨l.store, [], faults⟩ with
  | mk r c =>
      cases r with
      | error e => rfl
      | ok row =>
          dsimp only
          rw [publish_eq_tell]
          rfl

theorem execute_eq_settle (l : Ledger) (faults : List Bool) (q : Workflow.Request) :
    answering .applied .workflow (l.execute faults q) =
      l.settle (Work.given (q.resolve.mapError .workflow)
        (fun p => (l.steps q p.1 p.2).giving runReply .workflow) ⟨l.store, [], faults⟩) := by
  unfold execute
  cases q.resolve with
  | error e => rfl
  | ok p =>
      obtain ⟨selected, value⟩ := p
      unfold Work.given Work.giving
      dsimp only [Except.mapError]
      cases l.steps q selected value ⟨l.store, [], faults⟩ with
      | mk r c =>
          cases r with
          | error e => rfl
          | ok r =>
              dsimp only
              rw [publish_eq_tell]
              rfl

theorem importDocument_eq_settle (l : Ledger) (faults : List Bool) (kind : RecordKind)
    (actor source : String) (document : Json) :
    answering (fun r => .imported r.1 r.2) id
        (l.importDocument faults kind actor source document) =
      l.settle (Work.given (recordsIn kind document)
        (fun rs => (l.importSteps ⟨kind, rs, actor, source⟩).giving importReply
          fun e => .importing (.store e)) ⟨l.store, [], faults⟩) := by
  cases document with
  | array items =>
      unfold importDocument importItems recordsIn
      dsimp only
      cases readRecords kind 0 items with
      | error position => rfl
      | ok rs =>
          unfold importUnder Work.given Work.giving
          dsimp only [Except.mapError]
          cases l.importSteps ⟨kind, rs, actor, source⟩ ⟨l.store, [], faults⟩ with
          | mk r c =>
              cases r with
              | error e => rfl
              | ok r =>
                  dsimp only
                  rw [publish_eq_tell]
                  rfl
  | _ => rfl

/-- Work that makes nothing known. -/
theorem onTables_eq_settle {α : Type} (l : Ledger) (faults : List Bool) (w : Work Store.Failure α)
    (f : α → Answer) :
    answering f .store (l.onTables faults w) =
      l.settle (w.giving (fun a => (f a, none)) .store ⟨l.store, [], faults⟩) := by
  unfold onTables Work.giving
  cases w ⟨l.store, [], faults⟩ with
  | mk r c =>
      cases r with
      | error e => rfl
      | ok a =>
          change _ = (Except.ok (f a), ({ l with store := c.tables } : Ledger).tell [])
          rw [tell_nil]
          rfl

/-- Performing a call is its work on the tables, after which its notification is sent. -/
theorem perform_eq_settle (l : Ledger) (faults : List Bool) (call : Call) :
    l.perform faults call = l.settle (l.work call ⟨l.store, [], faults⟩) := by
  cases call with
  | record entry alignment old new => exact l.recordUnder_eq_settle faults entry alignment old new
  | run q => exact l.execute_eq_settle faults q
  | importing kind actor source document =>
      exact l.importDocument_eq_settle faults kind actor source document
  | upsert rs valid => exact l.onTables_eq_settle faults _ _
  | update kind coaches field v => exact l.onTables_eq_settle faults _ _
  | search kind p limit offset => exact l.onTables_eq_settle faults _ _
  | count kind p => exact l.onTables_eq_settle faults _ _
  | list q => exact l.onTables_eq_settle faults _ _

/-- The ledger with another channel, or without one. -/
def on (l : Ledger) (channel : Option (Audit.Channel Notification)) : Ledger :=
  { l with channel := channel }

/-- The ledger with other tables. -/
def withStore (l : Ledger) (s : Store) : Ledger :=
  { l with store := s }

/-- **How a call goes**, whoever listens: it fails and leaves the ledger as it was, or it does what
its function does to the tables and sends the notification of its reply.  Without a fault of the
engine it fails only if the function does. -/
theorem perform_cases (l : Ledger) (faults : List Bool) (call : Call) :
    (∃ e, (faults = [] → l.reply call l.store = .error e) ∧
      ∀ channel, (l.on channel).perform faults call = (.error e, l.on channel)) ∨
    ∃ a note t, l.reply call l.store = .ok ((a, note), t) ∧
      ∀ channel, (l.on channel).perform faults call =
        (.ok a, ((l.withStore t).on channel).tell note.toList) := by
  -- Neither the work of a call nor its function looks at the channel.
  have hwork : ∀ channel, (l.on channel).perform faults call =
      (l.on channel).settle (l.work call ⟨l.store, [], faults⟩) := by
    intro channel
    rw [perform_eq_settle]
    cases call <;> rfl
  obtain ⟨hfollows, hrestores⟩ := l.isAtomic_work call
  rcases hfollows.outcome hrestores l.store faults with
    ⟨e, c, h, htables, hsteady⟩ | ⟨⟨a, note⟩, c, h, hreply⟩
  · refine .inl ⟨e, hsteady, ?_⟩
    intro channel
    rw [hwork, h, settle, htables]
    rfl
  · refine .inr ⟨a, note, c.tables, hreply, ?_⟩
    intro channel
    rw [hwork, h]
    rfl

/-! ### What a call does to the tables -/

/-- What a call has done to the tables: records have been written, and then, if the call is audited,
one row has been appended to the audit log.  The notification is that of this row. -/
inductive Effect (s t : Store) : Bool → Option Audit.Row → Option Notification → Prop
  | silent (h : Store.Writes s t) : Effect s t false none none
  | audited {u : Store} {entry : Audit.Entry} {change : Option Audit.Change} {row : Audit.Row}
      (old new : Json) (h : Store.Writes s u) (hlog : u.log entry change = .ok (row, t)) :
      Effect s t true (some row) (some (notification row old new))

variable {l : Ledger} {t : Store} {note : Option Notification} {answer : Answer}

/-- Logging works as long as there is an audit log. -/
theorem log_of_audit {s : Store} {log : Audit.Log} (h : s.audit = some log) (entry : Audit.Entry)
    (change : Option Audit.Change) :
    s.log entry change =
      .ok ((log.append entry change).1, { s with audit := some (log.append entry change).2 }) := by
  rw [Store.log, h]

theorem effect_run {q : Workflow.Request} (h : l.reply (.run q) l.store = .ok ((answer, note), t)) :
    Effect l.store t true answer.row? note := by
  obtain ⟨p, hp, hgiving⟩ := Work.Action.given_eq_ok h
  obtain ⟨report, htask, hreply⟩ := Work.Action.giving_eq_ok hgiving
  obtain ⟨rfl, rfl⟩ := Prod.mk.inj hreply
  obtain ⟨found, n, u, log, change, -, -, hupdate, hlog, -, rfl, rfl⟩ := task_eq_ok htask
  exact .audited _ _ (.update hupdate) (log_of_audit hlog (q.entry found) change)

theorem effect_importing {kind : RecordKind} {actor source : String} {document : Json}
    (h : l.reply (.importing kind actor source document) l.store = .ok ((answer, note), t)) :
    Effect l.store t true answer.row? note := by
  obtain ⟨rs, hrs, hgiving⟩ := Work.Action.given_eq_ok h
  obtain ⟨report, htask, hreply⟩ := Work.Action.giving_eq_ok hgiving
  obtain ⟨rfl, rfl⟩ := Prod.mk.inj hreply
  -- The document is an array, and all of its items are records.
  have hvalid : ∀ r ∈ rs, r.IsValid := by
    unfold recordsIn at hrs
    split at hrs
    · rename_i items
      cases hread : readRecords kind 0 items with
      | error position =>
          rw [hread] at hrs
          cases hrs
      | ok found =>
          rw [hread] at hrs
          obtain rfl := Except.ok.inj hrs
          intro r hr
          exact ((readRecords_eq_ok hread).forall r hr).1
    · cases hrs
  have hall : l.importAll ⟨kind, rs, actor, source⟩ = .ok (l.importFinish (report, t)) := by
    rw [importAll_eq, htask]
    rfl
  obtain ⟨u, hupsert, hlog, -⟩ := importAll_eq_ok hall
  exact .audited _ _ (.upsert hvalid hupsert) hlog

theorem effect_reading {α : Type} {f : Store → Except Store.Failure α} {g : α → Answer}
    (hrow : ∀ a, (g a).row? = none)
    (h : Action.giving (fun a => (g a, none)) Call.Failure.store (Work.reading f) l.store =
      .ok ((answer, note), t)) : Effect l.store t false answer.row? note := by
  obtain ⟨a, hread, hreply⟩ := Work.Action.giving_eq_ok h
  obtain ⟨rfl, rfl⟩ := Prod.mk.inj hreply
  obtain ⟨-, rfl⟩ := Work.reading_eq_ok hread
  rw [hrow]
  exact .silent .nothing

/-- **What a call does to the tables.** -/
theorem reply_eq_ok {call : Call} (h : l.reply call l.store = .ok ((answer, note), t)) :
    Effect l.store t call.isAudited answer.row? note := by
  cases call with
  | record entry alignment old new =>
      rw [reply] at h
      obtain ⟨row, hlog, hreply⟩ := Work.Action.giving_eq_ok h
      obtain ⟨rfl, rfl⟩ := Prod.mk.inj hreply
      exact .audited old new .nothing hlog
  | run q => exact effect_run h
  | importing kind actor source document => exact effect_importing h
  | upsert rs valid =>
      rw [reply] at h
      obtain ⟨n, hupsert, hreply⟩ := Work.Action.giving_eq_ok h
      obtain ⟨rfl, rfl⟩ := Prod.mk.inj hreply
      exact .silent (.upsert valid hupsert)
  | update kind coaches field v =>
      rw [reply] at h
      obtain ⟨n, hupdate, hreply⟩ := Work.Action.giving_eq_ok h
      obtain ⟨rfl, rfl⟩ := Prod.mk.inj hreply
      exact .silent (.update hupdate)
  | search kind p limit offset => exact effect_reading (fun _ => rfl) h
  | count kind p => exact effect_reading (fun _ => rfl) h
  | list q => exact effect_reading (fun _ => rfl) h

/-- Whatever a call does can be done. -/
theorem Effect.reachable {s : Store} {audited : Bool} {row : Option Audit.Row}
    (h : Effect s t audited row note) (hs : s.Reachable) : t.Reachable := by
  cases h with
  | silent h => exact h.reachable hs
  | audited old new h hlog => exact (h.reachable hs).log hlog

/-! ### Calls one after the other -/

/-- How a step goes. -/
theorem step_cases (l : Ledger) (a : Attempt) :
    (∃ e, (a.step l).answer = .error e ∧ (a.step l).after = l) ∨
    ∃ answer note t, (a.step l).answer = .ok answer ∧
      l.reply a.call l.store = .ok ((answer, note), t) ∧
      (a.step l).after = (l.withStore t).tell note.toList := by
  rcases l.perform_cases a.faults a.call with ⟨e, -, h⟩ | ⟨answer, note, t, hreply, h⟩
  · have hstep : l.perform a.faults a.call = (.error e, l) := h l.channel
    exact .inl ⟨e, congrArg Prod.fst hstep, congrArg Prod.snd hstep⟩
  · have hstep : l.perform a.faults a.call = (.ok answer, (l.withStore t).tell note.toList) :=
      h l.channel
    exact .inr ⟨answer, note, t, congrArg Prod.fst hstep, hreply, congrArg Prod.snd hstep⟩

/-- A step leads from a store that can be reached to one. -/
theorem reachable_step (l : Ledger) (a : Attempt) (hs : l.store.Reachable) :
    (a.step l).after.store.Reachable := by
  rcases step_cases l a with ⟨e, -, hafter⟩ | ⟨answer, note, t, -, hreply, hafter⟩
  · rw [hafter]
    exact hs
  · rw [hafter]
    exact (reply_eq_ok hreply).reachable hs

/-- A run leads from a store that can be reached to one. -/
theorem reachable_performAll (l : Ledger) (attempts : List Attempt) (hs : l.store.Reachable) :
    (l.performAll attempts).2.store.Reachable := by
  induction attempts generalizing l with
  | nil => exact hs
  | cons a rest ih => exact ih (a.step l).after (reachable_step l a hs)

/-- What holds of each step from a store that can be reached holds of all steps of a run.  The
induction is on the calls. -/
theorem forall_steps {P : Step → Prop}
    (hstep : ∀ l a, l.store.Reachable → P (Attempt.step l a)) (l : Ledger)
    (attempts : List Attempt) (hs : l.store.Reachable) :
    ∀ step ∈ (l.performAll attempts).1, P step := by
  induction attempts generalizing l with
  | nil => exact List.forall_mem_nil P
  | cons a rest ih =>
      have hrest := ih (a.step l).after (reachable_step l a hs)
      exact List.forall_mem_cons.2 ⟨hstep l a hs, hrest⟩

end Ledger

end CoachLedger
