/-
**Rows that are listed.**

A call that is audited answers with a row.  From then on the ledger lists one row under its number,
whatever calls follow: the row that was kept.  It has the same number and the same entry as the row
that was answered, and what can be read of its values.

Main definitions:

* `CoachLedger.Ledger.Lists` — the ledger lists a row under a number;
* `CoachLedger.Ledger.IsListedAs` — how the row of a call is listed.

Main results:

* `CoachLedger.Ledger.lists_iff_of_perform` — **the row of a call is listed from then on**;
* `CoachLedger.Ledger.perform_isListedAs` — **when it is the row that was answered**;
* `CoachLedger.Ledger.record_tellsChange` — **when it tells whether there is a change**.
-/

import CoachLedger.Proofs.Audit.Keeping
import CoachLedger.Proofs.Ledger.AuditTrail

set_option autoImplicit false

namespace CoachLedger

/-! ### Rows of a log -/

/-- There is one row under each number. -/
theorem Audit.Log.IsSound.eq_of_id_eq {log : Audit.Log} (h : log.IsSound)
    {row other : Audit.StoredRow} (hrow : row ∈ log.rows) (hother : other ∈ log.rows)
    (hid : row.id = other.id) : row = other := by
  have hnodup : (log.rows.map Audit.StoredRow.id).Nodup :=
    List.pairwise_map.2 (h.descending.imp fun hab => Nat.ne_of_gt hab)
  exact List.inj_on_of_nodup_map hnodup hrow hother hid

namespace Ledger

open Audit (Row)

variable {l m : Ledger} {faults : List Bool} {call : Call} {answer : Answer} {row : Row}
  {entry : Audit.Entry} {alignment : Option Audit.Alignment} {old new : Json}

/-- The ledger lists the row under the number: it is on a page of the log. -/
def Lists (l : Ledger) (id : Nat) (row : Row) : Prop :=
  row.id = id ∧ ∃ q page, l.perform [] (.list q) = (.ok (.listed page), l) ∧ row ∈ page

/-- **Each row of the log is listed**, and no other one under its number. -/
theorem lists_iff (hs : l.store.Reachable) {kept : Audit.StoredRow}
    (h : kept ∈ l.store.auditRows) {other : Row} :
    l.Lists kept.id other ↔ other = kept.shown := by
  unfold Store.auditRows at h
  cases hlog : l.store.audit with
  | none =>
      rw [hlog] at h
      cases h
  | some log =>
      rw [hlog, Option.map_some, Option.getD_some] at h
      constructor
      · rintro ⟨hid, q, page, hlist, hother⟩
        rw [perform_list hlog q] at hlist
        obtain rfl := Answer.listed.inj (Except.ok.inj (Prod.mk.inj hlist).1)
        obtain ⟨found, hfound, rfl⟩ := List.mem_map.1 hother
        have hmem := List.mem_of_mem_filter (List.mem_of_mem_drop (List.mem_of_mem_take hfound))
        rw [(Store.isSound_audit hs log hlog).eq_of_id_eq hmem h hid]
      · rintro rfl
        -- One page has all rows.
        obtain ⟨q, hq⟩ : ∃ q, q = (⟨log.rows.length, 0, none, none⟩ : Audit.Log.Query) := ⟨_, rfl⟩
        refine ⟨rfl, q, log.list q, perform_list hlog q, ?_⟩
        have hlimit : log.rows.length ≠ 0 := Nat.ne_of_gt (List.length_pos_of_mem h)
        have hadmits : log.rows.filter q.admits = log.rows :=
          List.filter_eq_self.2 fun r _ => by rw [hq]; rfl
        unfold Audit.Log.list
        rw [hadmits, hq, List.drop_zero]
        dsimp only
        rw [if_neg hlimit, List.take_length]
        exact List.mem_map_of_mem h

/-- Rows that are in the log stay in it. -/
theorem mem_auditRows_performAll {kept : Audit.StoredRow} (h : kept ∈ l.store.auditRows)
    (attempts : List Attempt) : kept ∈ (l.performAll attempts).2.store.auditRows := by
  obtain ⟨notes, htrail⟩ := isTrail_performAll l attempts
  rw [htrail.rows]
  exact List.mem_append_right _ h

/-- What a call that succeeds has done. -/
theorem reply_of_perform (h : l.perform faults call = (.ok answer, m)) :
    ∃ note t, l.reply call l.store = .ok ((answer, note), t) ∧
      m = (l.withStore t).tell note.toList := by
  rcases l.perform_cases faults call with ⟨e, -, hx⟩ | ⟨answer', note, t, hreply, hx⟩
  · have herror := h.symm.trans (hx l.channel)
    cases (Prod.mk.inj herror).1
  · obtain ⟨hanswer, hm⟩ := Prod.mk.inj (h.symm.trans (hx l.channel))
    obtain rfl := Except.ok.inj hanswer
    exact ⟨note, t, hreply, hm⟩

/-- **The row of a call is listed from then on**, as what can be read of it, and no other row under
its number. -/
theorem lists_iff_of_perform (hs : l.store.Reachable)
    (h : l.perform faults call = (.ok answer, m)) (hrow : answer.row? = some row)
    (attempts : List Attempt) {other : Row} :
    (m.performAll attempts).2.Lists row.id other ↔ other = row.listed := by
  obtain ⟨note, t, hreply, rfl⟩ := reply_of_perform h
  have heffect := reply_eq_ok hreply
  have hrows := heffect.auditRows
  rw [hrow] at hrows
  have hmem : keptRow row ∈ t.auditRows := by
    rw [hrows]
    exact List.mem_cons_self ..
  have hreach := reachable_performAll ((l.withStore t).tell note.toList) attempts
    (heffect.reachable hs)
  rw [← Audit.shown_keptRow]
  exact lists_iff hreach (mem_auditRows_performAll hmem attempts)

/-! ### Rows of calls -/

theorem answering_eq_ok {ε α : Type} {f : α → Answer} {g : ε → Call.Failure}
    {r : Except ε α × Ledger} (h : answering f g r = (.ok answer, m)) :
    ∃ a, r = (.ok a, m) ∧ answer = f a := by
  obtain ⟨result, l⟩ := r
  obtain ⟨hanswer, rfl⟩ := Prod.mk.inj h
  cases result with
  | error e => cases hanswer
  | ok a => exact ⟨a, rfl, (Except.ok.inj hanswer).symm⟩

/-- The row of a change that is recorded. -/
theorem row_of_record (h : l.perform faults (.record entry alignment old new) = (.ok answer, m))
    (hrow : answer.row? = some row) :
    row = Audit.rowOf row.id entry (l.changeFor alignment old new) := by
  obtain ⟨note, t, hreply, -⟩ := reply_of_perform h
  rw [reply] at hreply
  obtain ⟨recorded, hlog, hreply⟩ := Work.Action.giving_eq_ok hreply
  obtain ⟨rfl, -⟩ := Prod.mk.inj hreply
  obtain rfl := Option.some.inj hrow
  obtain ⟨log, -, -, hrecorded⟩ := log_eq_ok hlog
  rw [hrecorded]
  rfl

/-- Without a fault of the engine a change is recorded, as long as there is a log. -/
theorem perform_record {log : Audit.Log} (hlog : l.store.audit = some log) (entry : Audit.Entry)
    (alignment : Option Audit.Alignment) (old new : Json) :
    ∃ m, l.perform [] (.record entry alignment old new) =
      (.ok (.recorded (Audit.rowOf (log.lastId + 1) entry (l.changeFor alignment old new))), m) := by
  obtain ⟨row, hrow⟩ : ∃ row, row =
      Audit.rowOf (log.lastId + 1) entry (l.changeFor alignment old new) := ⟨_, rfl⟩
  have hreply : l.reply (.record entry alignment old new) l.store =
      .ok ((.recorded row, some (notification row old new)),
        { l.store with audit := some (log.append entry (l.changeFor alignment old new)).2 }) := by
    rw [reply, Work.Action.giving, log_of_audit hlog, hrow]
    rfl
  rcases l.perform_cases [] (.record entry alignment old new) with
    ⟨e, he, -⟩ | ⟨answer, note, t, hok, hx⟩
  · rw [he rfl] at hreply
    cases hreply
  · obtain ⟨hanswer, -⟩ := Prod.mk.inj (Except.ok.inj (hok.symm.trans hreply))
    obtain ⟨rfl, -⟩ := Prod.mk.inj hanswer
    exact ⟨_, hrow ▸ hx l.channel⟩

/-- **The row of a workflow is listed as it was answered.**  It shows a text or a date for each
coach. -/
theorem listed_run (hs : l.store.Reachable)
    (ho : l.options.identityField = CoachLedger.identityField) {q : Workflow.Request}
    (h : l.perform faults (.run q) = (.ok answer, m)) (hrow : answer.row? = some row) :
    row.listed = row := by
  obtain ⟨out, hx, rfl⟩ := answering_eq_ok h
  obtain rfl := Option.some.inj hrow
  have hsound := Store.isSound_of_reachable hs
  obtain ⟨v, -, hv, ⟨changed, -, -, hold, hnew⟩, -⟩ :=
    showsFieldChanges_run hsound ho (execute_of_ok hx)
  obtain ⟨hkind, hnumber⟩ := Workflow.kind?_readValue hv
  obtain ⟨index, f, hset, hfield⟩ := q.workflow.isSettable_field
  have htag : q.workflow.field ≠ Audit.tagField := by cases q.workflow <;> decide
  have hreserved : q.workflow.field ≠ Json.embeddingName := by cases q.workflow <;> decide
  rw [Audit.listed_eq_self_iff, hold, hnew]
  constructor
  · refine Audit.isKept_of_mem_fields htag hreserved fun coach _ hk => hnumber ?_
    rw [← hfield]
    exact (Store.fits_fieldOf hsound hset.field? coach .number hk).symm
  · refine Audit.isKept_of_mem_fields htag hreserved fun coach _ hk => hnumber ?_
    exact Option.some.inj (hkind.symm.trans hk)

/-! ### What is listed of a call -/

/-- How the row of a call is listed. -/
structure IsListedAs (l : Ledger) (call : Call) (row listed : Row) : Prop where
  id : listed.id = row.id
  entry : listed.entry = row.entry
  /-- The rows are equal if the values that were answered are read again as they are. -/
  kept : listed = row ↔ (∀ v ∈ row.oldValues, v.IsKept) ∧ ∀ v ∈ row.newValues, v.IsKept
  /-- Of two values that are denoted by texts without the reserved name, what is listed are the
  fragments that are not null, with their numbers reread.  This is what was answered, unless one of
  the values is null and the other one is not, or a number is read as another one. -/
  recorded : ∀ entry alignment old new, call = .record entry alignment old new →
    ∀ text text', Json.DenotesPlainly text old → Json.DenotesPlainly text' new →
      row = Audit.rowOf row.id entry (l.changeFor alignment old new) ∧
      listed.oldValues = ((l.changeFor alignment old new).bind fun c =>
        if old.isNull then none else some c.old.reread) ∧
      listed.newValues = ((l.changeFor alignment old new).bind fun c =>
        if new.isNull then none else some c.new.reread) ∧
      (listed = row ↔ old.isNull = new.isNull ∧
        ∀ c ∈ l.changeFor alignment old new, c.old.reread = c.old ∧ c.new.reread = c.new)
  /-- The row of a workflow is listed as it was answered, if coach numbers identify entries. -/
  applied : ∀ q, call = .run q → l.options.identityField = CoachLedger.identityField → listed = row

/-- **How the row of a call is listed**, once it was answered and whatever calls follow. -/
theorem perform_isListedAs (hs : l.store.Reachable)
    (h : l.perform faults call = (.ok answer, m)) (hrow : answer.row? = some row)
    (attempts : List Attempt) :
    ∃ listed, (∀ other, (m.performAll attempts).2.Lists row.id other ↔ other = listed) ∧
      IsListedAs l call row listed := by
  refine ⟨row.listed, fun other => lists_iff_of_perform hs h hrow attempts, rfl, rfl,
    Audit.listed_eq_self_iff, ?_, ?_⟩
  · rintro entry alignment old new rfl text text' hold hnew
    have heq := row_of_record h hrow
    refine ⟨heq, ?_, ?_, ?_⟩
    · rw [heq, changeFor, Audit.listed_rowOf hold.isCounted hnew.isCounted]
    · rw [heq, changeFor, Audit.listed_rowOf hold.isCounted hnew.isCounted]
    · rw [heq, changeFor]
      exact Audit.listed_rowOf_eq_self_iff hold.isCounted hnew.isCounted
  · rintro q rfl ho
    exact listed_run hs ho h hrow

/-! ### Notes -/

/-- A ledger without records. -/
def noteLedger : Ledger :=
  ⟨Store.fresh, .standard, none⟩

/-- What a note is about. -/
def noteEntry : Audit.Entry :=
  ⟨"clerk", "note", "yard", none, none⟩

/-- A note with a number. -/
def noteOf (i : Int) : Json :=
  .object [("a", .ofInt i)]

/-- The text of the first note. -/
def noteText : String := "\x7b\"a\":1\x7d"

theorem denotesPlainly_null : Json.DenotesPlainly "null" .null where
  read := rfl
  names := .null
  length := by decide

theorem denotesPlainly_note : Json.DenotesPlainly noteText (noteOf 1) where
  read := by
    have hsurvives : (noteOf 1).Survives Json.maxDepth := by
      refine ⟨List.nodup_singleton _, by decide, List.forall_mem_singleton.2 ?_⟩
      exact Json.Numeral.read?_integer (by decide) (by decide)
    have htext : (noteOf 1).text = noteText := rfl
    rw [← htext]
    exact Json.read?_text hsurvives
  names := by
    have houtline : Json.outline noteText =
        ⟨.object [(some "a", .number (some (.integer 1)))], true⟩ := rfl
    rw [Json.NamesNoText, houtline]
    exact .object (List.forall_mem_singleton.2 (by decide))
      (List.forall_mem_singleton.2 (.number fun _ _ => trivial))
  length := by decide

/-- A note that is taken is listed with its number. -/
theorem perform_isListedAs_note :
    (noteLedger.store.Reachable ∧ Json.DenotesPlainly "null" .null ∧
      Json.DenotesPlainly noteText (noteOf 1)) ∧
    ∃ row m listed, noteLedger.perform [] (.record noteEntry none .null (noteOf 1)) =
        (.ok (.recorded row), m) ∧ (∀ other, m.Lists row.id other ↔ other = listed) ∧
      row.oldValues = some .null ∧ listed.oldValues = none ∧ listed.newValues = some (noteOf 1) := by
  obtain ⟨m, hm⟩ := perform_record (l := noteLedger) rfl noteEntry none .null (noteOf 1)
  obtain ⟨listed, hlists, hlisted⟩ := perform_isListedAs Store.Reachable.fresh hm rfl []
  obtain ⟨-, hold, hnew, -⟩ :=
    hlisted.recorded _ _ _ _ rfl _ _ denotesPlainly_null denotesPlainly_note
  exact ⟨⟨.fresh, denotesPlainly_null, denotesPlainly_note⟩, _, m, listed, hm, hlists, rfl, hold,
    hnew⟩

/-- **A row with null on one side is not listed as it was answered.** -/
theorem not_listed_null :
    ¬∀ (l : Ledger) (entry : Audit.Entry) (alignment : Option Audit.Alignment)
      (text text' : String) (old new : Json) (row : Row) (m : Ledger), l.store.Reachable →
      Json.read? text = some old → Json.read? text' = some new →
      l.perform [] (.record entry alignment old new) = (.ok (.recorded row), m) →
      m.Lists row.id row := by
  intro h
  obtain ⟨m, hm⟩ := perform_record (l := noteLedger) rfl noteEntry none .null (noteOf 1)
  have hlists := h _ _ _ _ _ _ _ _ m .fresh denotesPlainly_null.read denotesPlainly_note.read hm
  have hlisted := (lists_iff_of_perform .fresh hm rfl []).1 hlists
  cases congrArg Row.oldValues hlisted

/-- **A row that is listed tells whether there is a change**, under any options and whatever calls
follow, just if the fragments of the change can be read.  So can those of values that are denoted by
texts without the reserved name. -/
theorem record_tellsChange (hs : l.store.Reachable)
    (h : l.perform faults (.record entry alignment old new) = (.ok answer, m))
    (hrow : answer.row? = some row) (attempts : List Attempt) :
    ∃ listed, (∀ other, (m.performAll attempts).2.Lists row.id other ↔ other = listed) ∧
      (Audit.TellsChange (l.changeFor alignment old new) listed ↔
        ∀ c ∈ l.changeFor alignment old new, c.IsReadable) ∧
      ∀ text text', Json.DenotesPlainly text old → Json.DenotesPlainly text' new →
        Audit.TellsChange (l.changeFor alignment old new) listed := by
  have htells : Audit.TellsChange (l.changeFor alignment old new) row.listed ↔
      ∀ c ∈ l.changeFor alignment old new, c.IsReadable := by
    rw [row_of_record h hrow]
    exact Audit.tellsChange_listed_iff
  refine ⟨row.listed, fun other => lists_iff_of_perform hs h hrow attempts, htells, ?_⟩
  intro text text' hold hnew
  refine htells.2 fun c hc => ?_
  exact (Audit.isLegible_change? hold.isCounted hnew.isCounted hc).isReadable

/-- A note that is taken is listed as a change from nothing. -/
theorem record_tellsChange_note :
    (noteLedger.store.Reachable ∧ Json.DenotesPlainly "null" .null ∧
      Json.DenotesPlainly noteText (noteOf 1)) ∧
    ∃ row m listed, noteLedger.perform [] (.record noteEntry none .null (noteOf 1)) =
        (.ok (.recorded row), m) ∧ (∀ other, m.Lists row.id other ↔ other = listed) ∧
      listed.oldValues = none ∧ listed.newValues ≠ none := by
  obtain ⟨m, hm⟩ := perform_record (l := noteLedger) rfl noteEntry none .null (noteOf 1)
  obtain ⟨listed, hlists, -, htells⟩ := record_tellsChange Store.Reachable.fresh hm rfl []
  have htells := htells _ _ denotesPlainly_null denotesPlainly_note
  have hchange : noteLedger.changeFor none .null (noteOf 1) = some ⟨.null, noteOf 1⟩ := rfl
  refine ⟨⟨.fresh, denotesPlainly_null, denotesPlainly_note⟩, _, m, listed, hm, hlists,
    (htells.old _ hchange).2 rfl, fun hnone => ?_⟩
  cases (htells.new _ hchange).1 hnone

/-- A note with a member that has the reserved name, but is not the first one. -/
def reservedNote (i : Int) : Json :=
  .object [("a", .ofInt 1), (Json.embeddingName, .ofInt i)]

theorem read?_reservedNote {i : Int} (hlow : -(Json.Numeral.maxNegated : Int) ≤ i)
    (hhigh : i ≤ Json.Numeral.maxNatural) :
    Json.read? (reservedNote i).text = some (reservedNote i) := by
  have hsurvives : (reservedNote i).Survives Json.maxDepth := by
    have hnames : ["a", Json.embeddingName].Nodup := by decide
    have hfirst : some "a" ≠ some Json.embeddingName := by decide
    refine ⟨hnames, hfirst, List.forall_mem_cons.2 ⟨?_, List.forall_mem_singleton.2 ?_⟩⟩
    · exact Json.Numeral.read?_integer (by decide) (by decide)
    · exact Json.Numeral.read?_integer hlow hhigh
  exact Json.read?_text hsurvives

/-- **A change of a member with the reserved name is listed as no change**: the member comes first in
the fragment, which embeds a text then. -/
theorem not_tellsChange_reserved :
    ¬∀ (l : Ledger) (entry : Audit.Entry) (alignment : Option Audit.Alignment)
      (text text' : String) (old new : Json) (row listed : Row) (m : Ledger), l.store.Reachable →
      Json.read? text = some old → Json.read? text' = some new →
      l.perform [] (.record entry alignment old new) = (.ok (.recorded row), m) →
      m.Lists row.id listed → Audit.TellsChange (l.changeFor alignment old new) listed := by
  intro h
  obtain ⟨m, hm⟩ :=
    perform_record (l := noteLedger) rfl noteEntry none (reservedNote 2) (reservedNote 3)
  have htells := h _ _ _ _ _ _ _ _ _ m .fresh (read?_reservedNote (by decide) (by decide))
    (read?_reservedNote (by decide) (by decide)) hm
    ((lists_iff_of_perform .fresh hm rfl []).2 rfl)
  have hchange : noteLedger.changeFor none (reservedNote 2) (reservedNote 3) =
      some ⟨.object [(Json.embeddingName, .ofInt 2)], .object [(Json.embeddingName, .ofInt 3)]⟩ :=
    rfl
  have hread : Json.read? (Json.object [(Json.embeddingName, .ofInt 2)]).text = none := rfl
  have hsome := (Audit.tellsChange_listed_iff.1 htells _ hchange).old
  rw [hread] at hsome
  cases hsome

end Ledger

end CoachLedger
