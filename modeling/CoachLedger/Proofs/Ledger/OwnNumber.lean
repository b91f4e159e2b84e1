/-
**Selecting a coach by its own number.**

A record needs a coach number that is not empty, and the number is stored as it is.  A workflow takes
the blanks around a number off before it looks the coach up.  A coach whose number has no blanks
around it can therefore be selected by it, whatever calls have led to the store.  A number that is
all blank selects nothing, and one with blanks around it selects the coach of the number without
them, if there is one.

Main definitions:

* `CoachLedger.Ledger.SetsOne` — a workflow that has set its field for one coach.

Main results:

* `CoachLedger.Workflow.selection_singleton` — what one text selects;
* `CoachLedger.Ledger.execute_one` — a workflow for one known coach;
* `CoachLedger.Ledger.execute_ownNumber` — **a coach is selected by a number without blanks around
  it**;
* `CoachLedger.Ledger.execute_paddedNumber` — what a number with blanks around it selects;
* `CoachLedger.Ledger.not_setsOne_blank` — a coach that cannot be selected at all.
-/

import CoachLedger.Proofs.Ledger.AuditTrail
import CoachLedger.Proofs.Ledger.WorkflowAudit

set_option autoImplicit false

namespace CoachLedger

theorem Record.ne_empty_of_identity? {r : Record} {t : String} (h : r.identity? = some t) :
    t ≠ "" := by
  rw [identity?] at h
  simpa using (Option.filter_eq_some_iff.1 h).2

/-! ### The selection -/

namespace Workflow

/-- One text selects the coach of the text without the blanks around it, unless nothing is left. -/
theorem selection_singleton (t : String) :
    selection [t] = if Text.trim t = "" then [] else [Text.trim t] := by
  rw [selection, List.map_singleton, List.filter_cons, List.filter_nil]
  by_cases ht : Text.trim t = ""
  · rw [if_pos ht, if_neg (by simpa using ht)]
    rfl
  · rw [if_neg ht, if_pos (by simpa using ht)]
    rfl

theorem Request.resolve_of_nil {q : Request} (h : selection q.coaches = []) :
    q.resolve = .error .emptySelection := by
  unfold resolve
  rw [h]
  rfl

end Workflow

namespace Ledger

variable {l m : Ledger} {q : Workflow.Request} {t : String} {v : Value}

/-! ### Stores that calls lead to -/

/-- No call removes the audit log. -/
theorem isSome_audit_step (l : Ledger) (a : Attempt) (h : l.store.audit.isSome = true) :
    (a.step l).after.store.audit.isSome = true := by
  rcases step_cases l a with ⟨e, -, hafter⟩ | ⟨answer, note, u, -, hreply, hafter⟩
  · rw [hafter]
    exact h
  · rw [hafter]
    rcases (reply_eq_ok hreply).audit with ⟨-, -, -, haudit⟩ | ⟨log, new, sent, -, -, -, -, -, -, haudit⟩
    · exact (congrArg Option.isSome haudit).trans h
    · exact congrArg Option.isSome haudit

theorem isSome_audit_performAll (l : Ledger) (attempts : List Attempt)
    (h : l.store.audit.isSome = true) : (l.performAll attempts).2.store.audit.isSome = true := by
  induction attempts generalizing l with
  | nil => exact h
  | cons a rest ih => exact ih (a.step l).after (isSome_audit_step l a h)

/-! ### One coach -/

/-- The workflow succeeds, reports nothing as missing, and sets its field in the master record of
one coach, to the value, and nothing else in the tables. -/
def SetsOne (l : Ledger) (q : Workflow.Request) (coach : String) (v : Value) : Prop :=
  ∃ out m, l.execute [] q = (.ok out, m) ∧ out.missing = [] ∧ out.updated = 1 ∧
    Store.IsSetTo l.store m.store [coach] q.workflow.field v ∧
    m.store.fieldOf coach q.workflow.field = v

/-- A workflow for one known coach. -/
theorem execute_one (hs : l.store.Reachable) (hlog : l.store.audit.isSome = true)
    (hselected : Workflow.selection q.coaches = [t]) (hknown : l.store.knows t = true)
    (hv : q.workflow.readValue q.value = .ok v) : SetsOne l q t v := by
  have hsound := Store.isSound_of_reachable hs
  have hcoaches : q.known l.store = [t] := by
    rw [Workflow.Request.known, hselected, List.filter_cons, if_pos hknown, List.filter_nil]
  have hok : (l.run q).isOk = true := by
    refine (run_isOk_iff hsound).2 ⟨?_, ?_, hlog⟩
    · rw [hcoaches]
      exact List.cons_ne_nil _ _
    · rw [hv]
      rfl
  have hexecute := execute_nil l q
  cases hrun : l.run q with
  | error e =>
      rw [hrun] at hok
      cases hok
  | ok p =>
      obtain ⟨out, m⟩ := p
      rw [hrun] at hexecute
      have happlied := isApplied_run hsound hrun
      obtain ⟨w, hw, hset⟩ := happlied.tables
      obtain rfl : v = w := Except.ok.inj (hv.symm.trans hw)
      refine ⟨out, m, hexecute, ?_, ?_, ?_, ?_⟩
      · rw [happlied.missing, hselected, List.filter_cons, hknown, List.filter_nil]
        rfl
      · rw [happlied.updated, hcoaches, List.length_singleton]
      · rwa [hcoaches] at hset
      · refine (known_and_fieldOf_run hs hrun hv).2 t ?_
        rw [hcoaches]
        exact List.mem_singleton_self t

/-- A workflow for one coach that is not known. -/
theorem execute_unknown (hsound : Store.IsSound l.store)
    (hselected : Workflow.selection q.coaches = [t]) (hknown : l.store.knows t = false)
    (hv : q.workflow.readValue q.value = .ok v) :
    l.execute [] q = (.error (.unknownCoaches [t]), l) := by
  have hresolve := Workflow.Request.resolve_of_ok (by rw [hselected]; exact List.cons_ne_nil _ _) hv
  have hfound : (l.store.get .master [t]).filterMap Record.identity? = [] := by
    refine List.eq_nil_iff_forall_not_mem.2 fun c hc => ?_
    obtain ⟨hmem, hc⟩ := (Store.mem_identities_get hsound (List.nodup_singleton t)).1 hc
    rw [List.mem_singleton.1 hmem, hknown] at hc
    cases hc
  have hrun : l.run q = .error (.unknownCoaches [t]) := by
    unfold run
    rw [hresolve, hselected]
    dsimp only
    unfold carryOut
    dsimp only
    rw [hfound]
    rfl
  rw [execute_nil, hrun]

theorem execute_blank (h : Workflow.selection q.coaches = []) :
    l.execute [] q = (.error .emptySelection, l) := by
  unfold execute
  rw [Workflow.Request.resolve_of_nil h]

/-! ### Its own number -/

/-- **A coach is selected by its own number if this has no blanks around it.**  Whatever calls have
been performed on a new store, a workflow with a value for its field then succeeds for each master
record, misses nothing, and sets the field of this record.  A number that is all blank is dropped from
the selection, of which nothing is left. -/
theorem execute_ownNumber (options : Audit.Options) (channel : Option (Audit.Channel Notification))
    (attempts : List Attempt) :
    let l := ((⟨.fresh, options, channel⟩ : Ledger).performAll attempts).2
    ∀ r ∈ l.store.records .master, ∀ t, r.identity? = some t → ∀ q : Workflow.Request,
      q.coaches = [t] → ∀ v, q.workflow.readValue q.value = .ok v →
        (Text.trim t = t → SetsOne l q t v) ∧
        (Text.trim t = "" → l.execute [] q = (.error .emptySelection, l)) := by
  intro l r hr t hid q hq v hv
  have hs : l.store.Reachable := Ledger.reachable_performAll _ attempts .fresh
  have hlog : l.store.audit.isSome = true := isSome_audit_performAll _ attempts rfl
  have hselected := Workflow.selection_singleton t
  rw [← hq] at hselected
  refine ⟨fun ht => ?_, fun ht => ?_⟩
  · have hne : t ≠ "" := Record.ne_empty_of_identity? hid
    rw [ht, if_neg hne] at hselected
    exact execute_one hs hlog hselected (Store.knows_iff.2 ⟨r, hr, hid⟩) hv
  · rw [if_pos ht] at hselected
    exact execute_blank hselected

/-- A number with blanks around it selects another coach: if that one has a master record, its field
is set and the record of the number itself stays as it is, and otherwise the workflow fails. -/
theorem execute_paddedNumber (hs : l.store.Reachable) (hlog : l.store.audit.isSome = true)
    {r : Record} (hr : r ∈ l.store.records .master) (hid : r.identity? = some t)
    (hq : q.coaches = [t]) (hv : q.workflow.readValue q.value = .ok v) (ht : Text.trim t ≠ t)
    (hne : Text.trim t ≠ "") :
    (l.store.knows (Text.trim t) = true → SetsOne l q (Text.trim t) v ∧
      ∀ out m, l.execute [] q = (.ok out, m) → r ∈ m.store.records .master) ∧
    (l.store.knows (Text.trim t) = false →
      l.execute [] q = (.error (.unknownCoaches [Text.trim t]), l)) := by
  have hsound := Store.isSound_of_reachable hs
  have hselected := Workflow.selection_singleton t
  rw [← hq, if_neg hne] at hselected
  refine ⟨fun hknown => ⟨execute_one hs hlog hselected hknown hv, fun out m hx => ?_⟩,
    fun hknown => execute_unknown hsound hselected hknown hv⟩
  obtain ⟨w, -, hset⟩ := (isApplied_run hsound (execute_of_ok hx)).tables
  have hother : r.isOf (q.known l.store) = false := by
    rw [Bool.eq_false_iff, Ne, Record.isOf_iff hid, Workflow.Request.known, hselected,
      List.mem_filter, List.mem_singleton]
    exact fun hmem => ht hmem.1.symm
  rw [hset.records]
  refine List.mem_map.2 ⟨r, hr, ?_⟩
  rw [hother, if_neg Bool.false_ne_true]

/-! ### A coach that is selected and one that is not -/

/-- A new ledger after a record of a coach has been put in. -/
def withCoach (t : String) : Ledger :=
  ((⟨.fresh, .standard, none⟩ : Ledger).performAll
    [⟨[], .upsert [(Record.empty .master).put CoachLedger.identityField (.text t)]
      (List.forall_mem_singleton.2 (Record.isValid_put (Record.isValid_empty .master)
        (Store.field?_identity .master) (Value.fits_of_kind? rfl)))⟩]).2

/-- A coach has a new battery. -/
def batteryOf (t : String) : Workflow.Request :=
  ⟨.batteryStatus, [t], "good", "clerk", none⟩

theorem execute_ownNumber_one :
    ∃ r ∈ (withCoach "C1").store.records .master, r.identity? = some "C1" ∧
      Text.trim "C1" = "C1" ∧ SetsOne (withCoach "C1") (batteryOf "C1") "C1" (.text "good") := by
  have hids : ((withCoach "C1").store.records .master).map Record.identity? = [some "C1"] := by
    decide
  have htrim : Text.trim "C1" = "C1" := by decide
  obtain ⟨r, hr, hid⟩ := List.map_eq_singleton_iff.1 hids
  have hmem : r ∈ (withCoach "C1").store.records .master := by
    rw [hr]
    exact List.mem_singleton_self r
  refine ⟨r, hmem, hid, htrim, ?_⟩
  exact (execute_ownNumber .standard none _ r hmem "C1" hid (batteryOf "C1") rfl (.text "good")
    (by decide)).1 htrim

/-- **A coach whose number is all blank has a record, but no workflow can select it.** -/
theorem not_setsOne_blank :
    ((withCoach " ").store.records .master).map Record.identity? = [some " "] ∧
      (batteryOf " ").workflow.readValue (batteryOf " ").value = .ok (.text "good") ∧
      ¬SetsOne (withCoach " ") (batteryOf " ") " " (.text "good") := by
  refine ⟨by decide, by decide, ?_⟩
  rintro ⟨out, m, hx, -⟩
  rw [execute_blank (by decide)] at hx
  cases (Prod.mk.inj hx).1

end Ledger

end CoachLedger
