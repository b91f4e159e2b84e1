/-
**Writes to the tables.**

What can be done to the records is to put some in or to set a field.  The audit log is left alone,
and no row is taken away from its key: each row of before is still there under the key that it had,
in the same order among the others.

Main definitions:

* `CoachLedger.Store.Writes` — what can be done to the records;
* `CoachLedger.Store.KeepsKeys` — each row of one store is there in the other one, under its key.

Main results:

* `CoachLedger.Store.Writes.audit` — a write leaves the audit log alone;
* `CoachLedger.Store.Writes.keepsKeys` — **a write keeps the keys**.
-/

import CoachLedger.Proofs.Store.Overlay

set_option autoImplicit false

namespace CoachLedger.Store

open CoachLedger.Sql (Cell)

variable {kind : RecordKind} {s t u : Store}

/-- The records are left alone, or some are put in, or a field is set. -/
inductive Writes (s : Store) : Store → Prop
  | nothing : Writes s s
  | upsert {t : Store} {rs : List Record} {n : Nat} (hr : ∀ r ∈ rs, r.IsValid)
      (h : s.upsert rs = .ok (n, t)) : Writes s t
  | update {t : Store} {kind : RecordKind} {coaches : List String} {field : String} {v : Value}
      {n : Nat} (h : s.update kind coaches field v = .ok (n, t)) : Writes s t

/-- Writing records leaves the audit log alone. -/
theorem Writes.audit (h : Writes s t) : t.audit = s.audit := by
  cases h with
  | nothing => rfl
  | upsert hr h => exact (audit_upsertFrom h).1
  | update h =>
      rename_i kind coaches field v n
      obtain ⟨index, f, -, -, -, rfl⟩ := update_ok h
      cases kind <;> rfl

theorem Writes.reachable (h : Writes s t) (hs : s.Reachable) : t.Reachable := by
  cases h with
  | nothing => exact hs
  | upsert hr h => exact hs.upsert hr h
  | update h => exact hs.update h

/-! ### Keys -/

/-- The keys of the rows of a kind. -/
def keys (s : Store) (kind : RecordKind) : List Cell :=
  (s.rows kind).map (keyOf kind)

/-- Each row of the first store is there in the second one under the key that it had, and the rows
stand in the same order. -/
def KeepsKeys (s t : Store) : Prop :=
  ∀ kind, (s.keys kind).Sublist (t.keys kind)

theorem KeepsKeys.refl (s : Store) : KeepsKeys s s :=
  fun _ => List.Sublist.refl _

theorem KeepsKeys.trans (hst : KeepsKeys s t) (htu : KeepsKeys t u) : KeepsKeys s u :=
  fun kind => (hst kind).trans (htu kind)

/-- The keys are those of the rows, whatever else has become of the store. -/
theorem KeepsKeys.of_rows (h : ∀ kind, t.rows kind = s.rows kind) : KeepsKeys s t := by
  intro kind
  rw [keys, keys, h]

/-- A row is updated in its place, or a fresh row is put between the others. -/
theorem sublist_putRow {key : Cell} {update : Cells → Cells} {fresh : Cells} {rows : List Cells}
    (hkeys : ∀ row ∈ rows, IsKey kind (keyOf kind row)) (hk : IsKey kind key)
    (hu : ∀ row ∈ rows, keyOf kind (update row) = key) :
    (rows.map (keyOf kind)).Sublist ((putRow kind key update fresh rows).map (keyOf kind)) := by
  induction rows with
  | nil => exact List.nil_sublist _
  | cons row rest ih =>
      obtain ⟨hkr, hkrest⟩ := List.forall_mem_cons.1 hkeys
      obtain ⟨hur, hurest⟩ := List.forall_mem_cons.1 hu
      rw [putRow]
      rcases compare_keys hkr hk with ⟨hlt, -⟩ | ⟨heq, hc⟩ | ⟨hgt, -⟩
      · rw [hlt]
        exact (ih hkrest hurest).cons_cons _
      · rw [hc]
        dsimp only
        rw [List.map_cons, List.map_cons, hur, heq]
      · rw [hgt]
        exact List.sublist_cons_self _ _

theorem keepsKeys_upsertOne (hs : IsSound s) {r : Record} (hr : r.IsValid) {n : Nat}
    (h : s.upsertOne r = .ok (n, t)) : KeepsKeys s t := by
  obtain ⟨coach, key, hc, hk, -, rfl⟩ := upsertOne_ok h
  obtain ⟨-, hkey⟩ := isKeyFor_keyFor hr hc hk
  intro kind
  rw [keys, keys, rows_useKey]
  by_cases hkind : kind = r.kind
  · subst hkind
    rw [rows_withRows_self]
    refine sublist_putRow (hs.table r.kind).keys hkey ?_
    intro row hrow
    exact keyOf_writeRow key (hs.rows r.kind row hrow).length
  · rw [rows_withRows_of_ne s hkind]

theorem keepsKeys_upsertFrom (hs : IsSound s) {rs : List Record} (hr : ∀ r ∈ rs, r.IsValid)
    {count n : Nat} (h : s.upsertFrom count rs = .ok (n, t)) : KeepsKeys s t := by
  induction rs generalizing s count with
  | nil =>
      obtain ⟨-, rfl⟩ := Prod.mk.inj (Except.ok.inj h)
      exact .refl s
  | cons r rs ih =>
      obtain ⟨hr, hrs⟩ := List.forall_mem_cons.1 hr
      rw [upsertFrom] at h
      split at h
      · rename_i m u hu
        exact (keepsKeys_upsertOne hs hr hu).trans (ih (isSound_upsertOne hs hr hu) hrs h)
      · cases h

theorem keepsKeys_update {coaches : List String} {field : String} {v : Value} {n : Nat}
    (h : s.update kind coaches field v = .ok (n, t)) : KeepsKeys s t := by
  obtain ⟨index, f, hset, -, -, rfl⟩ := update_ok h
  intro other
  rw [keys, keys]
  by_cases hother : other = kind
  · subst hother
    have hkeys : keyOf other ∘ setIn other coaches index (cellFor f.kind v) = keyOf other :=
      funext fun row => keyOf_setIn hset coaches _ row
    rw [rows_withRows_self, List.map_map, hkeys]
  · rw [rows_withRows_of_ne s hother]

/-- **A write keeps the keys.** -/
theorem Writes.keepsKeys (h : Writes s t) (hs : IsSound s) : KeepsKeys s t := by
  cases h with
  | nothing => exact .refl s
  | upsert hr h => exact keepsKeys_upsertFrom hs hr h
  | update h => exact keepsKeys_update h

end CoachLedger.Store
