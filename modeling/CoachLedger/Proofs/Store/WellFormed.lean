/-
**Well-formed tables.**

In a well-formed store no two master records are of the same coach and no two history records have
the same number, every record is of a coach whose number is not empty, and each cell is null or holds
a value of the kind of its column.  A row of such a store is read field by field, each value going
through the check of the record, and then nothing fails and nothing that is stored is lost.

Main definitions:

* `CoachLedger.Store.readRow` — reads a row field by field;
* `CoachLedger.Store.IsWellFormed` — well-formed stores.

Main results:

* `CoachLedger.Store.readRow_eq` — **reading a row does not fail**;
* `CoachLedger.Store.isWellFormed` — **every store is well formed**.
-/

import CoachLedger.Proofs.Record.Json
import CoachLedger.Proofs.Store.Selection

set_option autoImplicit false

namespace CoachLedger.Store

open CoachLedger.Sql (Cell)

variable {kind : RecordKind} {row : Cells} {s : Store}

/-! ### Reading a row field by field -/

/-- Sets the fields that are given with their places to what is read from the row.  A field whose
cell has no value is left out. -/
def readFields (row : Cells) (r : Record) : List (Field × Nat) → Except RecordError Record
  | [] => .ok r
  | (f, i) :: rest =>
      match slotOf f.kind (row[i]?.getD .null) with
      | none => readFields row r rest
      | some v =>
          match r.set f.name v with
          | .error e => .error e
          | .ok r => readFields row r rest

/-- Reads a row field by field. -/
def readRow (kind : RecordKind) (row : Cells) : Except RecordError Record :=
  readFields row (.empty kind) kind.fields.zipIdx

/-- Whatever a cell holds, it is read as null or as a value of the kind of the column. -/
theorem fits_toValue (k : Kind) (c : Cell) : (c.toValue k).Fits k := by
  intro found hfound
  unfold Cell.toValue at hfound
  split at hfound
  · exact (Option.some.inj hfound).symm
  · exact (Option.some.inj hfound).symm
  · exact (Option.some.inj hfound).symm
  · rename_i text
    cases hd : Date.read? text with
    | none =>
        rw [hd] at hfound
        cases hfound
    | some d =>
        rw [hd] at hfound
        exact (Option.some.inj hfound).symm
  · exact (Option.some.inj hfound).symm
  · cases hfound

/-- What is read from a column can be set. -/
theorem fits_slotOf {k : Kind} {c : Cell} {v : Value} (h : slotOf k c = some v) : v.Fits k := by
  unfold slotOf at h
  dsimp only at h
  split at h
  · cases h
  · rw [← Option.some.inj h]
    exact fits_toValue k c

/-- The fields that have been read are those of the record of the row, and the others are not set
yet.  The induction is on the fields that are left. -/
theorem readFields_eq (r : Record) (rest : List (Field × Nat)) (hk : r.kind = kind)
    (hplace : ∀ p ∈ rest, kind.fields[p.2]? = some p.1) (hnodup : (rest.map Prod.snd).Nodup)
    (hset : ∀ i : Nat, i ∉ rest.map Prod.snd → r.slots[i]? = (decode kind row).slots[i]?)
    (hunset : ∀ i ∈ rest.map Prod.snd, r.slots[i]? = some none) :
    readFields row r rest = .ok (decode kind row) := by
  induction rest generalizing r with
  | nil =>
      rw [readFields]
      refine congrArg Except.ok (Record.eq_of_slots hk ?_)
      intro i
      exact hset i List.not_mem_nil
  | cons p rest ih =>
      obtain ⟨f, i⟩ := p
      obtain ⟨hfi, hplace⟩ := List.forall_mem_cons.1 hplace
      obtain ⟨hi, hnodup⟩ := List.nodup_cons.1 hnodup
      dsimp only at hfi hi
      have hdecoded : (decode kind row).slots[i]? = some (slotOf f.kind (row[i]?.getD .null)) := by
        rw [slots_decode, hfi]
        rfl
      have hother : ∀ j, j ∉ rest.map Prod.snd → j ≠ i →
          r.slots[j]? = (decode kind row).slots[j]? := by
        intro j hj hne
        exact hset j fun h => (List.mem_cons.1 h).elim hne hj
      rw [readFields]
      cases hslot : slotOf f.kind (row[i]?.getD .null) with
      | none =>
          refine ih r hk hplace hnodup ?_ fun j hj => hunset j (List.mem_cons_of_mem _ hj)
          intro j hj
          by_cases hne : j = i
          · rw [hne, hdecoded, hslot]
            exact hunset i (List.mem_cons_self ..)
          · exact hother j hj hne
      | some v =>
          obtain ⟨hlt, hget⟩ := List.getElem?_eq_some_iff.1 hfi
          have hindex : r.kind.index? f.name = some i := by
            rw [hk, ← hget]
            exact RecordKind.index?_names kind hlt
          have hfield : r.kind.field? f.name = some f := by
            rw [RecordKind.field?_eq, hindex, hk]
            exact hfi
          have hcheck : Record.check r.kind f.name v = .ok () :=
            Record.check_eq_ok_iff.2 ⟨f, hfield, fits_slotOf hslot⟩
          obtain ⟨hkind, hslots⟩ := Record.put_eq hindex v
          dsimp only
          rw [Record.set_eq_ok_iff.2 ⟨hcheck, rfl⟩]
          refine ih _ (hkind.trans hk) hplace hnodup ?_ ?_
          · intro j hj
            rw [hslots]
            by_cases hne : j = i
            · have hwidth : i < r.slots.length := by
                rw [r.length_slots, hk]
                exact hlt
              rw [hne, hdecoded, hslot, List.getElem?_set_self hwidth]
            · rw [List.getElem?_set_ne (Ne.symm hne)]
              exact hother j hj hne
          · intro j hj
            have hne : i ≠ j := fun h => hi (h ▸ hj)
            rw [hslots, List.getElem?_set_ne hne]
            exact hunset j (List.mem_cons_of_mem _ hj)

/-- **Reading a row field by field does not fail**, and gives the record of the row. -/
theorem readRow_eq (kind : RecordKind) (row : Cells) : readRow kind row = .ok (decode kind row) := by
  have hplaces : kind.fields.zipIdx.map Prod.snd = List.range kind.fields.length := by
    rw [List.zipIdx_map_snd, List.range_eq_range']
  refine readFields_eq _ _ rfl ?_ ?_ ?_ ?_
  · intro p hp
    obtain ⟨-, hp⟩ := List.mem_zipIdx_iff_le_and_getElem?_sub.1 hp
    exact hp
  · rw [hplaces]
    exact List.nodup_range
  · intro i hi
    rw [hplaces, List.mem_range] at hi
    have hout {r : Record} (hk : r.kind = kind) : r.slots[i]? = none := by
      refine List.getElem?_eq_none ?_
      rw [r.length_slots, hk]
      omega
    rw [hout rfl, hout rfl]
  · intro i hi
    rw [hplaces, List.mem_range] at hi
    exact List.getElem?_replicate_of_lt hi

/-! ### Well-formed stores -/

/-- A well-formed store. -/
structure IsWellFormed (s : Store) : Prop where
  /-- The key of a master record is the number of its coach, which is not empty. -/
  masters : ∀ row ∈ s.rows .master, ∃ coach, keyOf .master row = .text coach ∧ coach ≠ ""
  /-- The key of a history record is a number. -/
  numbers : ∀ row ∈ s.rows .history, ∃ i, keyOf .history row = .integer i
  /-- A history record is of a coach whose number is not empty. -/
  histories : ∀ row ∈ s.rows .history, ∃ coach, coachOf .history row = .text coach ∧ coach ≠ ""
  /-- No two rows have the same key. -/
  distinct : ∀ kind, ((s.rows kind).map (keyOf kind)).Nodup
  /-- A row has one cell for each field. -/
  width : ∀ kind, ∀ row ∈ s.rows kind, row.length = kind.fields.length
  /-- Each cell is null or holds a value of the kind of its column. -/
  cells : ∀ kind, ∀ row ∈ s.rows kind, Suited kind row
  /-- Reading a row does not fail, and a cell that is not null is read as a value of the kind of its
  column. -/
  reads : ∀ kind, ∀ row ∈ s.rows kind, ∃ r, readRow kind row = .ok r ∧
    ∀ f ∈ kind.fields, cellAt kind row f.name ≠ .null → (r.get f.name).kind? = some f.kind

theorem IsSound.isWellFormed (hs : IsSound s) : IsWellFormed s := by
  refine ⟨?_, (hs.table .history).keys, fun row hrow => (hs.rows .history row hrow).coach,
    fun kind => nodup_keys (hs.table kind), fun kind row hrow => (hs.rows kind row hrow).length,
    fun kind row hrow => (hs.rows kind row hrow).suits, ?_⟩
  · intro row hrow
    obtain ⟨coach, hcoach, hne⟩ := (hs.rows .master row hrow).coach
    exact ⟨coach, hcoach, hne⟩
  · intro kind row hrow
    refine ⟨decode kind row, readRow_eq kind row, ?_⟩
    intro f hf hnull
    have hfield := RecordKind.field?_of_mem hf
    rw [get_decode row hfield]
    exact Cell.kind?_toValue (suits_cellAt (hs.rows kind row hrow) hfield) hnull

/-- **Every store is well formed.** -/
theorem isWellFormed (hs : s.Reachable) : IsWellFormed s :=
  (isSound_of_reachable hs).isWellFormed

end CoachLedger.Store
