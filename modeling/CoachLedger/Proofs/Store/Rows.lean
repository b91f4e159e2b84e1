/-
**Rows of a table.**

A row has one cell for each field of its kind, and a column is found at the place of its field.
Putting a record over a row changes the cells of the fields that the record sets, and no others.

Main definitions:

* `CoachLedger.Store.IsRow` — each cell is one that its column may hold, and there is a coach
  number;
* `CoachLedger.Store.writeRow` — a row with a record written over it under a key.

Main results:

* `CoachLedger.Store.get_decode` — a field of the record of a row is what is read from its column;
* `CoachLedger.Store.decode_set` — setting a cell sets the field of the record;
* `CoachLedger.Store.cellAt_overlay` — the columns of a row with a record put over it;
* `CoachLedger.Store.isRow_writeRow` — **a valid record written over a row leaves a row**.
-/

import CoachLedger.Proofs.Filter.Faithful
import CoachLedger.Proofs.Record.Fields
import CoachLedger.Store.Basic

set_option autoImplicit false

namespace CoachLedger.Store

open CoachLedger.Sql (Affinity Cell)

variable {kind : RecordKind} {row : Cells} {column : String}

/-! ### Columns -/

theorem cellAt_eq {i : Nat} (h : kind.index? column = some i) (row : Cells) :
    cellAt kind row column = row[i]?.getD .null := by
  rw [cellAt, h]
  rfl

theorem affinityOf_eq {f : Field} (h : kind.field? column = some f) :
    affinityOf kind column = .ofKind f.kind := by
  rw [affinityOf, h]

/-- A cell that is replaced is found in its column. -/
theorem cellAt_set_self {i : Nat} (h : kind.index? column = some i) (hlt : i < row.length)
    (c : Cell) : cellAt kind (row.set i c) column = c := by
  rw [cellAt_eq h, List.getElem?_set_self hlt]
  rfl

/-- The cells of the other columns stay. -/
theorem cellAt_set_of_ne {other : String} {i : Nat} (h : kind.index? column = some i)
    (hne : other ≠ column) (c : Cell) :
    cellAt kind (row.set i c) other = cellAt kind row other := by
  cases hj : kind.index? other with
  | none => simp [cellAt, hj]
  | some j =>
      rw [cellAt_eq hj, cellAt_eq hj, List.getElem?_set_ne (RecordKind.index?_ne h hj hne.symm)]

/-! ### Rows -/

/-- Each cell is one that its column may hold. -/
def Suited (kind : RecordKind) (row : Cells) : Prop :=
  ∀ (i : Nat) (f : Field) (c : Cell), kind.fields[i]? = some f → row[i]? = some c →
    Cell.Suits f.kind c

/-- The row has a cell for each field of the kind, which the column of the field may hold.  The
number of the coach is not empty. -/
structure IsRow (kind : RecordKind) (row : Cells) : Prop where
  length : row.length = kind.fields.length
  suits : Suited kind row
  coach : ∃ t, coachOf kind row = .text t ∧ t ≠ ""

theorem suits_cellAt (h : IsRow kind row) {f : Field} (hf : kind.field? column = some f) :
    Cell.Suits f.kind (cellAt kind row column) := by
  obtain ⟨i, hi, hfi, -⟩ := RecordKind.index?_of_field? hf
  have hlt : i < row.length := by
    rw [h.length]
    exact (List.getElem?_eq_some_iff.1 hfi).1
  rw [cellAt_eq hi, List.getElem?_eq_getElem hlt]
  exact h.suits i f _ hfi (List.getElem?_eq_getElem hlt)

theorem slots_decode (kind : RecordKind) (row : Cells) (i : Nat) :
    (decode kind row).slots[i]? =
      (kind.fields[i]?).map fun f => slotOf f.kind (row[i]?.getD .null) := by
  rw [decode, List.getElem?_map, List.getElem?_zipIdx]
  cases kind.fields[i]? with
  | none => rfl
  | some f => simp

/-- **A field of the record of a row is what is read from its column.** -/
theorem get_decode (row : Cells) {f : Field} (hf : kind.field? column = some f) :
    (decode kind row).get column = (cellAt kind row column).toValue f.kind := by
  obtain ⟨i, hi, hfi, -⟩ := RecordKind.index?_of_field? hf
  have hslot := slots_decode kind row i
  rw [hfi, Option.map_some] at hslot
  rw [Record.get, Record.slot?_eq (r := decode kind row) hi, hslot, cellAt_eq hi, slotOf]
  cases hv : (row[i]?.getD Cell.null).toValue f.kind with
  | null => rfl
  | _ => rfl

/-- The record of a row shows its columns. -/
theorem shows_decode (h : IsRow kind row) {f : Field} (hf : kind.field? column = some f) :
    (rowView kind row).Shows (decode kind row) f.kind column :=
  ⟨affinityOf_eq hf, suits_cellAt h hf, get_decode row hf⟩

/-- **Setting a cell sets the field of the record**, if the value can be read back. -/
theorem decode_set {i : Nat} {f : Field} {v : Value} (hi : kind.index? column = some i)
    (hf : kind.field? column = some f) (hlt : i < row.length) (hv : v ≠ .null)
    (hread : (cellFor f.kind v).toValue f.kind = v) :
    decode kind (row.set i (cellFor f.kind v)) = (decode kind row).put column v := by
  obtain ⟨j, hj, hfi, -⟩ := RecordKind.index?_of_field? hf
  obtain rfl : j = i := Option.some.inj (hj.symm.trans hi)
  obtain ⟨hk, hs⟩ := Record.put_eq (r := decode kind row) hi v
  -- Slot by slot: the one of the field has been set, and the others are read as before.
  refine Record.eq_of_slots hk.symm ?_
  intro m
  rw [hs, slots_decode]
  by_cases hm : j = m
  · subst hm
    have hslot : j < (decode kind row).slots.length := by
      rw [Record.length_slots]
      exact (List.getElem?_eq_some_iff.1 hfi).1
    rw [hfi, List.getElem?_set_self hlt, List.getElem?_set_self hslot, Option.map_some,
      Option.getD_some, slotOf, hread]
    cases v with
    | null => exact absurd rfl hv
    | _ => rfl
  · rw [List.getElem?_set_ne hm, List.getElem?_set_ne hm, slots_decode]

/-! ### Writing a record -/

theorem getElem?_encode {r : Record} {i : Nat} {f : Field} (hf : r.kind.fields[i]? = some f) :
    (encode r)[i]? = (r.slots[i]?).map fun slot => slot.map (cellFor f.kind) := by
  rw [encode, List.getElem?_zipWith, hf]
  cases r.slots[i]? <;> rfl

theorem length_encode (r : Record) : (encode r).length = r.kind.fields.length := by
  rw [encode, List.length_zipWith, r.length_slots, Nat.min_self]

/-- One cell of a row with a record put over it. -/
theorem getElem?_overlay {r : Record} (hl : row.length = r.kind.fields.length) {i : Nat} {f : Field}
    (hf : r.kind.fields[i]? = some f) :
    ∃ slot old, r.slots[i]? = some slot ∧ row[i]? = some old ∧
      (overlay (encode r) row)[i]? = some ((slot.map (cellFor f.kind)).getD old) := by
  have hlt : i < r.kind.fields.length := (List.getElem?_eq_some_iff.1 hf).1
  have hslots : i < r.slots.length := by rw [r.length_slots]; exact hlt
  have hrow : i < row.length := by rw [hl]; exact hlt
  refine ⟨_, _, List.getElem?_eq_getElem hslots, List.getElem?_eq_getElem hrow, ?_⟩
  rw [overlay, List.getElem?_zipWith, getElem?_encode hf, List.getElem?_eq_getElem hslots,
    List.getElem?_eq_getElem hrow]
  rfl

theorem length_overlay_encode {r : Record} (hl : row.length = r.kind.fields.length) :
    (overlay (encode r) row).length = r.kind.fields.length := by
  rw [length_overlay _ _ (by rw [length_encode, hl]), hl]

/-- **The columns of a row with a record put over it.** -/
theorem cellAt_overlay {r : Record} (hl : row.length = r.kind.fields.length) {f : Field}
    (hf : r.kind.field? column = some f) :
    cellAt r.kind (overlay (encode r) row) column =
      ((r.slot? column).map (cellFor f.kind)).getD (cellAt r.kind row column) := by
  obtain ⟨i, hi, hfi, -⟩ := RecordKind.index?_of_field? hf
  obtain ⟨slot, old, hslot, hold, hover⟩ := getElem?_overlay hl hfi
  rw [cellAt_eq hi, hover, Record.slot?_eq hi, hslot, cellAt_eq hi, hold]
  rfl

theorem suited_blank (kind : RecordKind) : Suited kind (blank kind) := by
  intro i f c _ hc
  rw [List.eq_of_mem_replicate (List.mem_of_getElem? hc)]
  exact .null _

/-- What a valid record puts over a row is held by the columns. -/
theorem suited_overlay {r : Record} (hr : r.IsValid) (hl : row.length = r.kind.fields.length)
    (hs : Suited r.kind row) : Suited r.kind (overlay (encode r) row) := by
  intro i f c hf hc
  obtain ⟨slot, old, hslot, hold, hover⟩ := getElem?_overlay hl hf
  rw [hover] at hc
  obtain rfl := Option.some.inj hc
  cases slot with
  | none => exact hs i f old hf hold
  | some v => exact Cell.suits_cellFor (hr i f v hf hslot)

theorem suited_set {i : Nat} {f : Field} {c : Cell} (hs : Suited kind row)
    (hf : kind.fields[i]? = some f) (hc : Cell.Suits f.kind c) : Suited kind (row.set i c) := by
  intro j g d hg hd
  by_cases hij : i = j
  · subst hij
    rw [hf] at hg
    obtain rfl := Option.some.inj hg
    rw [List.getElem?_set] at hd
    split at hd
    · split at hd
      · obtain rfl := Option.some.inj hd
        exact hc
      · cases hd
    · rename_i hne
      exact absurd rfl hne
  · rw [List.getElem?_set_ne hij] at hd
    exact hs j g d hg hd

/-! ### Keys and coach numbers -/

theorem field?_identity (kind : RecordKind) :
    kind.field? CoachLedger.identityField = some ⟨CoachLedger.identityField, .text⟩ := by
  cases kind <;> decide

theorem index?_keyField (kind : RecordKind) : kind.index? kind.keyField = some 0 := by
  cases kind <;> decide

theorem fields_pos (kind : RecordKind) : 0 < kind.fields.length := by
  cases kind <;> decide

/-- A valid record with an identity has a coach number that is not empty. -/
theorem get_identity {r : Record} (hr : r.IsValid) {t : String} (h : r.identity? = some t) :
    r.get CoachLedger.identityField = .text t ∧ t ≠ "" := by
  obtain ⟨ht, hne⟩ := Option.filter_eq_some_iff.1 h
  have hfits := Record.fits_get hr (field?_identity r.kind)
  refine ⟨?_, by simpa using hne⟩
  -- The identity is the text of the field, which holds nothing but a text.
  cases hv : r.get CoachLedger.identityField with
  | null =>
      rw [hv] at ht
      cases ht
  | text s =>
      rw [hv] at ht
      rw [Option.some.inj ht]
  | number x =>
      rw [hv] at hfits
      cases hfits _ rfl
  | date d =>
      rw [hv] at hfits
      cases hfits _ rfl
  | boolean b =>
      rw [hv] at hfits
      cases hfits _ rfl

theorem slot?_of_get {r : Record} {name : String} {v : Value} (h : r.get name = v)
    (hv : v ≠ .null) : r.slot? name = some v := by
  rw [Record.get] at h
  cases hs : r.slot? name with
  | none =>
      rw [hs] at h
      exact absurd h.symm hv
  | some w =>
      rw [hs] at h
      exact congrArg some h

/-- The number of the coach in a row that a record was put over. -/
theorem coachOf_overlay {r : Record} (hl : row.length = r.kind.fields.length) {t : String}
    (ht : r.get CoachLedger.identityField = .text t) :
    coachOf r.kind (overlay (encode r) row) = .text t := by
  rw [coachOf, cellAt_overlay hl (field?_identity r.kind), slot?_of_get ht (by simp)]
  rfl

theorem withKey_eq (kind : RecordKind) (key : Cell) (row : Cells) :
    withKey kind key row = row.set 0 key := by
  rw [withKey, index?_keyField]

theorem keyOf_withKey {key : Cell} (hl : row.length = kind.fields.length) :
    keyOf kind (withKey kind key row) = key := by
  rw [keyOf, withKey_eq]
  exact cellAt_set_self (index?_keyField kind) (by rw [hl]; exact fields_pos kind) key

/-- The row that is left when a record is written over a row under a key. -/
def writeRow (r : Record) (key : Cell) (row : Cells) : Cells :=
  withKey r.kind key (overlay (encode r) row)

/-- The key is one that the record may be written under: its coach number, or an integer. -/
def IsKeyFor (r : Record) (key : Cell) : Prop :=
  match r.kind with
  | .master => ∃ t, r.get CoachLedger.identityField = .text t ∧ key = .text t
  | .history => ∃ i, key = .integer i

theorem length_writeRow {r : Record} (key : Cell) (hl : row.length = r.kind.fields.length) :
    (writeRow r key row).length = r.kind.fields.length := by
  rw [writeRow, withKey_eq, List.length_set, length_overlay_encode hl]

theorem keyOf_writeRow {r : Record} (key : Cell) (hl : row.length = r.kind.fields.length) :
    keyOf r.kind (writeRow r key row) = key :=
  keyOf_withKey (length_overlay_encode hl)

theorem suits_key {r : Record} {key : Cell} (h : IsKeyFor r key) :
    ∃ f, r.kind.fields[0]? = some f ∧ Cell.Suits f.kind key := by
  unfold IsKeyFor at h
  split at h
  · rename_i hk
    obtain ⟨t, -, rfl⟩ := h
    exact ⟨_, by rw [hk]; rfl, .text t⟩
  · rename_i hk
    obtain ⟨i, rfl⟩ := h
    exact ⟨_, by rw [hk]; rfl, .integer i⟩

theorem coachOf_writeRow {r : Record} {key : Cell} (h : IsKeyFor r key)
    (hl : row.length = r.kind.fields.length) {t : String}
    (ht : r.get CoachLedger.identityField = .text t) :
    coachOf r.kind (writeRow r key row) = .text t := by
  unfold IsKeyFor at h
  split at h
  · rename_i hk
    obtain ⟨u, hu, rfl⟩ := h
    have hkey := keyOf_writeRow (.text u) hl
    rw [ht] at hu
    obtain rfl : t = u := by simpa using hu
    have hsame : r.kind.keyField = CoachLedger.identityField := by rw [hk]; rfl
    rw [keyOf, hsame] at hkey
    exact hkey
  · rename_i hk
    have hne : CoachLedger.identityField ≠ r.kind.keyField := by
      rw [hk]
      decide
    rw [coachOf, writeRow, withKey_eq, cellAt_set_of_ne (index?_keyField r.kind) hne]
    exact coachOf_overlay hl ht

/-- **A valid record that is written over a row leaves a row.** -/
theorem isRow_writeRow {r : Record} (hr : r.IsValid) {key : Cell} (h : IsKeyFor r key)
    (hl : row.length = r.kind.fields.length) (hs : Suited r.kind row) {t : String}
    (ht : r.identity? = some t) : IsRow r.kind (writeRow r key row) := by
  obtain ⟨hget, hne⟩ := get_identity hr ht
  obtain ⟨f, hf, hkey⟩ := suits_key h
  refine ⟨length_writeRow key hl, ?_, t, coachOf_writeRow h hl hget, hne⟩
  rw [writeRow, withKey_eq]
  exact suited_set (suited_overlay hr hl hs) hf hkey

end CoachLedger.Store
