/-
**The master record of a coach.**

A coach has at most one master record.  The records stand in the order of the coach numbers, and so
do the records of any coaches that are read.

Main definitions:

* `CoachLedger.Store.masterOf?` — the master record of a coach;
* `CoachLedger.Store.fieldOf` — the value of a field in it.

Main results:

* `CoachLedger.Store.masterOf?_eq_some` — there is only one;
* `CoachLedger.Store.ascending_identities` — **the coaches stand in ascending order**.
-/

import CoachLedger.Proofs.Audit.Records
import CoachLedger.Proofs.Store.Selection

set_option autoImplicit false

namespace CoachLedger.Store

variable {kind : RecordKind} {s : Store} {r : Record} {coach : String}

/-! ### Records of a store -/

/-- Every record of a store is of its kind and has a coach number. -/
theorem exists_get_identity (hs : IsSound s) (h : r ∈ s.records kind) :
    ∃ t, r.get CoachLedger.identityField = .text t ∧ r.identity? = some t ∧ r.kind = kind := by
  obtain ⟨row, hrow, rfl⟩ := List.mem_map.1 h
  obtain ⟨t, ht, hid⟩ := exists_identity?_decode (hs.rows kind row hrow)
  exact ⟨t, get_identity_decode ht, hid, rfl⟩

theorem hasCoach_of_mem_records (hs : IsSound s) (h : r ∈ s.records kind) :
    r.kind = kind ∧ r.HasCoach := by
  obtain ⟨t, ht, -, hk⟩ := exists_get_identity hs h
  exact ⟨hk, t, ht⟩

theorem get_identity_of_identity? (hs : IsSound s) (h : r ∈ s.records kind)
    (hid : r.identity? = some coach) : r.get CoachLedger.identityField = .text coach := by
  obtain ⟨t, ht, hid', -⟩ := exists_get_identity hs h
  rw [ht, Option.some.inj (hid'.symm.trans hid)]

/-- A field of a record of a store has a value of its kind. -/
theorem fits_of_mem_records (hs : IsSound s) (h : r ∈ s.records kind) {name : String} {f : Field}
    (hf : kind.field? name = some f) : (r.get name).Fits f.kind := by
  obtain ⟨row, hrow, rfl⟩ := List.mem_map.1 h
  have hsuits := suits_cellAt (hs.rows kind row hrow) hf
  intro found hfound
  rw [get_decode row hf] at hfound
  by_cases hn : cellAt kind row name = .null
  · rw [hn, Sql.Cell.toValue_null] at hfound
    cases hfound
  · rw [Sql.Cell.kind?_toValue hsuits hn] at hfound
    exact (Option.some.inj hfound).symm

/-- No field of a record of a store is set to null. -/
theorem slot?_ne_null (h : r ∈ s.records kind) (name : String) : r.slot? name ≠ some .null := by
  obtain ⟨row, -, rfl⟩ := List.mem_map.1 h
  intro hslot
  obtain ⟨i, -, hi⟩ := Option.bind_eq_some_iff.1 (Option.join_eq_some_iff.1 hslot)
  rw [slots_decode, Option.map_eq_some_iff] at hi
  obtain ⟨f, -, hf⟩ := hi
  unfold slotOf at hf
  dsimp only at hf
  split at hf
  · cases hf
  · rename_i hnull
    rw [Option.some.inj hf] at hnull
    exact hnull rfl

/-! ### The record of a coach -/

/-- The master record of a coach. -/
def masterOf? (s : Store) (coach : String) : Option Record :=
  (s.records .master).find? fun r => r.identity? == some coach

/-- The value of a field in the master record of a coach, null if there is no record. -/
def fieldOf (s : Store) (coach field : String) : Value :=
  ((s.masterOf? coach).map fun r => r.get field).getD .null

/-- There is only one master record of a coach. -/
theorem masterOf?_eq_some (hs : IsSound s) :
    s.masterOf? coach = some r ↔ r ∈ s.records .master ∧ r.identity? = some coach := by
  constructor
  · intro h
    exact ⟨List.mem_of_find?_eq_some h, by simpa using List.find?_some h⟩
  · rintro ⟨hr, hid⟩
    cases hfind : s.masterOf? coach with
    | none =>
        have := List.find?_eq_none.1 hfind r hr
        rw [hid] at this
        exact absurd (beq_self_eq_true _) this
    | some r' =>
        have hid' : r'.identity? = some coach := by simpa using List.find?_some hfind
        rw [eq_of_identity?_eq hs (List.mem_of_find?_eq_some hfind) hr (hid'.trans hid.symm)]

theorem knows_iff_masterOf? : s.knows coach = true ↔ (s.masterOf? coach).isSome = true := by
  rw [masterOf?, List.find?_isSome, knows_iff]
  simp only [beq_iff_eq]

theorem fieldOf_eq (hs : IsSound s) (hr : r ∈ s.records .master) (hid : r.identity? = some coach)
    (field : String) : s.fieldOf coach field = r.get field := by
  rw [fieldOf, (masterOf?_eq_some hs).2 ⟨hr, hid⟩]
  rfl

/-- The value of a field has the kind of the field, whether there is a record or not. -/
theorem fits_fieldOf (hs : IsSound s) {field : String} {f : Field}
    (hf : RecordKind.master.field? field = some f) (coach : String) :
    (s.fieldOf coach field).Fits f.kind := by
  rw [fieldOf]
  cases h : s.masterOf? coach with
  | none => exact fun found hfound => by cases hfound
  | some r => exact fits_of_mem_records hs ((masterOf?_eq_some hs).1 h).1 hf

/-! ### The order of the coaches -/

/-- **The coaches of the master records stand in ascending order.** -/
theorem ascending_identities (hs : IsSound s) :
    ((s.records .master).filterMap Record.identity?).Pairwise (· < ·) := by
  rw [List.pairwise_filterMap, records, List.pairwise_map]
  refine (hs.table .master).sorted.imp_of_mem fun {a b} ha hb hab t ht u hu => ?_
  obtain ⟨t', htext, hid⟩ := exists_identity?_decode (hs.rows .master a ha)
  obtain ⟨u', hutext, hid'⟩ := exists_identity?_decode (hs.rows .master b hb)
  rw [KeyLT, keyOf_master, keyOf_master, htext, hutext, Sql.Cell.compare_text_text,
    Option.some.injEq, Text.order_eq_lt] at hab
  rwa [← Option.some.inj (hid.symm.trans ht), ← Option.some.inj (hid'.symm.trans hu)]

/-- So do the coaches of the records that are read. -/
theorem ascending_identities_get (hs : IsSound s) {coaches : List String} (hd : coaches.Nodup) :
    ((s.get .master coaches).filterMap Record.identity?).Pairwise (· < ·) := by
  rw [get_master hs hd]
  exact (ascending_identities hs).sublist (List.filter_sublist.filterMap _)

theorem mem_records_of_get (hs : IsSound s) {coaches : List String} (hd : coaches.Nodup)
    (h : r ∈ s.get kind coaches) : r ∈ s.records kind :=
  List.mem_of_mem_filter ((perm_get (hs.rows kind) hd).subset h)

end CoachLedger.Store
