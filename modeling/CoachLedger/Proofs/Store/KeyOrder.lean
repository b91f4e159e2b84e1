/-
**Sorting records by their keys.**

Records of a kind are sorted by comparing the values of their key field, two records without an
order counting as equal.  That is a total order of the records whose keys have a place in the order
of values, so that sorting them is well defined.  All records of a store are of this sort; a record
without a key would be equal to every other one.

Main definitions:

* `CoachLedger.Store.byKey` — how two records compare by their keys;
* `CoachLedger.Store.IsKeyed` — a record whose key has a place in the order.

Main results:

* `CoachLedger.Store.orders_byKey` — the keys order the records;
* `CoachLedger.Store.pairwise_sorted` — **sorting by the keys puts the records in order**;
* `CoachLedger.Store.isKeyed_of_mem_records` — the records of a store have keys;
* `CoachLedger.Store.compare_isCoherent` — **comparing values and records is coherent**.
-/

import CoachLedger.Proofs.Store.Paging
import CoachLedger.Proofs.Value.Order

set_option autoImplicit false

namespace CoachLedger.Store

variable {kind : RecordKind} {s : Store} {a b c : Record} {records : List Record}

/-! ### Comparing records -/

/-- How two records of a kind compare by their keys; without an order they count as equal. -/
def byKey (kind : RecordKind) (a b : Record) : Ordering :=
  ((a.get kind.keyField).compare (b.get kind.keyField)).getD .eq

theorem keyLE_eq (kind : RecordKind) (a b : Record) : keyLE kind a b = (byKey kind a b).isLE := by
  unfold keyLE byKey
  cases (a.get kind.keyField).compare (b.get kind.keyField) <;> rfl

/-- The kind of the key field. -/
def keyKind : RecordKind → Kind
  | .master => .text
  | .history => .number

theorem field?_keyField (kind : RecordKind) :
    kind.field? kind.keyField = some ⟨kind.keyField, keyKind kind⟩ := by
  cases kind <;> decide

/-- The key of the record has a place in the order of its kind. -/
def IsKeyed (kind : RecordKind) (r : Record) : Prop :=
  (r.get kind.keyField).IsOrdered (keyKind kind)

/-- The keys of the records are equal, the signs of zeros apart. -/
def HaveSameKey (kind : RecordKind) (a b : Record) : Prop :=
  (a.get kind.keyField).IsSame (b.get kind.keyField)

theorem compare_keyFields (ha : IsKeyed kind a) (hb : IsKeyed kind b) :
    (a.get kind.keyField).compare (b.get kind.keyField) = some (byKey kind a b) := by
  obtain ⟨o, ho⟩ := (Value.orders_compare (keyKind kind)).compares ha hb
  rw [byKey, ho]
  rfl

/-- **The keys order the records.** -/
theorem orders_byKey (kind : RecordKind) :
    Orders (fun a b => some (byKey kind a b)) (IsKeyed kind) (HaveSameKey kind) := by
  have h := (Value.orders_compare (keyKind kind)).comap fun r : Record => r.get kind.keyField
  refine ⟨fun _ _ => ⟨_, rfl⟩, fun ha hb => ?_, fun ha hb => ?_, fun ha hb hc hab ho hbc ho' => ?_⟩
  · have hswap := h.swaps ha hb
    rwa [compare_keyFields ha hb, compare_keyFields hb ha] at hswap
  · rw [← compare_keyFields ha hb]
    exact h.eq_iff ha hb
  · rw [← compare_keyFields ha hb] at hab
    rw [← compare_keyFields hb hc] at hbc
    rw [← compare_keyFields ha hc]
    exact h.trans ha hb hc hab ho hbc ho'

theorem byKey_swap (ha : IsKeyed kind a) (hb : IsKeyed kind b) :
    byKey kind b a = (byKey kind a b).swap :=
  Option.some.inj ((orders_byKey kind).swaps ha hb)

theorem keyLE_trans (ha : IsKeyed kind a) (hb : IsKeyed kind b) (hc : IsKeyed kind c)
    (hab : keyLE kind a b = true) (hbc : keyLE kind b c = true) : keyLE kind a c = true := by
  rw [keyLE_eq] at hab hbc ⊢
  obtain ⟨o, ho, hle⟩ := (orders_byKey kind).trans ha hb hc rfl hab rfl hbc
  rwa [Option.some.inj ho]

theorem keyLE_total (ha : IsKeyed kind a) (hb : IsKeyed kind b) :
    (keyLE kind a b || keyLE kind b a) = true := by
  rw [keyLE_eq, keyLE_eq, byKey_swap ha hb]
  cases byKey kind a b <;> rfl

/-! ### Sorting records -/

/-- **Sorting by the keys puts the records in order.** -/
theorem pairwise_sorted (h : ∀ r ∈ records, IsKeyed kind r) :
    (records.mergeSort (keyLE kind)).Pairwise fun a b => (byKey kind a b).isLE = true := by
  -- The library sorts by orders of a whole type, which here is that of the records in the list.
  have hval : (records.attach.mergeSort fun a b => keyLE kind a.1 b.1).map Subtype.val =
      records.mergeSort (keyLE kind) := by
    rw [List.map_mergeSort (s := keyLE kind) fun _ _ _ _ => rfl, List.attach_map_subtype_val]
  rw [← hval, List.pairwise_map]
  refine (List.pairwise_mergeSort (fun a b c => ?_) (fun a b => ?_) _).imp fun {a b} hab => ?_
  · exact keyLE_trans (h a.1 a.2) (h b.1 b.2) (h c.1 c.2)
  · exact keyLE_total (h a.1 a.2) (h b.1 b.2)
  · rwa [← keyLE_eq]

/-! ### The records of a store -/

/-- The records of a store have keys. -/
theorem isKeyed_of_mem_records (hs : IsSound s) (h : a ∈ s.records kind) : IsKeyed kind a := by
  obtain ⟨row, hrow, rfl⟩ := List.mem_map.1 h
  unfold IsKeyed
  cases kind with
  | master =>
      obtain ⟨coach, -, hkey⟩ := get_keyField_master hs hrow
      rw [hkey]
      exact .text coach
  | history =>
      rw [get_keyField_history hs hrow]
      refine .number fun h => ?_
      have hkey := Binary64.key_ofInt_eq (numberOf row)
      rw [h] at hkey
      cases hkey

theorem mem_records_of_mem_get {coaches : List String} (h : a ∈ s.get kind coaches) :
    a ∈ s.records kind := by
  rw [get_eq_map] at h
  obtain ⟨row, hrow, rfl⟩ := List.mem_map.1 h
  exact List.mem_map_of_mem (mem_rowsGot.1 hrow).1

/-- What is read from a store comes in the order of the keys. -/
theorem pairwise_byKey_get (hs : IsSound s) (coaches : List String) :
    (s.get kind coaches).Pairwise fun a b => (byKey kind a b).isLE = true := by
  refine pairwise_sorted fun r hr => ?_
  have hget : r ∈ s.get kind coaches := List.mem_mergeSort.2 hr
  exact isKeyed_of_mem_records hs (mem_records_of_mem_get hget)

/-- **Comparing values and records is coherent.**  Two values compare in both directions, with
reverse answers, or in none; equality is symmetric, is unknown exactly if one of them is null, and
agrees with the order where there is one.  The values of a kind, without not-a-number, are in a
total order, and so are the records of a kind with keys, which sorting puts in order; the records
that are read from a store have keys and come in this order. -/
theorem compare_isCoherent :
    (∀ a b : Value, b.compare a = (a.compare b).map Ordering.swap ∧ b.exactEq a = a.exactEq b ∧
      (a.exactEq b = none ↔ a = .null ∨ b = .null) ∧
      ∀ o, a.compare b = some o → a.exactEq b = some (o == .eq)) ∧
    (∀ k, Orders Value.compare (Value.IsOrdered k) Value.IsSame) ∧
    (∀ k v, Value.IsOrdered k v ↔ v.kind? = some k ∧ v ≠ .number .nan) ∧
    ∀ kind, kind.field? kind.keyField = some ⟨kind.keyField, keyKind kind⟩ ∧
      Orders (fun a b => some (byKey kind a b)) (IsKeyed kind) (HaveSameKey kind) ∧
      (∀ records : List Record, (∀ r ∈ records, IsKeyed kind r) →
        (records.mergeSort (keyLE kind)).Pairwise fun a b => (byKey kind a b).isLE = true) ∧
      ∀ s : Store, s.Reachable → ∀ coaches, (∀ r ∈ s.get kind coaches, IsKeyed kind r) ∧
        (s.get kind coaches).Pairwise fun a b => (byKey kind a b).isLE = true := by
  refine ⟨fun a b => ⟨?_, ?_, Value.exactEq_eq_none_iff, fun o => Value.exactEq_of_compare⟩,
    Value.orders_compare, fun k v => Value.isOrdered_iff,
    fun kind => ⟨field?_keyField kind, orders_byKey kind, ?_, ?_⟩⟩
  · exact (Value.compare_swap a b).symm
  · exact Value.exactEq_comm b a
  · intro records h
    exact pairwise_sorted h
  · intro s hs coaches
    have hsound := isSound_of_reachable hs
    refine ⟨fun r hr => ?_, pairwise_byKey_get hsound coaches⟩
    exact isKeyed_of_mem_records hsound (mem_records_of_mem_get hr)

/-- A text that is read as a number, and two coaches that are put in against their order. -/
theorem compare_isCoherent_twoCoaches :
    (Value.number (.ofInt 7)).compare (.text " 7.0 ") = some .eq ∧
      (Value.text " 7.0 ").compare (.number (.ofInt 7)) = some .eq ∧
      (Value.number (.ofInt 7)).exactEq (.text " 7.0 ") = some true ∧
      (∀ r ∈ twoCoaches, IsKeyed .master r) ∧
      (twoCoaches.mergeSort (keyLE .master)).Pairwise
        (fun a b => (byKey .master a b).isLE = true) ∧
      ((filled twoCoaches).get .master ["C1", "C2"]).Pairwise
        fun a b => (byKey .master a b).isLE = true := by
  obtain ⟨hvalues, -, -, hrecords⟩ := compare_isCoherent
  obtain ⟨-, -, hsorted, hget⟩ := hrecords .master
  have hcompare : (Value.number (.ofInt 7)).compare (.text " 7.0 ") = some .eq := by
    decide +kernel
  obtain ⟨hswap, -, -, hequal⟩ := hvalues (.number (.ofInt 7)) (.text " 7.0 ")
  have hkeyed : ∀ r ∈ twoCoaches, IsKeyed .master r := by
    intro r hr
    simp only [twoCoaches, List.mem_cons, List.not_mem_nil, or_false] at hr
    rcases hr with rfl | rfl
    · exact .text "C2"
    · exact .text "C1"
  have hreachable : (filled twoCoaches).Reachable := by
    refine reachable_filled ?_ (by decide)
    simp [twoCoaches, isValid_coachRecord]
  rw [hcompare] at hswap
  exact ⟨hcompare, hswap, hequal _ hcompare, hkeyed, hsorted _ hkeyed,
    (hget _ hreachable _).2⟩

end CoachLedger.Store
