/-
**The fields of records.**

A field stands at one place of the table of its kind, and a value is found again where it was put.
The values of a record that was made by setting fields, or read from JSON, all have the kinds of
their fields.

Main definitions:

* `CoachLedger.Record.IsFinite` — all numbers are finite.

Main results:

* `CoachLedger.Record.slot?_put_self`, `CoachLedger.Record.slot?_put_of_ne` — what is put into a
  field is found there, and nowhere else;
* `CoachLedger.Record.check_eq_ok_iff` — which values pass the check;
* `CoachLedger.Record.isValid_set`, `CoachLedger.Record.isValid_ofJson` — **records are valid**.
-/

import CoachLedger.Record.Basic

set_option autoImplicit false

namespace CoachLedger

namespace RecordKind

/-! ### Places of fields -/

theorem field?_eq (kind : RecordKind) (name : String) :
    kind.field? name = (kind.index? name).bind fun i => kind.fields[i]? :=
  List.find?_eq_bind_findIdx?_getElem?

/-- A field that is found by its name stands at the place of the name. -/
theorem index?_of_field? {kind : RecordKind} {name : String} {f : Field}
    (h : kind.field? name = some f) :
    ∃ i, kind.index? name = some i ∧ kind.fields[i]? = some f ∧ f.name = name := by
  have hname : f.name = name := by simpa using List.find?_some h
  rw [field?_eq] at h
  obtain ⟨i, hi, hf⟩ := Option.bind_eq_some_iff.1 h
  exact ⟨i, hi, hf, hname⟩

/-- A name by which a field is found is one of the kind. -/
theorem has_of_field? {kind : RecordKind} {name : String} {f : Field}
    (h : kind.field? name = some f) : kind.has name = true := by
  rw [has, h]
  rfl

/-- The place of a name is that of a field with this name. -/
theorem fields_of_index? {kind : RecordKind} {name : String} {i : Nat}
    (h : kind.index? name = some i) :
    ∃ f, kind.fields[i]? = some f ∧ f.name = name ∧ kind.field? name = some f := by
  obtain ⟨hlt, hp, -⟩ := List.findIdx?_eq_some_iff_getElem.1 h
  have hf : kind.fields[i]? = some kind.fields[i] := List.getElem?_eq_getElem hlt
  refine ⟨kind.fields[i], hf, by simpa using hp, ?_⟩
  rw [field?_eq, h]
  exact hf

/-- Different names have different places. -/
theorem index?_ne {kind : RecordKind} {name other : String} {i j : Nat}
    (hi : kind.index? name = some i) (hj : kind.index? other = some j) (h : name ≠ other) :
    i ≠ j := by
  rintro rfl
  obtain ⟨f, hf, hfn, -⟩ := fields_of_index? hi
  obtain ⟨g, hg, hgn, -⟩ := fields_of_index? hj
  rw [hf] at hg
  obtain rfl := Option.some.inj hg
  exact h (hfn.symm.trans hgn)

end RecordKind

namespace Record

/-- Records of one kind are equal if all their slots are. -/
theorem eq_of_slots {r s : Record} (hk : r.kind = s.kind)
    (hs : ∀ i : Nat, r.slots[i]? = s.slots[i]?) : r = s := by
  obtain ⟨k, slots, h⟩ := r
  obtain ⟨k', slots', h'⟩ := s
  dsimp only at hk hs
  obtain rfl := hk
  obtain rfl : slots = slots' := List.ext_getElem? hs
  rfl

/-! ### Reading and writing one field -/

theorem slot?_eq {r : Record} {name : String} {i : Nat} (h : r.kind.index? name = some i) :
    r.slot? name = (r.slots[i]?).join := by
  rw [slot?, h]
  rfl

theorem slot?_empty (kind : RecordKind) (name : String) : (empty kind).slot? name = none := by
  cases hi : kind.index? name with
  | none =>
      have hk : (empty kind).kind.index? name = none := hi
      rw [slot?, hk]
      rfl
  | some i =>
      rw [slot?_eq (r := empty kind) hi, empty, List.getElem?_replicate]
      split <;> rfl

theorem put_eq {r : Record} {name : String} {i : Nat} (h : r.kind.index? name = some i)
    (v : Value) :
    (r.put name v).kind = r.kind ∧ (r.put name v).slots = r.slots.set i (some v) := by
  unfold put
  split
  · rename_i j hj
    rw [h] at hj
    obtain rfl := Option.some.inj hj
    exact ⟨rfl, rfl⟩
  · rename_i hn
    rw [h] at hn
    cases hn

theorem kind_put (r : Record) (name : String) (v : Value) : (r.put name v).kind = r.kind := by
  unfold put
  split <;> rfl

theorem put_of_not_index? {r : Record} {name : String} (h : r.kind.index? name = none)
    (v : Value) : r.put name v = r := by
  unfold put
  split
  · rename_i j hj
    rw [h] at hj
    cases hj
  · rfl

/-- The slot of a field holds what was put into it. -/
theorem slot?_put_self {r : Record} {name : String} (h : r.kind.has name = true) (v : Value) :
    (r.put name v).slot? name = some v := by
  obtain ⟨f, hf⟩ := Option.isSome_iff_exists.1 h
  -- A record has a slot for each field of its kind.
  obtain ⟨i, hi, hfi, -⟩ := RecordKind.index?_of_field? hf
  have hlt : i < r.slots.length := by
    rw [r.length_slots]
    exact (List.getElem?_eq_some_iff.1 hfi).1
  obtain ⟨hk, hs⟩ := put_eq hi v
  rw [slot?_eq (i := i) (by rw [hk]; exact hi), hs, List.getElem?_set_self hlt]
  rfl

/-- The other slots keep what they hold. -/
theorem slot?_put_of_ne (r : Record) {name other : String} (h : other ≠ name) (v : Value) :
    (r.put name v).slot? other = r.slot? other := by
  cases hi : r.kind.index? name with
  | none => rw [put_of_not_index? hi]
  | some i =>
      obtain ⟨hk, hs⟩ := put_eq hi v
      cases hj : r.kind.index? other with
      | none => simp [slot?, hk, hj]
      | some j =>
          have hne : i ≠ j := RecordKind.index?_ne hi hj h.symm
          rw [slot?_eq (i := j) (by rw [hk]; exact hj), slot?_eq hj, hs, List.getElem?_set_ne hne]

/-- A value is found in the field that it was put into. -/
theorem get_put_self {r : Record} {name : String} (h : r.kind.has name = true) (v : Value) :
    (r.put name v).get name = v := by
  rw [get, slot?_put_self h]
  rfl

/-- The other fields keep their values. -/
theorem get_put_of_ne (r : Record) {name other : String} (h : other ≠ name) (v : Value) :
    (r.put name v).get other = r.get other := by
  rw [get, get, slot?_put_of_ne r h]

/-! ### Valid records -/

theorem isValid_empty (kind : RecordKind) : (empty kind).IsValid := by
  intro i f v _ hv
  have := List.eq_of_mem_replicate (List.mem_of_getElem? hv)
  cases this

theorem isValid_put {r : Record} (hr : r.IsValid) {name : String} {f : Field} {v : Value}
    (hf : r.kind.field? name = some f) (hv : v.Fits f.kind) : (r.put name v).IsValid := by
  obtain ⟨i, hi, hfi, -⟩ := RecordKind.index?_of_field? hf
  obtain ⟨hk, hs⟩ := put_eq hi v
  intro j g w hg hw
  rw [hk] at hg
  rw [hs] at hw
  by_cases hij : i = j
  · subst hij
    rw [hfi] at hg
    obtain rfl := Option.some.inj hg
    rw [List.getElem?_set] at hw
    split at hw
    · split at hw
      · obtain rfl := Option.some.inj (Option.some.inj hw)
        exact hv
      · cases hw
    · rename_i hne
      exact absurd rfl hne
  · rw [List.getElem?_set_ne hij] at hw
    exact hr j g w hg hw

/-- The check succeeds for the values that fit the field. -/
theorem check_eq_ok_iff {kind : RecordKind} {name : String} {v : Value} :
    check kind name v = .ok () ↔ ∃ f, kind.field? name = some f ∧ v.Fits f.kind := by
  unfold check
  cases hf : kind.field? name with
  | none => simp
  | some f =>
      cases hv : v.kind? with
      | none => simp [Value.Fits, hv]
      | some found => simp [Value.Fits, hv]

/-- A value that passes the check is put into its field. -/
theorem set_eq_ok_iff {r s : Record} {name : String} {v : Value} :
    r.set name v = .ok s ↔ check r.kind name v = .ok () ∧ r.put name v = s := by
  unfold set
  cases check r.kind name v with
  | ok => simp
  | error e => simp

/-- **Setting a field keeps a record valid.** -/
theorem isValid_set {r s : Record} (hr : r.IsValid) {name : String} {v : Value}
    (h : r.set name v = .ok s) : s.IsValid := by
  obtain ⟨hcheck, rfl⟩ := set_eq_ok_iff.1 h
  obtain ⟨f, hf, hv⟩ := check_eq_ok_iff.1 hcheck
  exact isValid_put hr hf hv

theorem isValid_assignMembers {r s : Record} (hr : r.IsValid) {members : List (String × Json)}
    (h : r.assignMembers members = .ok s) : s.IsValid := by
  induction members generalizing r with
  | nil =>
      obtain rfl := Except.ok.inj h
      exact hr
  | cons m rest ih =>
      obtain ⟨name, j⟩ := m
      rw [assignMembers] at h
      split at h
      · cases h
      · rename_i f hf
        split at h
        · cases h
        · rename_i v hv
          exact ih (isValid_put hr hf (Value.kind?_of_ofJson? hv)) h

theorem kind_assignMembers {r s : Record} {members : List (String × Json)}
    (h : r.assignMembers members = .ok s) : s.kind = r.kind := by
  induction members generalizing r with
  | nil =>
      obtain rfl := Except.ok.inj h
      rfl
  | cons m rest ih =>
      obtain ⟨name, j⟩ := m
      rw [assignMembers] at h
      split at h
      · cases h
      · split at h
        · cases h
        · rw [ih h, kind_put]

/-- A record is read from the members of an object that give it a coach number. -/
theorem ofJson_eq_ok {kind : RecordKind} {j : Json} {r : Record} (h : ofJson kind j = .ok r) :
    ∃ members, j = .object members ∧ (empty kind).assignMembers members = .ok r ∧
      r.identity?.isSome = true := by
  unfold ofJson at h
  split at h
  · rename_i members
    split at h
    · cases h
    · rename_i s hs
      split at h
      · cases h
      · rename_i hid
        obtain rfl := Except.ok.inj h
        exact ⟨members, rfl, hs, Option.isSome_iff_ne_none.2 (by simpa using hid)⟩
  · cases h

/-- **A record that is read from JSON is valid.** -/
theorem isValid_ofJson {kind : RecordKind} {j : Json} {r : Record} (h : ofJson kind j = .ok r) :
    r.IsValid := by
  obtain ⟨members, -, hr, -⟩ := ofJson_eq_ok h
  exact isValid_assignMembers (isValid_empty kind) hr

theorem kind_ofJson {kind : RecordKind} {j : Json} {r : Record} (h : ofJson kind j = .ok r) :
    r.kind = kind := by
  obtain ⟨members, -, hr, -⟩ := ofJson_eq_ok h
  exact kind_assignMembers hr

/-- The value of a field of a valid record has the kind of the field. -/
theorem fits_get {r : Record} (hr : r.IsValid) {name : String} {f : Field}
    (hf : r.kind.field? name = some f) : (r.get name).Fits f.kind := by
  obtain ⟨i, hi, hfi, -⟩ := RecordKind.index?_of_field? hf
  intro found hfound
  rw [get, slot?_eq hi] at hfound
  cases hs : (r.slots[i]?).join with
  | none =>
      rw [hs] at hfound
      cases hfound
  | some v =>
      rw [hs] at hfound
      exact hr i f v hfi (Option.join_eq_some_iff.1 hs) found hfound

/-- A field of a valid record that is not null holds a value of its kind. -/
theorem kind?_get {r : Record} (hr : r.IsValid) {name : String} {k : Kind}
    (hf : (r.kind.field? name).map Field.kind = some k) (hv : r.get name ≠ .null) :
    (r.get name).kind? = some k := by
  obtain ⟨f, hfield, rfl⟩ := Option.map_eq_some_iff.1 hf
  have hfits := fits_get hr hfield
  cases hget : r.get name with
  | null => exact absurd hget hv
  | _ =>
      rw [hget] at hfits
      exact congrArg some (hfits _ rfl)

/-- The value in the slot of a valid record has the kind of the field. -/
theorem fits_slot? {r : Record} (hr : r.IsValid) {name : String} {f : Field}
    (hf : r.kind.field? name = some f) {v : Value} (hv : r.slot? name = some v) :
    v.Fits f.kind := by
  have hget : r.get name = v := by rw [get, hv]; rfl
  exact hget ▸ fits_get hr hf

theorem slot?_eq_none {r : Record} {name : String} (h : r.kind.field? name = none) :
    r.slot? name = none := by
  cases hi : r.kind.index? name with
  | none =>
      rw [slot?, hi]
      rfl
  | some i =>
      obtain ⟨f, -, -, hf⟩ := RecordKind.fields_of_index? hi
      rw [h] at hf
      cases hf

/-- Only a field holds a value. -/
theorem field?_of_slot? {r : Record} {name : String} {v : Value} (h : r.slot? name = some v) :
    ∃ f, r.kind.field? name = some f := by
  refine Option.ne_none_iff_exists'.1 fun hnone => ?_
  rw [slot?_eq_none hnone] at h
  cases h

/-! ### Finite numbers -/

/-- All numbers of the record are finite. -/
def IsFinite (r : Record) : Prop :=
  ∀ name x, r.get name = .number x → x.isFinite = true

theorem isFinite_empty (kind : RecordKind) : (empty kind).IsFinite := by
  intro name x h
  rw [get, slot?_empty] at h
  cases h

theorem isFinite_put {r : Record} (hx : r.IsFinite) {name : String} (hhas : r.kind.has name = true)
    {v : Value} (hv : ∀ x, v = .number x → x.isFinite = true) : (r.put name v).IsFinite := by
  intro other x hother
  by_cases hname : other = name
  · rw [hname, get_put_self hhas] at hother
    exact hv x hother
  · rw [get_put_of_ne r hname] at hother
    exact hx other x hother

theorem ne_nan_of_isFinite {r : Record} (h : r.IsFinite) {name : String} {v : Value}
    (hv : r.slot? name = some v) : v ≠ .number .nan := by
  rintro rfl
  have := h name .nan (by rw [get, hv]; rfl)
  cases this

theorem get_ne_nan {r : Record} (h : r.IsFinite) (name : String) : r.get name ≠ .number .nan := by
  intro hn
  cases h name .nan hn

end Record

end CoachLedger
