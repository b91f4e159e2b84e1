/-
**Records as JSON objects.**

The JSON object of a record has one member for each field that is set, in the order of the table,
and a field that was not set counts as null, as a missing member does.  So two records are compared
field by field, and their change shows the fields whose JSON values differ.

Main definitions:

* `CoachLedger.Record.members` — the members of the JSON object;
* `CoachLedger.Record.changedFields` — the fields whose JSON values differ.

Main results:

* `CoachLedger.Record.entries_eq` — the fields that are set, name by name;
* `CoachLedger.Record.names_members` — **the members are those of the fields that are set**;
* `CoachLedger.Record.valueOf_members` — the value of a member is that of the field;
* `CoachLedger.Record.mem_changedFields` — **the fields that differ**;
* `CoachLedger.Record.change?_toJson` — **the change between two records**.
-/

import CoachLedger.Proofs.Audit.Parallel
import CoachLedger.Proofs.Json.Faithful
import CoachLedger.Proofs.Record.Fields

set_option autoImplicit false

namespace CoachLedger

/-! ### Names of fields -/

namespace RecordKind

/-- A name that is in the table has the place where it stands. -/
theorem index?_names (kind : RecordKind) {i : Nat} (h : i < kind.fields.length) :
    kind.index? kind.fields[i].name = some i := by
  refine List.findIdx?_eq_some_iff_getElem.2 ⟨h, by simp, ?_⟩
  intro j hj
  have hnodup := kind.names_nodup
  rw [names, List.Nodup, List.pairwise_map, List.pairwise_iff_getElem] at hnodup
  simpa using hnodup j i (by omega) h hj

theorem field?_of_mem {kind : RecordKind} {f : Field} (h : f ∈ kind.fields) :
    kind.field? f.name = some f := by
  obtain ⟨i, hlt, rfl⟩ := List.mem_iff_getElem.1 h
  rw [field?_eq, index?_names kind hlt]
  exact List.getElem?_eq_getElem hlt

theorem mem_names_of_index? {kind : RecordKind} {name : String} {i : Nat}
    (h : kind.index? name = some i) : name ∈ kind.names := by
  obtain ⟨f, hf, rfl, -⟩ := fields_of_index? h
  exact List.mem_map_of_mem (List.mem_of_getElem? hf)

/-- No field has the name of the member that carries a tag. -/
theorem tagField_not_mem_names (kind : RecordKind) : Audit.tagField ∉ kind.names := by
  cases kind <;> decide

end RecordKind

/-- What is found by a name in a list with one entry for each name that has a value. -/
theorem lookup_filterMap {α : Type} (f : String → Option α) (names : List String) (name : String) :
    (names.filterMap fun n => (f n).map fun a => (n, a)).lookup name =
      if name ∈ names then f name else none := by
  induction names with
  | nil => rfl
  | cons n names ih =>
      cases hf : f n with
      | none =>
          rw [List.filterMap_cons_none (by rw [hf]; rfl), ih]
          by_cases hn : name = n
          · rw [hn, hf, ite_self, ite_self]
          · simp [hn]
      | some a =>
          rw [List.filterMap_cons_some (b := (n, a)) (by rw [hf]; rfl), List.lookup_cons, ih]
          by_cases hn : name = n
          · rw [hn, beq_self_eq_true, if_pos (List.mem_cons_self ..), hf]
          · have hbeq : (name == n) = false := beq_eq_false_iff_ne.2 hn
            rw [hbeq]
            simp [hn]

namespace Record

variable {r s : Record}

/-! ### Members -/

theorem mem_names_of_slot? {name : String} {v : Value} (h : r.slot? name = some v) :
    name ∈ r.kind.names := by
  cases hi : r.kind.index? name with
  | none =>
      rw [slot?, hi] at h
      cases h
  | some i => exact RecordKind.mem_names_of_index? hi

/-- **The fields that are set, name by name.** -/
theorem entries_eq (r : Record) :
    r.entries = r.kind.names.filterMap fun name => (r.slot? name).map fun v => (name, v) := by
  have hzip : r.kind.names.zip r.slots = r.kind.names.map fun name => (name, r.slot? name) := by
    refine List.ext_getElem ?_ ?_
    · rw [List.length_zip, List.length_map, RecordKind.names, List.length_map, r.length_slots,
        Nat.min_self]
    · intro i h _
      have hlt : i < r.kind.fields.length := by
        rw [List.length_zip, RecordKind.names, List.length_map] at h
        omega
      have hslot : i < r.slots.length := by rw [r.length_slots]; exact hlt
      have hname : r.slot? r.kind.fields[i].name = r.slots[i] := by
        rw [slot?_eq (r.kind.index?_names hlt), List.getElem?_eq_getElem hslot]
        rfl
      simp only [List.getElem_zip, List.getElem_map, RecordKind.names, hname]
  rw [entries, hzip, List.filterMap_map]
  rfl

theorem mem_entries {name : String} {v : Value} :
    (name, v) ∈ r.entries ↔ r.slot? name = some v := by
  rw [entries_eq, List.mem_filterMap]
  constructor
  · rintro ⟨n, -, hn⟩
    obtain ⟨w, hw, heq⟩ := Option.map_eq_some_iff.1 hn
    obtain ⟨rfl, rfl⟩ := Prod.mk.inj heq
    exact hw
  · intro h
    exact ⟨name, mem_names_of_slot? h, by rw [h]; rfl⟩

/-- The members of the JSON object of a record. -/
def members (r : Record) : List (String × Json) :=
  r.entries.map fun e => (e.1, e.2.toJson)

theorem toJson_eq (r : Record) : r.toJson = .object r.members := rfl

theorem members_eq (r : Record) :
    r.members = r.kind.names.filterMap fun name =>
      ((r.slot? name).map Value.toJson).map fun j => (name, j) := by
  rw [members, entries_eq, List.map_filterMap]
  refine List.filterMap_congr fun name _ => ?_
  rw [Option.map_map, Option.map_map]
  rfl

theorem member?_members (r : Record) (name : String) :
    Json.member? r.members name = (r.slot? name).map Value.toJson := by
  rw [Json.member?, members_eq, lookup_filterMap]
  split
  · rfl
  · rename_i h
    cases hs : r.slot? name with
    | none => rfl
    | some v => exact absurd (mem_names_of_slot? hs) h

/-- **The value of a member is that of the field**, a missing one being null. -/
theorem valueOf_members (r : Record) (name : String) :
    Audit.valueOf r.members name = (r.get name).toJson := by
  rw [Audit.valueOf, member?_members, get]
  cases r.slot? name <;> rfl

theorem mem_names_members {name : String} :
    name ∈ r.members.map Prod.fst ↔ ∃ v, r.slot? name = some v := by
  rw [members, List.map_map, List.mem_map]
  constructor
  · rintro ⟨⟨n, v⟩, hmem, rfl⟩
    exact ⟨v, mem_entries.1 hmem⟩
  · rintro ⟨v, hv⟩
    exact ⟨(name, v), mem_entries.2 hv, rfl⟩

/-- **The members are those of the fields that are set**, in the order of the table. -/
theorem names_members (r : Record) :
    r.members.map Prod.fst = r.kind.names.filter fun name => (r.slot? name).isSome := by
  rw [members_eq, List.map_filterMap]
  generalize r.kind.names = names
  induction names with
  | nil => rfl
  | cons n names ih =>
      cases hs : r.slot? n with
      | none =>
          rw [List.filterMap_cons_none (by rw [hs]; rfl), ih, List.filter_cons_of_neg (by simp [hs])]
      | some v =>
          rw [List.filterMap_cons_some (b := n) (by rw [hs]; rfl), ih,
            List.filter_cons_of_pos (by simp [hs])]

theorem names_members_sublist (r : Record) : (r.members.map Prod.fst).Sublist r.kind.names := by
  rw [names_members]
  exact List.filter_sublist

theorem nodup_names_members (r : Record) : (r.members.map Prod.fst).Nodup :=
  r.names_members_sublist.nodup r.kind.names_nodup

end Record

/-! ### Values -/

namespace Value

/-- A number is written as an integer, as a float other than zero, or as null. -/
theorem numberToJson_cases (x : Binary64) :
    (∃ i, numberToJson x = .ofInt i) ∨ numberToJson x = .null ∨
      x.isZero = false ∧ x.isFinite = true ∧ numberToJson x = .number (.float x) := by
  unfold numberToJson
  cases hi : x.exactInteger? with
  | some i => exact .inl ⟨i, rfl⟩
  | none =>
      dsimp only
      by_cases hf : x.isFinite = true
      · rw [if_pos hf]
        refine .inr (.inr ⟨?_, hf, rfl⟩)
        cases x with
        | nan => cases hf
        | signed negative rank le =>
            refine beq_eq_false_iff_ne.2 ?_
            rintro rfl
            simp [Binary64.exactInteger?, Binary64.integer?, Binary64.units_zero,
              Binary64.topRank] at hi
      · rw [if_neg hf]
        exact .inr (.inl rfl)

/-- The JSON form of a value is a scalar. -/
theorem isScalar_toJson (v : Value) : v.toJson.IsScalar := by
  cases v with
  | number x =>
      change (numberToJson x).IsScalar
      rcases numberToJson_cases x with ⟨i, hi⟩ | hn | ⟨-, hf, hx⟩
      · rw [hi]
        exact trivial
      · rw [hn]
        exact trivial
      · rw [hx]
        exact hf
  | _ => exact trivial

/-- A value that is written as a float is not zero. -/
theorem isZero_of_toJson {v : Value} {x : Binary64} (h : v.toJson = .number (.float x)) :
    x.isZero = false := by
  cases v with
  | number y =>
      have h : numberToJson y = .number (.float x) := h
      rcases numberToJson_cases y with ⟨i, hi⟩ | hn | ⟨hz, -, hy⟩
      · rw [hi] at h
        cases h
      · rw [hn] at h
        cases h
      · rw [hy] at h
        cases h
        exact hz
  | _ => cases h

/-- Values of a kind other than numbers are written differently. -/
theorem toJson_inj {k : Kind} (hk : k ≠ .number) {v w : Value} (hv : v.Fits k) (hw : w.Fits k)
    (h : v.toJson = w.toJson) : v = w := by
  -- Two values that are not null are of the same kind.
  have hkind {a b : Kind} (ha : v.kind? = some a) (hb : w.kind? = some b) : a = b :=
    (hv a ha).trans (hw b hb).symm
  cases v with
  | null =>
      cases w with
      | null => rfl
      | number x => exact absurd (hw _ rfl).symm hk
      | _ => cases h
  | text s =>
      cases w with
      | text t => rw [Json.string.inj h]
      | null => cases h
      | _ => cases hkind rfl rfl
  | number x => exact absurd (hv _ rfl).symm hk
  | date d =>
      cases w with
      | date e => rw [Date.text_inj.1 (Json.string.inj h)]
      | null => cases h
      | _ => cases hkind rfl rfl
  | boolean b =>
      cases w with
      | boolean c => rw [Json.bool.inj h]
      | null => cases h
      | _ => cases hkind rfl rfl

/-- A value is not written as null unless it is null or a number that JSON cannot write. -/
theorem toJson_ne_null {v : Value} (hv : v ≠ .null)
    (hx : ∀ x, v = .number x → x.isFinite = true) : v.toJson ≠ .null := by
  cases v with
  | null => exact absurd rfl hv
  | number x =>
      intro h
      have h : numberToJson x = .null := h
      unfold numberToJson at h
      rw [hx x rfl] at h
      split at h <;> cases h
  | _ => exact fun h => by cases h

/-- An integer that is a number is written as itself, or as the number. -/
theorem numberToJson_ofInt {i : Int} (hi : Binary64.IsExact i) :
    numberToJson (.ofInt i) = .ofInt i ∨ numberToJson (.ofInt i) = .number (.float (.ofInt i)) := by
  have hinteger := Binary64.integer?_ofInt_iff.2 hi
  have hfinite := Binary64.isFinite_of_integer? hinteger
  rw [numberToJson]
  cases he : (Binary64.ofInt i).exactInteger? with
  | some j =>
      have hj := (Option.filter_eq_some_iff.1 he).1
      obtain rfl : i = j := Option.some.inj (hinteger.symm.trans hj)
      exact .inl rfl
  | none =>
      right
      rw [if_pos hfinite]

/-- Integers that are numbers are written differently. -/
theorem numberToJson_ofInt_inj {i j : Int} (hi : Binary64.IsExact i) (hj : Binary64.IsExact j)
    (h : numberToJson (.ofInt i) = numberToJson (.ofInt j)) : i = j := by
  rcases numberToJson_ofInt hi with hi' | hi' <;> rcases numberToJson_ofInt hj with hj' | hj' <;>
    rw [hi', hj'] at h
  · exact Json.Numeral.integer.inj (Json.number.inj h)
  · cases h
  · cases h
  · have hx := Json.Numeral.float.inj (Json.number.inj h)
    have hinteger := Binary64.integer?_ofInt_iff.2 hi
    rw [hx, Binary64.integer?_ofInt_iff.2 hj] at hinteger
    exact (Option.some.inj hinteger).symm

end Value

/-- Scalars that count as equal are the same, but for the sign of zero. -/
theorem Json.eq_of_same {v w : Json} (hv : v.IsScalar)
    (hz : ∀ x, v = .number (.float x) → x.isZero = false) (h : v.same w = true) : v = w := by
  cases v with
  | array items => cases hv
  | object members => cases hv
  | null => cases w <;> first | rfl | cases h
  | bool b =>
      cases w with
      | bool c => rw [show b = c by simpa [same] using h]
      | _ => cases h
  | string s =>
      cases w with
      | string t => rw [show s = t by simpa [same] using h]
      | _ => cases h
  | number m =>
      cases w with
      | number n =>
          cases m with
          | integer i =>
              cases n with
              | integer j => rw [show i = j by simpa [same, Numeral.same] using h]
              | float y => cases h
          | float x =>
              cases n with
              | integer j => cases h
              | float y => rw [Binary64.eq_of_same (hz x rfl) h]
      | _ => cases h

namespace Record

variable {r s : Record}

/-! ### Changed fields -/

/-- The fields whose JSON values differ: those that are set in the first record, in the order of the
table, and then those that are set only in the second one. -/
def changedFields (r s : Record) : List String :=
  Audit.changedNames r.members s.members

/-- **The fields that differ.** -/
theorem mem_changedFields {name : String} :
    name ∈ changedFields r s ↔ (r.get name).toJson ≠ (s.get name).toJson := by
  have hcanonical : (r.get name).toJson.canonical ≠ (s.get name).toJson.canonical ↔
      (r.get name).toJson ≠ (s.get name).toJson := by
    refine not_congr ⟨?_, congrArg Json.canonical⟩
    exact Json.canonical_inj (Value.isScalar_toJson _) (Value.isScalar_toJson _)
  rw [changedFields, Audit.mem_changedNames, valueOf_members, valueOf_members, hcanonical]

theorem changedFields_eq_nil :
    changedFields r s = [] ↔ ∀ name, (r.get name).toJson = (s.get name).toJson := by
  rw [List.eq_nil_iff_forall_not_mem]
  refine forall_congr' fun name => ?_
  rw [mem_changedFields, not_not]

theorem nodup_changedFields (r s : Record) : (changedFields r s).Nodup := by
  refine List.Nodup.filter _ (List.Nodup.append r.nodup_names_members
    (s.nodup_names_members.filter _) ?_)
  intro name hr hs
  have hnot := (List.mem_filter.1 hs).2
  rw [Bool.not_eq_true', ← Bool.not_eq_true, List.contains_iff_mem] at hnot
  exact hnot hr

/-- A changed field is one of a table. -/
theorem mem_names_of_changedFields {name : String} (h : name ∈ changedFields r s) :
    name ∈ r.kind.names ∨ name ∈ s.kind.names := by
  rcases Audit.mem_allNames.1 (List.mem_of_mem_filter h) with h | h
  · obtain ⟨v, hv⟩ := mem_names_members.1 h
    exact .inl (mem_names_of_slot? hv)
  · obtain ⟨v, hv⟩ := mem_names_members.1 h
    exact .inr (mem_names_of_slot? hv)

/-- Some fields of a record, with their JSON values. -/
def showing (r : Record) (names : List String) : List (String × Json) :=
  names.map fun name => (name, (r.get name).toJson)

theorem names_showing (r : Record) (names : List String) :
    (r.showing names).map Prod.fst = names := by
  rw [showing, List.map_map]
  exact List.map_id _

/-- Objects of records that count as equal have the same members. -/
theorem slot?_toJson_of_same (h : r.toJson.same s.toJson = true) (name : String) :
    (r.slot? name).map Value.toJson = (s.slot? name).map Value.toJson := by
  rw [toJson_eq, toJson_eq, Json.same_object_iff r.nodup_names_members s.nodup_names_members] at h
  obtain ⟨hnone, hsome⟩ := h name
  rw [member?_members, member?_members] at hnone
  cases hv : r.slot? name with
  | none =>
      rw [hv] at hnone
      exact (hnone rfl).symm
  | some v =>
      have hmember : Json.member? r.members name = some v.toJson := by
        rw [member?_members, hv]
        rfl
      obtain ⟨j, hj, hsame⟩ := hsome _ hmember
      rw [member?_members] at hj
      obtain ⟨w, hw, rfl⟩ := Option.map_eq_some_iff.1 hj
      rw [hw, Option.map_some, Option.map_some,
        Json.eq_of_same v.isScalar_toJson (fun x => Value.isZero_of_toJson) hsame]

theorem get_toJson_eq (r : Record) (name : String) :
    (r.get name).toJson = ((r.slot? name).map Value.toJson).getD .null := by
  rw [get]
  cases r.slot? name <;> rfl

/-- Records of one kind with the same members have the same objects. -/
theorem toJson_congr (hk : r.kind = s.kind)
    (h : ∀ name, (r.slot? name).map Value.toJson = (s.slot? name).map Value.toJson) :
    r.toJson = s.toJson := by
  rw [toJson_eq, toJson_eq, members_eq, members_eq, hk]
  exact congrArg Json.object (List.filterMap_congr fun name _ => by rw [h])

/-- Lists of records that count as equal have the same objects. -/
theorem map_toJson_of_sameItems {kind : RecordKind} {rs ss : List Record}
    (hr : ∀ r ∈ rs, r.kind = kind) (hs : ∀ s ∈ ss, s.kind = kind)
    (h : Json.sameItems (rs.map toJson) (ss.map toJson) = true) : rs.map toJson = ss.map toJson := by
  induction rs generalizing ss with
  | nil =>
      cases ss with
      | nil => rfl
      | cons s ss => cases h
  | cons r rs ih =>
      cases ss with
      | nil => cases h
      | cons s ss =>
          obtain ⟨hr, hrs⟩ := List.forall_mem_cons.1 hr
          obtain ⟨hs, hss⟩ := List.forall_mem_cons.1 hs
          rw [List.map_cons, List.map_cons, Json.sameItems, Bool.and_eq_true] at h
          have hhead := toJson_congr (hr.trans hs.symm) (slot?_toJson_of_same h.1)
          rw [List.map_cons, List.map_cons, hhead, ih hrs hss h.2]

/-- **The change between two records** shows the fields that differ. -/
theorem change?_toJson (o : Audit.Options) (r s : Record) :
    Audit.change? o r.toJson s.toJson =
      if changedFields r s = [] then none
      else some ⟨.object (r.showing (changedFields r s)), .object (s.showing (changedFields r s))⟩ := by
  have hshowing (t : Record) :
      (changedFields r s).map (fun name => (name, Audit.valueOf t.members name)) =
        t.showing (changedFields r s) :=
    List.map_congr_left fun name _ => by rw [valueOf_members]
  unfold Audit.change?
  split
  · rename_i hsame
    have hget (name : String) : (r.get name).toJson = (s.get name).toJson := by
      rw [get_toJson_eq, get_toJson_eq, slot?_toJson_of_same hsame]
    rw [if_pos (changedFields_eq_nil.2 hget)]
  · rw [← hshowing r, ← hshowing s]
    unfold changedFields
    rw [toJson_eq, toJson_eq]
    dsimp only
    unfold Audit.changeOfMembers?
    split
    · rename_i hnil
      rw [if_pos hnil]
    · rename_i names hne
      rw [if_neg hne]

end Record

end CoachLedger
