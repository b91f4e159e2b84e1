/-
**Records survive their JSON form.**

The JSON object of a record is read back as the record.  Each kind of field has a form of its own
and accepts others as well, but what it writes it reads as the value that was written: a null stays
a field that is set to null, a date is in the first format that is tried, and a number is an integer
or a float of the same value.  Two things are lost.  Zero has no sign in the JSON form, so that the
record that is read back equals the record but may differ in this sign, and a number that is not
finite is written as null.  After that nothing more is lost.

Main definitions:

* `CoachLedger.Value.reread`, `CoachLedger.Record.reread` — a value, and a record, as it is read
  back;
* `CoachLedger.Value.same`, `CoachLedger.Record.Equal` — equality, of zero with its negative too;
* `CoachLedger.Record.IsBuilt` — records that are read from JSON or set field by field.

Main results:

* `CoachLedger.Value.ofJson?_toJson` — a value is read back by the kind of its field;
* `CoachLedger.Record.assignMembers_eq` — members that can be read are put into their fields;
* `CoachLedger.Record.ofJson_toJson` — a valid record with a coach number is read back;
* `CoachLedger.Record.toJson_survives` — **records survive their JSON form**.
-/

import CoachLedger.Proofs.Record.Json
import CoachLedger.Proofs.Sql.Column
import CoachLedger.Proofs.Value.Numbers

set_option autoImplicit false

namespace CoachLedger

/-! ### Values -/

namespace Value

/-- The value as it is read back from its JSON form. -/
def reread : Value → Value
  | number x => if x.isFinite then number x.unsignedZero else null
  | v => v

/-- Numbers are equal at the same place in the order, all other values if they are the same. -/
def same : Value → Value → Bool
  | number x, number y => x.same y
  | v, w => v == w

theorem reread_of_isFinite {v : Value} (h : ∀ x, v = number x → x.isFinite = true) :
    v.reread = v.unsignedZero := by
  cases v with
  | number x => exact if_pos (h x rfl)
  | _ => rfl

theorem isFinite_of_exactInteger? {x : Binary64} {i : Int} (h : x.exactInteger? = some i) :
    x.isFinite = true :=
  Binary64.isFinite_of_integer? (Option.filter_eq_some_iff.1 h).1

/-- A number is read back from its JSON form. -/
theorem ofJson?_numberToJson (x : Binary64) :
    ofJson? .number (numberToJson x) = some (number x).reread := by
  cases hi : x.exactInteger? with
  | some i =>
      have hread : ofJson? .number (Json.ofInt i) = some (number (.ofInt i)) := rfl
      rw [numberToJson, hi, hread, reread, if_pos (isFinite_of_exactInteger? hi),
        Binary64.ofInt_eq_unsignedZero (Option.filter_eq_some_iff.1 hi).1]
  | none =>
      rcases numberToJson_cases x with ⟨i, hj⟩ | hj | ⟨hz, hf, hj⟩
      · unfold numberToJson at hj
        rw [hi] at hj
        dsimp only at hj
        split at hj <;> cases hj
      · have hf : ¬x.isFinite = true := by
          intro hf
          simp [numberToJson, hi, hf] at hj
        rw [hj, reread, if_neg hf]
        rfl
      · rw [hj, reread, if_pos hf, Binary64.unsignedZero_of_not_isZero hz]
        rfl

/-- **A value is read back by the kind of its field.** -/
theorem ofJson?_toJson {k : Kind} {v : Value} (h : v.Fits k) :
    ofJson? k v.toJson = some v.reread := by
  cases v with
  | null => rfl
  | text s =>
      obtain rfl : Kind.text = k := h _ rfl
      rfl
  | number x =>
      obtain rfl : Kind.number = k := h _ rfl
      exact ofJson?_numberToJson x
  | date d =>
      obtain rfl : Kind.date = k := h _ rfl
      change ((Date.read? d.text).map date) = some (date d)
      rw [Date.read?_text]
      rfl
  | boolean b =>
      obtain rfl : Kind.boolean = k := h _ rfl
      rfl

theorem numberToJson_of_isZero {x : Binary64} (h : x.isZero = true) :
    numberToJson x = .ofInt 0 := by
  rw [numberToJson, Binary64.exactInteger?, Binary64.integer?_of_isZero h]
  rfl

theorem numberToJson_of_not_isFinite {x : Binary64} (h : x.isFinite = false) :
    numberToJson x = .null := by
  unfold numberToJson
  cases hi : x.exactInteger? with
  | some i =>
      rw [isFinite_of_exactInteger? hi] at h
      cases h
  | none => simp [h]

/-- What is read back has the JSON form that it was read from. -/
theorem toJson_reread (v : Value) : v.reread.toJson = v.toJson := by
  cases v with
  | number x =>
      change _ = numberToJson x
      rw [reread]
      cases hf : x.isFinite with
      | true =>
          rw [if_pos rfl]
          change numberToJson x.unsignedZero = numberToJson x
          cases hz : x.isZero with
          | true => rw [Binary64.unsignedZero_of_isZero hz, numberToJson_of_isZero hz,
              numberToJson_of_isZero rfl]
          | false => rw [Binary64.unsignedZero_of_not_isZero hz]
      | false =>
          rw [if_neg Bool.false_ne_true, numberToJson_of_not_isFinite hf]
          rfl
  | _ => rfl

/-- Without the sign of zero a value is still equal. -/
theorem same_unsignedZero {v : Value} (hv : v ≠ number .nan) : v.unsignedZero.same v = true := by
  cases v with
  | number x =>
      refine Binary64.same_iff_key.2 ⟨?_, Binary64.key_unsignedZero x⟩
      intro hx
      cases x with
      | nan => exact hv rfl
      | signed negative rank le =>
          have hkey := Binary64.key_unsignedZero (.signed negative rank le)
          rw [hx] at hkey
          cases hkey
  | _ => exact beq_self_eq_true _

end Value

/-! ### Records -/

namespace Record

variable {r s : Record}

/-- The record as it is read back from its JSON form. -/
def reread (r : Record) : Record :=
  ⟨r.kind, r.slots.map (Option.map Value.reread), by simp [r.length_slots]⟩

/-- The records are of one kind, and the same fields are set in them, to equal values. -/
def Equal (r s : Record) : Prop :=
  r.kind = s.kind ∧
    ∀ name, Option.Rel (fun v w => v.same w = true) (r.slot? name) (s.slot? name)

theorem slot?_reread (r : Record) (name : String) :
    r.reread.slot? name = (r.slot? name).map Value.reread := by
  cases hi : r.kind.index? name with
  | none =>
      have hk : r.reread.kind.index? name = none := hi
      rw [slot?, slot?, hi, hk]
      rfl
  | some i =>
      have hs : r.reread.slots[i]? = (r.slots[i]?).map (Option.map Value.reread) :=
        List.getElem?_map
      rw [slot?_eq (r := r.reread) hi, slot?_eq hi, hs]
      rcases r.slots[i]? with _ | _ | _ <;> rfl

/-- Records of one kind are equal if the same is set in each field. -/
theorem eq_of_slot? (hk : r.kind = s.kind) (h : ∀ name, r.slot? name = s.slot? name) : r = s := by
  refine eq_of_slots hk fun i => ?_
  by_cases hi : i < r.kind.fields.length
  · have hs := h r.kind.fields[i].name
    have hindex := r.kind.index?_names hi
    have hrl : i < r.slots.length := by rw [r.length_slots]; exact hi
    have hsl : i < s.slots.length := by rw [s.length_slots, ← hk]; exact hi
    rw [slot?_eq hindex, slot?_eq (by rw [← hk]; exact hindex), List.getElem?_eq_getElem hrl,
      List.getElem?_eq_getElem hsl] at hs
    rw [List.getElem?_eq_getElem hrl, List.getElem?_eq_getElem hsl]
    exact congrArg some hs
  · have hr := r.length_slots
    have hs := s.length_slots
    rw [← hk] at hs
    rw [List.getElem?_eq_none (by omega), List.getElem?_eq_none (by omega)]

/-- **Members that can be read are put into their fields.** -/
theorem assignMembers_eq {members : List (String × Json)} {g : String → Value}
    (h : ∀ m ∈ members, ∃ f, r.kind.field? m.1 = some f ∧
      Value.ofJson? f.kind m.2 = some (g m.1)) :
    ∃ t, r.assignMembers members = .ok t ∧ t.kind = r.kind ∧
      (∀ name ∈ members.map Prod.fst, t.slot? name = some (g name)) ∧
      ∀ name, name ∉ members.map Prod.fst → t.slot? name = r.slot? name := by
  induction members generalizing r with
  | nil => exact ⟨r, rfl, rfl, fun name hname => (by cases hname), fun name _ => rfl⟩
  | cons m rest ih =>
      obtain ⟨n, j⟩ := m
      obtain ⟨⟨f, hf, hv⟩, hrest⟩ := List.forall_mem_cons.1 h
      have hk := kind_put r n (g n)
      obtain ⟨t, ht, htk, hset, hother⟩ := ih (r := r.put n (g n)) (by rw [hk]; exact hrest)
      refine ⟨t, ?_, htk.trans hk, ?_, ?_⟩
      · rw [assignMembers]
        simp only [hf, hv]
        exact ht
      · -- A later member of the same name would have the same value.
        intro name hname
        by_cases hmem : name ∈ rest.map Prod.fst
        · exact hset name hmem
        · obtain rfl : name = n := (List.mem_cons.1 hname).resolve_right hmem
          rw [hother name hmem, slot?_put_self (RecordKind.has_of_field? hf)]
      · intro name hname
        obtain ⟨hn, hmem⟩ := not_or.1 fun h => hname (List.mem_cons.2 h)
        rw [hother name hmem, slot?_put_of_ne r hn]

/-- The members of a valid record are read back. -/
theorem assignMembers_members (hr : r.IsValid) :
    (empty r.kind).assignMembers r.members = .ok r.reread := by
  have hread : ∀ m ∈ r.members, ∃ f, (empty r.kind).kind.field? m.1 = some f ∧
      Value.ofJson? f.kind m.2 = some (r.get m.1).reread := by
    intro m hm
    obtain ⟨⟨name, v⟩, hentry, rfl⟩ := List.mem_map.1 hm
    have hslot := mem_entries.1 hentry
    obtain ⟨f, hf⟩ := field?_of_slot? hslot
    have hget : r.get name = v := by
      rw [get, hslot]
      rfl
    refine ⟨f, hf, ?_⟩
    rw [Value.ofJson?_toJson (fits_slot? hr hf hslot), hget]
  obtain ⟨t, ht, htk, hset, hother⟩ :=
    assignMembers_eq (g := fun name => (r.get name).reread) hread
  have hslots (name : String) : t.slot? name = r.reread.slot? name := by
    rw [slot?_reread]
    by_cases hmem : name ∈ r.members.map Prod.fst
    · obtain ⟨v, hv⟩ := mem_names_members.1 hmem
      rw [hset name hmem, get, hv]
      rfl
    · have hnone : r.slot? name = none :=
        Option.eq_none_iff_forall_ne_some.2 fun v hv => hmem (mem_names_members.2 ⟨v, hv⟩)
      rw [hother name hmem, slot?_empty, hnone]
      rfl
  rw [ht, eq_of_slot? (r := t) (s := r.reread) htk hslots]

theorem get_reread (r : Record) (name : String) : r.reread.get name = (r.get name).reread := by
  rw [get, get, slot?_reread]
  cases r.slot? name <;> rfl

/-- The coach number of a valid record is a text, which is read back as it is. -/
theorem identity?_reread (hr : r.IsValid) : r.reread.identity? = r.identity? := by
  have hf : ∃ f, r.kind.field? identityField = some f ∧ f.kind = .text := by
    cases r.kind <;> exact ⟨_, rfl, rfl⟩
  obtain ⟨f, hf, hk⟩ := hf
  have hfits := fits_get hr hf
  rw [identity?, identity?, get_reread]
  cases hv : r.get identityField with
  | number x =>
      rw [hv, hk] at hfits
      cases hfits _ rfl
  | _ => rfl

/-- **A valid record with a coach number is read back.** -/
theorem ofJson_toJson (hr : r.IsValid) (hid : r.identity?.isSome = true) :
    ofJson r.kind r.toJson = .ok r.reread := by
  rw [toJson_eq, ofJson, assignMembers_members hr]
  dsimp only
  rw [identity?_reread hr, if_neg]
  rw [Option.isNone_eq_false_iff.2 hid]
  exact Bool.false_ne_true

/-- What is read back has the JSON form that it was read from. -/
theorem toJson_reread (r : Record) : r.reread.toJson = r.toJson := by
  refine toJson_congr (s := r) rfl fun name => ?_
  rw [slot?_reread, Option.map_map]
  exact Option.map_congr fun v _ => v.toJson_reread

theorem slot?_reread_of_isFinite (h : r.IsFinite) (name : String) :
    r.reread.slot? name = (r.slot? name).map Value.unsignedZero := by
  rw [slot?_reread]
  refine Option.map_congr fun v hv => Value.reread_of_isFinite fun x hx => h name x ?_
  rw [get, hv, hx]
  rfl

/-- Of a record of finite numbers an equal one is read back. -/
theorem equal_reread (h : r.IsFinite) : r.reread.Equal r := by
  refine ⟨rfl, fun name => ?_⟩
  rw [slot?_reread_of_isFinite h]
  cases hv : r.slot? name with
  | none => exact .none
  | some v => exact .some (Value.same_unsignedZero (ne_nan_of_isFinite h hv))

/-! ### Records that can be built -/

/-- The record is read from JSON, or made from an empty record or one that is read by setting
fields one after the other. -/
inductive IsBuilt : Record → Prop
  | empty (kind : RecordKind) : IsBuilt (empty kind)
  | ofJson {kind : RecordKind} {j : Json} {r : Record} (h : ofJson kind j = .ok r) : IsBuilt r
  | set {r s : Record} {name : String} {v : Value} (hr : IsBuilt r) (h : r.set name v = .ok s) :
      IsBuilt s

theorem IsBuilt.isValid (h : r.IsBuilt) : r.IsValid := by
  induction h with
  | empty kind => exact isValid_empty kind
  | ofJson h => exact isValid_ofJson h
  | set _ h ih => exact isValid_set ih h

/-- **Records survive their JSON form.**  The members of the JSON object are those of the fields
that are set, each once and in the order of the table.  If the record has a coach number and its
numbers are finite, an equal record is read back, in which only the sign of a zero may be lost.
What was read from JSON itself, whatever the numbers were, has the same JSON form again after it
has been written and read. -/
theorem toJson_survives (hr : r.IsBuilt) :
    (∃ members, r.toJson = .object members ∧ (members.map Prod.fst).Nodup ∧
      members.map Prod.fst = r.kind.names.filter fun name => (r.slot? name).isSome) ∧
    (r.identity?.isSome = true → r.IsFinite → ∃ s, ofJson r.kind r.toJson = .ok s ∧ s.Equal r ∧
      ∀ name, s.slot? name = (r.slot? name).map Value.unsignedZero) ∧
    ∀ kind j, ofJson kind j = .ok r → ∃ s, ofJson kind r.toJson = .ok s ∧ s.toJson = r.toJson := by
  refine ⟨⟨r.members, r.toJson_eq, r.nodup_names_members, r.names_members⟩, ?_, ?_⟩
  · intro hid hfinite
    exact ⟨r.reread, ofJson_toJson hr.isValid hid, equal_reread hfinite,
      slot?_reread_of_isFinite hfinite⟩
  · intro kind j h
    obtain ⟨-, -, -, hid⟩ := ofJson_eq_ok h
    obtain rfl := kind_ofJson h
    exact ⟨r.reread, ofJson_toJson hr.isValid hid, toJson_reread r⟩

/-- A coach of antiquity, whose remarks are set to null. -/
def ancient : Record :=
  ((((empty .history).put "id" (.number (.ofRank true 0))).put "coachno" (.text "C1")).put
    "poh_date" (.date ⟨-44, 3, 15, by decide⟩)).put "remarks" .null

theorem isBuilt_put {name : String} {v : Value} (hr : r.IsBuilt)
    (h : check r.kind name v = .ok ()) : (r.put name v).IsBuilt := by
  have hset : r.set name v = .ok (r.put name v) := by rw [set, h]
  exact .set hr hset

theorem isBuilt_ancient : ancient.IsBuilt :=
  isBuilt_put (isBuilt_put (isBuilt_put (isBuilt_put (.empty .history) rfl) rfl) rfl) rfl

theorem isFinite_ancient : ancient.IsFinite := by
  refine isFinite_put (isFinite_put (isFinite_put (isFinite_put (isFinite_empty .history)
    rfl ?_) rfl ?_) rfl ?_) rfl ?_
  · rintro x ⟨⟩
    decide
  all_goals exact fun x h => by cases h

theorem toJson_survives_ancient :
    ancient.IsBuilt ∧ ancient.IsFinite ∧ ancient.identity?.isSome = true ∧
      ∃ s, ofJson .history ancient.toJson = .ok s ∧ s.Equal ancient ∧
        s.slot? "remarks" = some .null ∧
        ∃ t, ofJson .history s.toJson = .ok t ∧ t.toJson = s.toJson := by
  have hid : ancient.identity?.isSome = true := by decide
  obtain ⟨-, hread, -⟩ := toJson_survives isBuilt_ancient
  obtain ⟨s, hs, hequal, hslots⟩ := hread hid isFinite_ancient
  obtain ⟨-, -, hagain⟩ := toJson_survives (.ofJson hs)
  refine ⟨isBuilt_ancient, isFinite_ancient, hid, s, hs, hequal, ?_, hagain .history _ hs⟩
  rw [hslots]
  decide

end Record

end CoachLedger
