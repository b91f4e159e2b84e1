/-
**Records keep to their table.**

A record holds values of the fields of its kind only, and each is null or of the kind of its field.
Two paths lead to that.  What is read for the kind of a field passes the check for the field, so
that reading an object needs no check; and a field is set only after the check.  A call that fails
leaves the record as it was, and one that succeeds changes its own field and no other.

All this is shown for records as maps, where nothing but these two paths keeps a record to its
table; the records with one slot for each field of the table are those maps, call for call.

Main definitions:

* `CoachLedger.OpenRecord.KeepsTable` — the record keeps to the table of its kind;
* `CoachLedger.Record.opened` — a record as a map.

Main results:

* `CoachLedger.Record.check_of_ofJson?` — what is read for a field passes the check;
* `CoachLedger.Record.run_set_opened`, `CoachLedger.Record.ofJson_opened` — **records are maps**, whether
  they are set or read;
* `CoachLedger.Record.keepsTable_opened` — a valid record keeps to its table;
* `CoachLedger.Record.performAll_keepsTable` — **records keep to their table**, whatever is called.
-/

import CoachLedger.Proofs.Record.RoundTrip
import CoachLedger.Record.Open

set_option autoImplicit false

namespace CoachLedger

variable {kind : RecordKind} {name : String} {v : Value}

namespace OpenRecord

variable {o : OpenRecord}

/-- All that the record holds are values of fields of the table, null or of their kinds. -/
def KeepsTable (o : OpenRecord) : Prop :=
  ∀ name v, o.fields name = some v →
    ∃ f ∈ o.kind.fields, f.name = name ∧ (v = .null ∨ v.kind? = some f.kind)

/-- Setting a field is the check, and the insertion if it succeeds. -/
theorem run_set (name : String) (v : Value) (o : OpenRecord) :
    (set name v).run.run o =
      match Record.check o.kind name v with
      | .ok _ => (.ok (), o.insert name v)
      | .error e => (.error e, o) := by
  have hrun : (set name v).run.run o =
      ((MonadExcept.ofExcept (Record.check o.kind name v) : Task Unit) >>= fun _ =>
        modify fun r => r.insert name v).run.run o := rfl
  rw [hrun]
  cases Record.check o.kind name v <;> rfl

end OpenRecord

namespace Record

variable {r s : Record}

/-- The record as a map. -/
def opened (r : Record) : OpenRecord :=
  ⟨r.kind, r.slot?⟩

/-! ### What is read for a field -/

/-- **What is read for a field passes the check for it.** -/
theorem check_of_ofJson? {f : Field} (hf : f ∈ kind.fields) {j : Json}
    (h : Value.ofJson? f.kind j = some v) : check kind f.name v = .ok () :=
  check_eq_ok_iff.2 ⟨f, RecordKind.field?_of_mem hf, Value.kind?_of_ofJson? h⟩

/-! ### Records as maps -/

theorem opened_empty (kind : RecordKind) : (empty kind).opened = .empty kind := by
  rw [opened, OpenRecord.empty, OpenRecord.mk.injEq]
  exact ⟨rfl, funext fun name => slot?_empty kind name⟩

/-- What is put into a field is inserted into the map. -/
theorem opened_put (h : r.kind.has name = true) (v : Value) :
    (r.put name v).opened = r.opened.insert name v := by
  rw [opened, opened, OpenRecord.insert, OpenRecord.mk.injEq]
  refine ⟨kind_put r name v, funext fun other => ?_⟩
  by_cases hname : other = name
  · rw [hname, slot?_put_self h, if_pos rfl]
  · rw [slot?_put_of_ne r hname, if_neg hname]

theorem identity?_opened (r : Record) : r.opened.identity? = r.identity? := rfl

/-- What a call does: nothing if the check fails, and otherwise the value is put into the field. -/
theorem perform_eq (r : Record) (name : String) (v : Value) :
    r.perform name v =
      match check r.kind name v with
      | .ok _ => (.ok (), r.put name v)
      | .error e => (.error e, r) := by
  unfold perform set
  cases check r.kind name v <;> rfl

/-- **Records are maps**: a call answers the same, and the map becomes that of the record. -/
theorem run_set_opened (r : Record) (name : String) (v : Value) :
    (OpenRecord.set name v).run.run r.opened =
      ((r.perform name v).1, (r.perform name v).2.opened) := by
  have hkind : r.opened.kind = r.kind := rfl
  rw [OpenRecord.run_set, perform_eq, hkind]
  cases hc : check r.kind name v with
  | error e => rfl
  | ok u =>
      obtain ⟨f, hf, -⟩ := check_eq_ok_iff.1 hc
      exact congrArg (Prod.mk _) (opened_put (RecordKind.has_of_field? hf) v).symm

theorem performAll_cons (r : Record) (name : String) (v : Value)
    (calls : List (String × Value)) :
    r.performAll ((name, v) :: calls) =
      ((r.perform name v).1 :: ((r.perform name v).2.performAll calls).1,
        ((r.perform name v).2.performAll calls).2) := rfl

/-- Calls one after the other answer the same, and leave the map of the record. -/
theorem performAll_opened (r : Record) (calls : List (String × Value)) :
    r.opened.performAll calls = ((r.performAll calls).1, (r.performAll calls).2.opened) := by
  induction calls generalizing r with
  | nil => rfl
  | cons c calls ih =>
      obtain ⟨name, v⟩ := c
      rw [OpenRecord.performAll, run_set_opened, performAll_cons]
      dsimp only
      rw [ih]

/-- Reading members fills the map as it fills the record. -/
theorem readMembers_opened (r : Record) (members : List (String × Json)) :
    match r.assignMembers members with
    | .ok s => (OpenRecord.readMembers r.kind members).run.run r.opened = (.ok (), s.opened)
    | .error e => ((OpenRecord.readMembers r.kind members).run.run r.opened).1 = .error e := by
  induction members generalizing r with
  | nil => rfl
  | cons m rest ih =>
      obtain ⟨name, j⟩ := m
      rw [assignMembers, OpenRecord.readMembers]
      cases hf : r.kind.field? name with
      | none => rfl
      | some f =>
          dsimp only
          cases hv : Value.ofJson? f.kind j with
          | none => rfl
          | some v =>
              have hrest := ih (r.put name v)
              rw [kind_put, opened_put (RecordKind.has_of_field? hf)] at hrest
              exact hrest

/-- **Records are maps**, also when they are read. -/
theorem ofJson_opened (kind : RecordKind) (j : Json) :
    OpenRecord.ofJson kind j = (ofJson kind j).map opened := by
  cases j with
  | object members =>
      have hread := readMembers_opened (empty kind) members
      rw [opened_empty] at hread
      rw [OpenRecord.ofJson, ofJson]
      cases hr : (empty kind).assignMembers members with
      | error e =>
          rw [hr] at hread
          obtain ⟨o, ho⟩ : ∃ o, (OpenRecord.readMembers kind members).run.run (.empty kind) =
              (.error e, o) := ⟨_, Prod.ext hread rfl⟩
          rw [ho]
          rfl
      | ok r =>
          rw [hr] at hread
          have hread : (OpenRecord.readMembers kind members).run.run (.empty kind) =
              (.ok (), r.opened) := hread
          rw [hread]
          dsimp only
          rw [identity?_opened]
          split <;> rfl
  | _ => rfl

/-! ### Records that keep to their table -/

/-- **A valid record keeps to its table.** -/
theorem keepsTable_opened (hr : r.IsValid) : r.opened.KeepsTable := by
  intro name v hv
  have hv : r.slot? name = some v := hv
  obtain ⟨f, hf⟩ := field?_of_slot? hv
  have hname : f.name = name := by simpa using List.find?_some hf
  refine ⟨f, List.mem_of_find?_eq_some hf, hname, ?_⟩
  have hfits := fits_slot? hr hf hv
  cases v with
  | null => exact .inl rfl
  | _ => exact .inr (congrArg some (hfits _ rfl))

theorem IsBuilt.perform (hr : r.IsBuilt) (name : String) (v : Value) :
    (r.perform name v).2.IsBuilt := by
  rw [perform_eq]
  cases hc : check r.kind name v with
  | ok u => exact isBuilt_put hr hc
  | error e => exact hr

theorem kind_perform (r : Record) (name : String) (v : Value) :
    (r.perform name v).2.kind = r.kind := by
  rw [perform_eq]
  cases check r.kind name v with
  | ok u => exact kind_put r name v
  | error e => rfl

/-- Calls lead from a record that can be built to one of the same kind. -/
theorem IsBuilt.performAll (hr : r.IsBuilt) (calls : List (String × Value)) :
    (r.performAll calls).2.IsBuilt ∧ (r.performAll calls).2.kind = r.kind := by
  induction calls generalizing r with
  | nil => exact ⟨hr, rfl⟩
  | cons c calls ih =>
      obtain ⟨name, v⟩ := c
      obtain ⟨hbuilt, hkind⟩ := ih (hr.perform name v)
      rw [performAll_cons]
      exact ⟨hbuilt, hkind.trans (kind_perform r name v)⟩

/-- **Records keep to their table.**  A record may be empty or read from JSON, and then its fields
are set by any calls: whatever it holds are values of fields of its table, null or of their kinds.
The next call answers what the check answers.  One that fails leaves the record as it was, and one
that succeeds inserts its value under its name and changes nothing else.  A map that is filled by
the same calls answers the same and holds the same, and reading fills a map as it fills a record,
since what is read for the kind of a field passes the check for the field. -/
theorem performAll_keepsTable (hr : r.IsBuilt) (calls : List (String × Value)) :
    ((r.performAll calls).2.kind = r.kind ∧ (r.performAll calls).2.opened.KeepsTable) ∧
    (∀ name v,
      (((r.performAll calls).2.perform name v).1 = check r.kind name v) ∧
      (∀ e, check r.kind name v = .error e →
        ((r.performAll calls).2.perform name v).2 = (r.performAll calls).2) ∧
      (check r.kind name v = .ok () →
        ((r.performAll calls).2.perform name v).2.opened =
          (r.performAll calls).2.opened.insert name v)) ∧
    (r.opened.performAll calls = ((r.performAll calls).1, (r.performAll calls).2.opened) ∧
      ∀ j, OpenRecord.ofJson r.kind j = (ofJson r.kind j).map opened) ∧
    ∀ f ∈ r.kind.fields, ∀ j v, Value.ofJson? f.kind j = some v →
      check r.kind f.name v = .ok () := by
  obtain ⟨hbuilt, hkind⟩ := hr.performAll calls
  refine ⟨⟨hkind, keepsTable_opened hbuilt.isValid⟩, fun name v => ?_,
    ⟨performAll_opened r calls, ofJson_opened r.kind⟩, fun f hf j v => check_of_ofJson? hf⟩
  generalize (r.performAll calls).2 = s at hkind ⊢
  rw [perform_eq, ← hkind]
  cases hc : check s.kind name v with
  | error e => exact ⟨rfl, fun _ _ => rfl, fun h => by cases h⟩
  | ok u =>
      obtain ⟨f, hf, -⟩ := check_eq_ok_iff.1 hc
      exact ⟨rfl, fun _ h => (by cases h), fun _ => opened_put (RecordKind.has_of_field? hf) v⟩

/-- Calls about a coach in the yard. -/
def yardCalls : List (String × Value) :=
  [("in_yard", .boolean true), ("in_yard", .number (.ofInt 1)), ("work_done", .text "POH"),
    ("remarks", .null)]

/-- Of these calls on a coach that was read from JSON, a number for a flag and a name of the other
table fail.  The flag that was set before them stays, and another call replaces it by null. -/
theorem performAll_keepsTable_yard :
    ∃ r, ofJson .master (.object [("coachno", .string "C1")]) = .ok r ∧ r.IsBuilt ∧
      (r.performAll yardCalls).1 =
        [.ok (), .error (.invalidValue "in_yard" .boolean "number"),
          .error (.unknownField .master "work_done"), .ok ()] ∧
      (r.performAll yardCalls).2.opened.KeepsTable ∧
      (r.performAll yardCalls).2.opened.fields "in_yard" = some (.boolean true) ∧
      (r.performAll yardCalls).2.opened.fields "remarks" = some .null ∧
      (r.performAll yardCalls).2.opened.fields "work_done" = none ∧
      ((r.performAll yardCalls).2.perform "in_yard" .null).2.opened =
        (r.performAll yardCalls).2.opened.insert "in_yard" .null := by
  have hread : ofJson .master (.object [("coachno", .string "C1")]) =
      .ok ((empty .master).put "coachno" (.text "C1")) := rfl
  have hbuilt := IsBuilt.ofJson hread
  obtain ⟨⟨-, hkeeps⟩, hnext, -, -⟩ := performAll_keepsTable hbuilt yardCalls
  obtain ⟨-, -, hinsert⟩ := hnext "in_yard" .null
  exact ⟨_, hread, hbuilt, rfl, hkeeps, rfl, rfl, rfl, hinsert rfl⟩

end Record

end CoachLedger
