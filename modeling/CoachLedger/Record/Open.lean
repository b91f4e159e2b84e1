/-
**Records as maps that change.**

A record that a program holds is a map from names to values, which is filled in two ways.  Reading
an object inserts the value of each member once it is read for the kind of the field of its name.
Setting a field checks the name and the value first, and inserts only after that.  Nothing about
the map itself keeps its names to a table or its values to the kinds of fields.

Main definitions:

* `CoachLedger.OpenRecord` — records as maps;
* `CoachLedger.OpenRecord.ofJson` — filling a record from an object;
* `CoachLedger.OpenRecord.set` — setting a field of the record at hand;
* `CoachLedger.OpenRecord.performAll`, `CoachLedger.Record.performAll` — calls one after the other,
  with what each has answered and the record that they leave.
-/

import CoachLedger.Record.Basic

set_option autoImplicit false

namespace CoachLedger

/-- A record as a map from names to values. -/
structure OpenRecord where
  kind : RecordKind
  fields : String → Option Value

namespace OpenRecord

/-- The record that holds nothing. -/
def empty (kind : RecordKind) : OpenRecord :=
  ⟨kind, fun _ => none⟩

/-- The record with a value under a name, in place of what was there. -/
def insert (r : OpenRecord) (name : String) (v : Value) : OpenRecord :=
  ⟨r.kind, fun other => if other = name then some v else r.fields other⟩

/-- The number of the coach, if it is a text that is not empty. -/
def identity? (r : OpenRecord) : Option String :=
  ((r.fields identityField).getD .null).text?.filter fun s => s ≠ ""

/-- What works on the record at hand, and may fail. -/
abbrev Task (α : Type) :=
  ExceptT RecordError (StateM OpenRecord) α

/-- Sets a field, after a check. -/
def set (name : String) (v : Value) : Task Unit := do
  let r : OpenRecord ← get
  MonadExcept.ofExcept (Record.check r.kind name v)
  modify fun r => r.insert name v

/-- Reads the members of an object and inserts them, up to the first one that is no field of the
kind or has no value of the field's kind. -/
def readMembers (kind : RecordKind) : List (String × Json) → Task Unit
  | [] => pure ()
  | (name, j) :: rest => do
      match kind.field? name with
      | none => throw (.unknownField kind name)
      | some f =>
          match Value.ofJson? f.kind j with
          | none => throw (.invalidValue name f.kind j.text)
          | some v =>
              modify fun r => r.insert name v
              readMembers kind rest

/-- The record that a JSON value stands for; it needs the number of a coach. -/
def ofJson (kind : RecordKind) : Json → Except RecordError OpenRecord
  | .object members =>
      match (readMembers kind members).run.run (empty kind) with
      | (.ok _, r) => if r.identity?.isNone then .error (.missingIdentity kind) else .ok r
      | (.error e, _) => .error e
  | _ => .error (.notAnObject kind)

/-- Sets fields one after the other: what each call answers, and the record after them. -/
def performAll (r : OpenRecord) :
    List (String × Value) → List (Except RecordError Unit) × OpenRecord
  | [] => ([], r)
  | (name, v) :: calls =>
      let (answer, s) := (set name v).run.run r
      let (answers, t) := s.performAll calls
      (answer :: answers, t)

end OpenRecord

namespace Record

/-- Sets a field of a record that is kept: what the call answers, and the record after it. -/
def perform (r : Record) (name : String) (v : Value) : Except RecordError Unit × Record :=
  match r.set name v with
  | .ok s => (.ok (), s)
  | .error e => (.error e, r)

/-- Sets fields one after the other: what each call answers, and the record after them. -/
def performAll (r : Record) :
    List (String × Value) → List (Except RecordError Unit) × Record
  | [] => ([], r)
  | (name, v) :: calls =>
      let (answer, s) := r.perform name v
      let (answers, t) := s.performAll calls
      (answer :: answers, t)

end Record

end CoachLedger
