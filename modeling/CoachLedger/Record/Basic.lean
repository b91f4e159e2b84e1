/-
**Records.**

A record holds, for each field of its kind, either a value or nothing at all; a field that was set
to null differs from one that was never set.  Values enter a record only through a check against
the table of fields.

Main definitions:

* `CoachLedger.Record` — records;
* `CoachLedger.Record.IsValid` — each value has the kind of its field;
* `CoachLedger.Record.get`, `CoachLedger.Record.set` — reading and writing a field;
* `CoachLedger.Record.ofJson`, `CoachLedger.Record.toJson` — the JSON form of a record;
* `CoachLedger.RecordError` — what can be wrong with a record.
-/

import CoachLedger.Record.Kind

set_option autoImplicit false

namespace CoachLedger

/-- What can be wrong with a record. -/
inductive RecordError
  | notAnObject (kind : RecordKind)
  | unknownField (kind : RecordKind) (field : String)
  | invalidValue (field : String) (expected : Kind) (found : String)
  | missingIdentity (kind : RecordKind)
deriving DecidableEq, Repr

/-- The message of an error. -/
def RecordError.message : RecordError → String
  | notAnObject kind => "Expected a JSON object for a " ++ kind.name ++ " record"
  | unknownField kind field => "Unknown field '" ++ field ++ "' for " ++ kind.name ++ " records"
  | invalidValue field expected found =>
      "Invalid value for field '" ++ field ++ "': expected " ++ expected.name ++ ", got " ++ found
  | missingIdentity kind => "Missing 'coachno' for " ++ kind.name ++ " record"

/-- A record of some kind.  The slots stand in the order of the fields of the kind. -/
structure Record where
  kind : RecordKind
  slots : List (Option Value)
  length_slots : slots.length = kind.fields.length
deriving DecidableEq

namespace Record

/-- The record without any field set. -/
def empty (kind : RecordKind) : Record :=
  ⟨kind, List.replicate kind.fields.length none, by simp⟩

/-- Each value has the kind of its field. -/
def IsValid (r : Record) : Prop :=
  ∀ (i : Nat) (f : Field) (v : Value), r.kind.fields[i]? = some f →
    r.slots[i]? = some (some v) → v.Fits f.kind

/-- The value in the slot of a field, if it was set. -/
def slot? (r : Record) (name : String) : Option Value :=
  ((r.kind.index? name).bind fun i => r.slots[i]?).join

/-- The value of a field, null if it was not set. -/
def get (r : Record) (name : String) : Value :=
  (r.slot? name).getD .null

/-- The record with a value put into the slot of a field; a name that is no field of the kind
changes nothing. -/
def put (r : Record) (name : String) (v : Value) : Record :=
  match r.kind.index? name with
  | some i => ⟨r.kind, r.slots.set i (some v), by simp [r.length_slots]⟩
  | none => r

/-- Checks that a value may be put into the field of the given name. -/
def check (kind : RecordKind) (name : String) (v : Value) : Except RecordError Unit :=
  match kind.field? name with
  | none => .error (.unknownField kind name)
  | some f =>
      match v.kind? with
      | none => .ok ()
      | some found =>
          if found = f.kind then .ok () else .error (.invalidValue name f.kind found.name)

/-- The record with a field set. -/
def set (r : Record) (name : String) (v : Value) : Except RecordError Record :=
  match check r.kind name v with
  | .ok _ => .ok (r.put name v)
  | .error e => .error e

/-- The fields that are set, with their values, in the order of the table. -/
def entries (r : Record) : List (String × Value) :=
  (r.kind.names.zip r.slots).filterMap fun p => p.2.map fun v => (p.1, v)

/-- The fields that are set, with their values, in the order of their names. -/
def entriesByName (r : Record) : List (String × Value) :=
  r.entries.mergeSort fun a b => (Text.order a.1 b.1).isLE

/-- The number of the coach, if it is a text that is not empty. -/
def identity? (r : Record) : Option String :=
  (r.get identityField).text?.filter fun s => s ≠ ""

/-! ### JSON form -/

/-- Puts the members of a JSON object into a record, up to the first one that is no field of the
kind or has no value of the field's kind. -/
def assignMembers (r : Record) : List (String × Json) → Except RecordError Record
  | [] => .ok r
  | (name, j) :: rest =>
      match r.kind.field? name with
      | none => .error (.unknownField r.kind name)
      | some f =>
          match Value.ofJson? f.kind j with
          | none => .error (.invalidValue name f.kind j.text)
          | some v => assignMembers (r.put name v) rest

/-- The record that a JSON value stands for; it needs the number of a coach. -/
def ofJson (kind : RecordKind) : Json → Except RecordError Record
  | .object members =>
      match assignMembers (empty kind) members with
      | .error e => .error e
      | .ok r => if r.identity?.isNone then .error (.missingIdentity kind) else .ok r
  | _ => .error (.notAnObject kind)

/-- The JSON object of a record, in the order of the table, without the fields never set. -/
def toJson (r : Record) : Json :=
  .object (r.entries.map fun e => (e.1, e.2.toJson))

/-- The JSON array of a list of records. -/
def listToJson (rs : List Record) : Json :=
  .array (rs.map toJson)

end Record

end CoachLedger
