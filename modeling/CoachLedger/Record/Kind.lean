/-
**Kinds of records and their fields.**

There are two kinds of records: the master record of a coach, of which each coach has one, and
the history records of the overhauls that a coach has had.  Each kind has a table of fields.

Main definitions:

* `CoachLedger.RecordKind` — the two kinds;
* `CoachLedger.RecordKind.fields` — the table of a kind;
* `CoachLedger.RecordKind.index?` — the place of a field in the table;
* `CoachLedger.RecordKind.keyField` — the field that tells records apart.

Main results:

* `CoachLedger.RecordKind.names_nodup` — no field is in a table twice.
-/

import CoachLedger.Value.Basic
import CoachLedger.Text.Fold

set_option autoImplicit false

namespace CoachLedger

/-- The kinds of records. -/
inductive RecordKind
  | master
  | history
deriving DecidableEq, Repr

/-- A field of a record. -/
structure Field where
  name : String
  kind : Kind
deriving DecidableEq, Repr

/-- The field that holds the number of a coach. -/
def identityField : String := "coachno"

namespace RecordKind

/-- The name of a kind. -/
def name : RecordKind → String
  | master => "master"
  | history => "history"

/-- The table in which the records of a kind are stored. -/
def table : RecordKind → String
  | master => "coach_master"
  | history => "coach_history"

/-- The fields of master records. -/
def masterFields : List Field :=
  [⟨"coachno", .text⟩, ⟨"coach_type", .text⟩, ⟨"coach_code", .text⟩, ⟨"owning_rly", .text⟩,
    ⟨"base_depot", .text⟩, ⟨"built_year", .number⟩, ⟨"manufacturer", .text⟩, ⟨"pohby", .text⟩,
    ⟨"poh_date", .date⟩, ⟨"ioh_date", .date⟩, ⟨"return_date", .date⟩, ⟨"next_poh_due", .date⟩,
    ⟨"in_yard", .boolean⟩, ⟨"yard_in_date", .date⟩, ⟨"yard_out_date", .date⟩,
    ⟨"battery_status", .text⟩, ⟨"battery_date", .date⟩, ⟨"upholstery_status", .text⟩,
    ⟨"upholstery_date", .date⟩, ⟨"brake_test_date", .date⟩,
    ⟨"fire_extinguisher_fitment_date", .date⟩, ⟨"codal_life", .number⟩,
    ⟨"air_conditioned", .boolean⟩, ⟨"remarks", .text⟩]

/-- The fields of history records. -/
def historyFields : List Field :=
  [⟨"id", .number⟩, ⟨"coachno", .text⟩, ⟨"coach_type", .text⟩, ⟨"owning_rly", .text⟩,
    ⟨"pohby", .text⟩, ⟨"poh_date", .date⟩, ⟨"ioh_date", .date⟩, ⟨"return_date", .date⟩,
    ⟨"work_done", .text⟩, ⟨"recorded_at", .date⟩, ⟨"remarks", .text⟩]

/-- The fields of a kind. -/
def fields : RecordKind → List Field
  | master => masterFields
  | history => historyFields

/-- The names of the fields of a kind. -/
def names (k : RecordKind) : List String :=
  k.fields.map Field.name

/-- The field that tells records apart and orders them: the number of the coach for master
records, a running number for history records. -/
def keyField : RecordKind → String
  | master => identityField
  | history => "id"

/-- The field of the given name. -/
def field? (k : RecordKind) (name : String) : Option Field :=
  k.fields.find? fun f => f.name == name

/-- The place of the field of the given name. -/
def index? (k : RecordKind) (name : String) : Option Nat :=
  k.fields.findIdx? fun f => f.name == name

/-- The kind has a field of the given name. -/
def has (k : RecordKind) (name : String) : Bool :=
  (k.field? name).isSome

/-- The kind that a name denotes, in any case.  Folding the letters `A` to `Z` is enough: no other
character has a lower case that occurs in a name. -/
def ofName? (s : String) : Option RecordKind :=
  let s := Text.fold s
  if s = "master" then some master else if s = "history" then some history else none

/-- The message about a name that denotes no kind. -/
def invalidName (s : String) : String :=
  "Invalid record kind '" ++ s ++ "'. Valid options: master, history"

/-- No field is in a table twice. -/
theorem names_nodup (k : RecordKind) : k.names.Nodup := by
  cases k <;> decide +kernel

end RecordKind

end CoachLedger
