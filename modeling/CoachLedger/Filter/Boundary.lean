/-
**The filter boundary.**

A filter that comes from outside passes four checks in a fixed order: the size of the text, its
form, the number of conditions, and the columns.  What passes may be searched with; a lenient
search takes everything else for no filter at all.

Main definitions:

* `CoachLedger.Filter.Limits` — the limits on a filter;
* `CoachLedger.Filter.parse` — the conditions of a text that passes the checks;
* `CoachLedger.Filter.parseLenient` — the same, or no conditions.
-/

import CoachLedger.Filter.Reader
import CoachLedger.Record.Kind

set_option autoImplicit false

namespace CoachLedger.Filter

/-- The limits on a filter. -/
structure Limits where
  /-- The largest number of UTF-8 bytes of the text. -/
  maxJsonBytes : Nat
  /-- The largest number of conditions. -/
  maxConditions : Nat
deriving DecidableEq, Repr

/-- The limits that hold unless others are configured. -/
def Limits.standard : Limits := ⟨65536, 50⟩

/-- Why a filter is rejected. -/
inductive Rejection
  | tooLarge (size max : Nat)
  | invalidJson (fault : Fault)
  | tooMany (count max : Nat)
  | invalidColumn (kind : RecordKind) (column : String)
deriving DecidableEq, Repr

namespace Rejection

/-- The name of a rejection. -/
def code : Rejection → String
  | tooLarge .. => "FILTER_JSON_TOO_LARGE"
  | invalidJson _ => "INVALID_FILTER_JSON"
  | tooMany .. => "TOO_MANY_FILTERS"
  | invalidColumn .. => "INVALID_FILTER_COLUMN"

/-- The message of a rejection.  A malformed text has no message of its own. -/
def message? : Rejection → Option String
  | tooLarge size max =>
      some ("Filter JSON exceeds maximum size of " ++ toString max ++ " bytes (" ++
        toString size ++ " bytes)")
  | invalidJson .malformed => none
  | invalidJson (.notScalar text) =>
      some ("Invalid filter JSON: Filter value must be a scalar, got " ++ text)
  | tooMany count max =>
      some ("Maximum " ++ toString max ++ " filter conditions allowed, got " ++ toString count)
  | invalidColumn kind column =>
      some ("Cannot filter " ++ kind.name ++ " records by column: " ++ column)

end Rejection

/-- The first condition whose column is no field of the kind. -/
def foreign? (kind : RecordKind) (conditions : List Condition) : Option Condition :=
  conditions.find? fun c => !kind.has c.column

/-- The checks on a list of conditions: their number, then their columns. -/
def accept (kind : RecordKind) (limits : Limits) (conditions : List Condition) :
    Except Rejection (List Condition) :=
  if limits.maxConditions < conditions.length then
    .error (.tooMany conditions.length limits.maxConditions)
  else
    match foreign? kind conditions with
    | some c => .error (.invalidColumn kind c.column)
    | none => .ok conditions

/-- The conditions of a text that passes the checks.  The size is that of the whole text; blanks
around the list are no part of it, and a blank text has no conditions. -/
def parse (kind : RecordKind) (limits : Limits) (text : String) :
    Except Rejection (List Condition) :=
  if limits.maxJsonBytes < text.utf8ByteSize then
    .error (.tooLarge text.utf8ByteSize limits.maxJsonBytes)
  else
    let trimmed := Text.trim text
    if trimmed = "" then .ok []
    else
      match readConditions trimmed with
      | .error fault => .error (.invalidJson fault)
      | .ok conditions => accept kind limits conditions

/-- The conditions of a text that passes the checks, or none. -/
def parseLenient (kind : RecordKind) (limits : Limits) (text : String) : List Condition :=
  match parse kind limits text with
  | .ok conditions => conditions
  | .error _ => []

end CoachLedger.Filter
