/-
**Filter conditions.**

A search is filtered by a list of conditions that a user has put together.  A condition compares a
column with an operand, which is kept as the text that was typed, and says how it is connected
with the conditions before it.  Operators that are not known are kept by name.

Main definitions:

* `CoachLedger.Filter.Operator`, `CoachLedger.Filter.Connective` — operators and connectives;
* `CoachLedger.Filter.Condition` — conditions;
* `CoachLedger.Filter.Condition.toJson`, `CoachLedger.Filter.Condition.listToJson` — the JSON form
  of a condition and of a list of them.

Main results:

* `CoachLedger.Filter.Operator.name_ofName` — reading a name keeps the name.
-/

import CoachLedger.Json.Writer
import CoachLedger.Value.Basic

set_option autoImplicit false

namespace CoachLedger.Filter

/-! ### Operators -/

/-- The comparison that a condition makes. -/
inductive Operator
  | equals
  | notEquals
  | contains
  | notContains
  | startsWith
  | endsWith
  | isEmpty
  | isNotEmpty
  | greaterThan
  | greaterThanOrEqual
  | lessThan
  | lessThanOrEqual
  | dateRange
  /-- A name outside the known ones. -/
  | unknown (name : String)
deriving DecidableEq, Repr

namespace Operator

/-- The name of an operator. -/
def name : Operator → String
  | equals => "equals"
  | notEquals => "notEquals"
  | contains => "contains"
  | notContains => "notContains"
  | startsWith => "startsWith"
  | endsWith => "endsWith"
  | isEmpty => "isEmpty"
  | isNotEmpty => "isNotEmpty"
  | greaterThan => "greaterThan"
  | greaterThanOrEqual => "greaterThanOrEqual"
  | lessThan => "lessThan"
  | lessThanOrEqual => "lessThanOrEqual"
  | dateRange => "dateRange"
  | unknown name => name

/-- The known operators. -/
def known : List Operator :=
  [equals, notEquals, contains, notContains, startsWith, endsWith, isEmpty, isNotEmpty,
    greaterThan, greaterThanOrEqual, lessThan, lessThanOrEqual, dateRange]

/-- The operator of a name. -/
def ofName (s : String) : Operator :=
  (known.find? fun op => op.name == s).getD (unknown s)

/-- Reading a name keeps the name. -/
theorem name_ofName (s : String) : (ofName s).name = s := by
  unfold ofName
  cases h : known.find? fun op => op.name == s with
  | none => rfl
  | some op => simpa using List.find?_some h

end Operator

/-! ### Connectives -/

/-- How a condition is connected with the ones before it. -/
inductive Connective
  | and
  | or
deriving DecidableEq, Repr

/-- The name of a connective. -/
def Connective.name : Connective → String
  | and => "AND"
  | or => "OR"

/-- The connective of a name, in upper or in lower case. -/
def Connective.ofName? (s : String) : Option Connective :=
  if s = "AND" ∨ s = "and" then some and
  else if s = "OR" ∨ s = "or" then some or
  else none

/-! ### Declared kinds -/

/-- The name by which a condition declares the kind of its operand. -/
def declaredName : Kind → String
  | .text => "string"
  | .number => "number"
  | .date => "date"
  | .boolean => "boolean"

/-- The kind of a declared name. -/
def ofDeclaredName? (s : String) : Option Kind :=
  [Kind.text, Kind.number, Kind.date, Kind.boolean].find? fun k => declaredName k == s

/-! ### Conditions -/

/-- One condition of a filter. -/
structure Condition where
  /-- A mark by which the user's program finds the condition again. -/
  id : Option Json
  column : String
  operator : Operator
  /-- The operand as text. -/
  value : String
  /-- The upper bound of a range, as text. -/
  valueTo : Option String
  connective : Connective
  /-- The kind that the operand is declared to have. -/
  declared : Option Kind

/-- The members of a condition as the JSON form names them. -/
inductive Member
  | id
  | column
  | operator
  | value
  | valueTo
  | connective
  | declared
deriving DecidableEq, Repr

namespace Member

/-- The members in the order of the JSON form. -/
def all : List Member := [id, column, operator, value, valueTo, connective, declared]

/-- The name of a member. -/
def name : Member → String
  | id => "id"
  | column => "column"
  | operator => "operator"
  | value => "value"
  | valueTo => "valueTo"
  | connective => "logicalOperator"
  | declared => "type"

/-- The member of a name. -/
def ofName? (s : String) : Option Member :=
  all.find? fun m => m.name == s

end Member

namespace Condition

/-- The JSON value of a member of a condition; an absent one has none. -/
def member? (c : Condition) : Member → Option Json
  | .id => c.id
  | .column => some (.string c.column)
  | .operator => some (.string c.operator.name)
  | .value => some (.string c.value)
  | .valueTo => c.valueTo.map .string
  | .connective => some (.string c.connective.name)
  | .declared => c.declared.map fun k => .string (declaredName k)

/-- The JSON form of a condition. -/
def toJson (c : Condition) : Json :=
  .object (Member.all.filterMap fun m => (c.member? m).map fun j => (m.name, j))

/-- The JSON form of a list of conditions. -/
def listToJson (cs : List Condition) : Json :=
  .array (cs.map toJson)

end Condition

end CoachLedger.Filter
