/-
**Operands.**

The operand of a condition is a text.  It is taken to have the kind that the condition declares,
if it reads as one, and otherwise the kind that the text suggests.

Main definitions:

* `CoachLedger.Filter.inferKind` — the kind that a text suggests;
* `CoachLedger.Filter.coerce?` — a text as a value of a kind;
* `CoachLedger.Filter.Condition.operand` — the value of the operand of a condition.

Main results:

* `CoachLedger.Filter.operand_of_text` — an operand declared as text is that text.
-/

import CoachLedger.Filter.Condition

set_option autoImplicit false

namespace CoachLedger.Filter

/-- The kind that a text suggests: a number unless it has a hyphen, a boolean, a date if it is one
or the operator asks for one, and else a text. -/
def inferKind (op : Operator) (s : String) : Kind :=
  if !s.toList.contains '-' && (Value.readNumber? s).isSome then .number
  else if (Value.readBoolean? s).isSome then .boolean
  else if op = .dateRange || (Date.read? s).isSome then .date
  else .text

/-- A text as a value of a kind. -/
def coerce? (k : Kind) (s : String) : Option Value :=
  match k with
  | .text => some (.text s)
  | .number => (Value.readNumber? s).map .number
  | .date => (Date.read? s).map .date
  | .boolean => (Value.readBoolean? s).map .boolean

/-- The value of an operand without a declared kind. -/
def inferred (op : Operator) (s : String) : Value :=
  (coerce? (inferKind op s) s).getD (.text s)

/-- The value of the operand of a condition. -/
def Condition.operand (c : Condition) : Value :=
  (c.declared.bind fun k => coerce? k c.value).getD (inferred c.operator c.value)

/-- An operand declared as text is that text. -/
theorem operand_of_text (c : Condition) (h : c.declared = some .text) :
    c.operand = .text c.value := by
  simp [Condition.operand, h, coerce?]

end CoachLedger.Filter
