/-
**Comparison of field values.**

A filter compares the value of a field with an operand.  Values of one kind compare in the order
of that kind; a text compares with a number or a date if it reads as one; all other pairs do not
compare.  Equality falls back on the text forms where there is no order.

Main definitions:

* `CoachLedger.Value.compare` — the order of two values, if they have one;
* `CoachLedger.Value.exactEq` — equality of two values, unknown if one is null.

Main results:

* `CoachLedger.Value.exactEq_isSome` — equality is known of any two values that are not null.
-/

import CoachLedger.Value.Basic
import CoachLedger.Text.Fold

set_option autoImplicit false

namespace CoachLedger.Value

/-- The order of booleans: false before true. -/
def orderBooleans : Bool → Bool → Ordering
  | false, true => .lt
  | true, false => .gt
  | _, _ => .eq

/-- The order of two values.  A text that reads as a number or a date compares as such with the
other kind. -/
def compare : Value → Value → Option Ordering
  | number x, number y => x.compare y
  | date a, date b => some (a.compare b)
  | boolean a, boolean b => some (orderBooleans a b)
  | text s, text t => some (Text.order s t)
  | text s, number y => (readNumber? s).bind fun x => x.compare y
  | number x, text t => (readNumber? t).bind fun y => x.compare y
  | text s, date b => (Date.read? s).map fun a => a.compare b
  | date a, text t => (Date.read? t).map fun b => a.compare b
  | _, _ => none

/-- Equality of two values: by the order, or else by the text forms.  It is unknown if one of them
is null. -/
def exactEq (a b : Value) : Option Bool :=
  if a.isNull || b.isNull then none
  else
    match a.compare b with
    | some o => some (o == .eq)
    | none => some (a.text? == b.text?)

/-- Equality is known of any two values that are not null. -/
theorem exactEq_isSome (a b : Value) :
    (a.exactEq b).isSome = (!a.isNull && !b.isNull) := by
  unfold exactEq
  cases ha : a.isNull <;> cases hb : b.isNull <;> simp
  cases a.compare b <;> rfl

end CoachLedger.Value
