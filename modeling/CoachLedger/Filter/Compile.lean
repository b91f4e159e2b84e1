/-
**From conditions to predicates.**

Each condition becomes a predicate on its column.  Two or more conditions form one flat group: a
disjunction if any condition after the first one is connected by `OR`, and else a conjunction;
there is no precedence among connectives.  For stored records the kind of the column matters:
operands for a text column stay texts, and text operators on a boolean column are resolved
against the two spellings of a boolean.

Main definitions:

* `CoachLedger.Filter.Condition.predicate` — the predicate of one condition;
* `CoachLedger.Filter.Condition.predicateFor` — its predicate on the records of a kind;
* `CoachLedger.Filter.Compiled` — a compiled list of conditions;
* `CoachLedger.Filter.compile`, `CoachLedger.Filter.compileFor` — compilation.
-/

import CoachLedger.Filter.Boundary
import CoachLedger.Filter.Operand
import CoachLedger.Predicate.Basic

set_option autoImplicit false

namespace CoachLedger.Filter

/-! ### One condition -/

/-- Texts compare without regard to case, all other values exactly. -/
def equality (v : Value) : Comparison :=
  .equals v (v.kind? == some .text)

/-- A range of dates.  Without an upper bound, or with a bound that is no date, it imposes
nothing. -/
def dateRange (c : Condition) : Predicate :=
  match c.valueTo.filter fun s => !Text.isAllBlank s with
  | none => .idle .missingUpperBound
  | some upper =>
      match Date.read? c.value, Date.read? upper with
      | some low, some high => .clause c.column (.between (.date low) (.date high))
      | _, _ => .idle .invalidDateBound

/-- The predicate of one condition. -/
def Condition.predicate (c : Condition) : Predicate :=
  match c.operator with
  | .isEmpty => .clause c.column .isNull
  | .isNotEmpty => .not (.clause c.column .isNull)
  | .equals => .clause c.column (equality c.operand)
  | .notEquals => .not (.clause c.column (equality c.operand))
  | .contains => .clause c.column (.contains c.value)
  | .notContains => .not (.clause c.column (.contains c.value))
  | .startsWith => .clause c.column (.startsWith c.value)
  | .endsWith => .clause c.column (.endsWith c.value)
  | .greaterThan => .clause c.column (.greater c.operand)
  | .greaterThanOrEqual => .clause c.column (.greaterOrEqual c.operand)
  | .lessThan => .clause c.column (.less c.operand)
  | .lessThanOrEqual => .clause c.column (.lessOrEqual c.operand)
  | .dateRange => dateRange c
  | .unknown name => .idle (.unknownOperator name)

/-! ### Columns of a kind -/

/-- A comparison with the text form of a boolean, as equality with the booleans whose spelling
satisfies it.  A spelling that satisfies nothing is still unknown of null. -/
def spelled (column : String) (c : Comparison) : Predicate :=
  let one (b : Bool) : Predicate := .clause column (.equals (.boolean b) false)
  let holds (b : Bool) : Bool := c.evaluate (.boolean b) == some true
  match holds true, holds false with
  | true, true => .or [one true, one false]
  | true, false => one true
  | false, true => one false
  | false, false => .and [one true, one false]

/-- The predicate of a condition on a boolean column, without comparisons of the text form. -/
def spellBooleans : Predicate → Predicate
  | .not inner => .not (spellBooleans inner)
  | .clause column c => if c.isTextual then spelled column c else .clause column c
  | p => p

/-- The predicate of a condition on the records of a kind. -/
def Condition.predicateFor (kind : RecordKind) (c : Condition) : Predicate :=
  match (kind.field? c.column).map Field.kind with
  | some .text => { c with declared := some .text }.predicate
  | some .boolean => spellBooleans c.predicate
  | _ => c.predicate

/-! ### Lists of conditions -/

/-- A compiled list of conditions. -/
structure Compiled where
  predicate : Predicate
  /-- The connectives of the conditions, in their order. -/
  connectives : List Connective

/-- The connective of the group that two or more conditions form. -/
def Compiled.group? (f : Compiled) : Option Connective :=
  if 1 < f.connectives.length then
    match f.predicate with
    | .and _ => some .and
    | .or _ => some .or
    | _ => none
  else none

/-- The filter selects the record. -/
def Compiled.selects (f : Compiled) (r : Record) : Bool :=
  f.predicate.selects r

/-- The predicates of the conditions under the connective of their group. -/
def groupWith (one : Condition → Predicate) : List Condition → Predicate
  | [] => .everything
  | [c] => one c
  | first :: rest =>
      if rest.any fun c => c.connective = .or then .or ((first :: rest).map one)
      else .and ((first :: rest).map one)

/-- A list of conditions compiled condition by condition. -/
def compileWith (one : Condition → Predicate) (cs : List Condition) : Compiled :=
  ⟨groupWith one cs, cs.map Condition.connective⟩

/-- The filter of a list of conditions, whose operands are typed by their text alone. -/
def compile (cs : List Condition) : Compiled :=
  compileWith Condition.predicate cs

/-- The filter of a list of conditions on the records of a kind. -/
def compileFor (kind : RecordKind) (cs : List Condition) : Compiled :=
  compileWith (Condition.predicateFor kind) cs

/-- The filter of a text; a text that is rejected filters nothing. -/
def compileLenient (kind : RecordKind) (limits : Limits) (text : String) : Compiled :=
  compileFor kind (parseLenient kind limits text)

end CoachLedger.Filter
