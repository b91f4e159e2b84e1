/-
**Reading filter conditions.**

A filter text is a list of conditions.  A condition is written as an object, whose members may
come in any order and among members that are ignored, or as the list of its members in their
fixed order.  The text is read from left to right and the first thing that is wrong is reported,
so a condition with an unusable operand counts as such even if the text is broken further on.

Main definitions:

* `CoachLedger.Filter.Fault` — what can be wrong with a filter text;
* `CoachLedger.Filter.Draft` — the members of a condition that have been read;
* `CoachLedger.Filter.readConditions` — the conditions of a text.
-/

import CoachLedger.Filter.Condition
import CoachLedger.Json.Reader

set_option autoImplicit false

namespace CoachLedger.Filter

/-- What can be wrong with a filter text. -/
inductive Fault
  /-- The text is not JSON, or not the JSON of a list of conditions. -/
  | malformed
  /-- An operand is an array or object, whose text is given. -/
  | notScalar (text : String)
deriving DecidableEq, Repr

/-- The members of a condition that have been read so far. -/
structure Draft where
  id : Option (Option Json)
  column : Option String
  operator : Option Operator
  value : Option String
  valueTo : Option (Option String)
  connective : Option Connective
  declared : Option (Option Kind)

namespace Draft

/-- Nothing has been read. -/
def empty : Draft := ⟨none, none, none, none, none, none, none⟩

/-- The member has been read. -/
def has (d : Draft) : Member → Bool
  | .id => d.id.isSome
  | .column => d.column.isSome
  | .operator => d.operator.isSome
  | .value => d.value.isSome
  | .valueTo => d.valueTo.isSome
  | .connective => d.connective.isSome
  | .declared => d.declared.isSome

end Draft

/-! ### Members -/

/-- The levels of nesting that are left inside a condition of a list. -/
def innerDepth : Nat := Json.maxDepth - 2

/-- The value of a tree inside a condition. -/
def innerValue (t : Json.Tree) : Except Fault Json :=
  match t.value? Json.read? innerDepth with
  | some j => .ok j
  | none => .error .malformed

/-- A text. -/
def readText : Json.Tree → Except Fault String
  | .string (some s) => .ok s
  | _ => .error .malformed

/-- The text of an operand: numbers and booleans are taken as they are written, null is the empty
text. -/
def readOperand (t : Json.Tree) : Except Fault String :=
  match innerValue t with
  | .error e => .error e
  | .ok (.string s) => .ok s
  | .ok (.number n) => .ok (String.ofList n.text)
  | .ok (.bool b) => .ok (Value.booleanText b)
  | .ok .null => .ok ""
  | .ok j => .error (.notScalar j.text)

/-- The text of an operand that may be missing; the value null stands for none. -/
def readOptionalOperand (t : Json.Tree) : Except Fault (Option String) :=
  match innerValue t with
  | .ok .null => .ok none
  | _ => (readOperand t).map some

/-- A name out of a fixed set, which may also be written as the only member of an object, with
the value null. -/
def readName {α : Type} (ofName? : String → Option α) (t : Json.Tree) : Except Fault α :=
  let found :=
    match t with
    | .string (some s) => ofName? s
    | .object [(some s, .null)] => ofName? s
    | _ => none
  match found with
  | some a => .ok a
  | none => .error .malformed

/-- Null, or what the reader reads. -/
def orNull {α : Type} (read : Json.Tree → Except Fault α) : Json.Tree → Except Fault (Option α)
  | .null => .ok none
  | t => (read t).map some

/-- The draft with a member read from a tree. -/
def Draft.assign (d : Draft) (m : Member) (t : Json.Tree) : Except Fault Draft :=
  if d.has m then .error .malformed
  else
    match m with
    | .id => (orNull innerValue t).map fun v => { d with id := some v }
    | .column => (readText t).map fun s => { d with column := some s }
    | .operator => (readText t).map fun s => { d with operator := some (.ofName s) }
    | .value => (readOperand t).map fun s => { d with value := some s }
    | .valueTo => (readOptionalOperand t).map fun v => { d with valueTo := some v }
    | .connective => (readName Connective.ofName? t).map fun c => { d with connective := some c }
    | .declared => (orNull (readName ofDeclaredName?) t).map fun v => { d with declared := some v }

/-! ### Conditions -/

/-- The condition of a draft.  Column and operator are required; for the others there are
defaults. -/
def Draft.finish (d : Draft) : Except Fault Condition :=
  match d.column, d.operator with
  | some column, some operator =>
      .ok ⟨d.id.join, column, operator, d.value.getD "", d.valueTo.join,
        d.connective.getD .and, d.declared.join⟩
  | _, _ => .error .malformed

/-- Reads the members of an object.  Members with other names are ignored. -/
def Draft.readMembers (d : Draft) : List (Option String × Json.Tree) → Except Fault Draft
  | [] => .ok d
  | (none, _) :: _ => .error .malformed
  | (some name, t) :: rest =>
      match Member.ofName? name with
      | none => d.readMembers rest
      | some m =>
          match d.assign m t with
          | .ok d => d.readMembers rest
          | .error e => .error e

/-- Reads the items of an array as the members in their order. -/
def Draft.readItems (d : Draft) : List Member → List Json.Tree → Except Fault Draft
  | _, [] => .ok d
  | [], _ :: _ => .error .malformed
  | m :: ms, t :: ts =>
      match d.assign m t with
      | .ok d => d.readItems ms ts
      | .error e => .error e

/-- The condition that a tree stands for. -/
def readCondition (t : Json.Tree) : Except Fault Condition :=
  let draft :=
    match t with
    | .object members => Draft.empty.readMembers members
    | .array items => Draft.empty.readItems Member.all items
    | _ => .error .malformed
  match draft with
  | .ok d => d.finish
  | .error e => .error e

/-- The conditions that the trees of a list stand for. -/
def readList (reversed : List Condition) : List Json.Tree → Except Fault (List Condition)
  | [] => .ok reversed.reverse
  | t :: ts =>
      match readCondition t with
      | .ok c => readList (c :: reversed) ts
      | .error e => .error e

/-- The conditions of a text. -/
def readConditions (text : String) : Except Fault (List Condition) :=
  let o := Json.outline text
  match o.root with
  | .array items =>
      match readList [] items with
      | .ok conditions => if o.complete then .ok conditions else .error .malformed
      | .error e => .error e
  | _ => .error .malformed

end CoachLedger.Filter
