/-
**Predicates on records.**

A list of conditions becomes a predicate: a tree of comparisons under negation, conjunction and
disjunction.  A predicate is evaluated on a record in three-valued logic, a comparison with a
field that is null being unknown, and a record is selected if the predicate is true of it.

Main definitions:

* `CoachLedger.Comparison`, `CoachLedger.Comparison.evaluate` — comparisons of one field;
* `CoachLedger.Predicate`, `CoachLedger.Predicate.evaluate` — predicates;
* `CoachLedger.Predicate.selects` — the records that a predicate selects;
* `CoachLedger.Predicate.columns` — the columns that a predicate looks at.

Main results:

* `CoachLedger.Predicate.evaluateEach_eq` — the members of a group are evaluated one by one;
* `CoachLedger.Comparison.evaluate_null` — of a null field only `isNull` is known.
-/

import CoachLedger.Logic.Kleene
import CoachLedger.Record.Basic
import CoachLedger.Text.Quoted
import CoachLedger.Value.Compare

set_option autoImplicit false

namespace CoachLedger

/-- A comparison of one field. -/
inductive Comparison
  | isNull
  /-- Equality, of values or of the text forms without regard to case. -/
  | equals (value : Value) (foldCase : Bool)
  | contains (needle : String)
  | startsWith (needle : String)
  | endsWith (needle : String)
  | greater (value : Value)
  | greaterOrEqual (value : Value)
  | less (value : Value)
  | lessOrEqual (value : Value)
  /-- Both ends are included. -/
  | between (low high : Value)
deriving DecidableEq, Repr

namespace Comparison

/-- The folded text form of a value. -/
def folded (v : Value) : Option String :=
  v.text?.map Text.fold

/-- The comparison looks at the text form of the field. -/
def isTextual : Comparison → Bool
  | contains _ | startsWith _ | endsWith _ | equals _ true => true
  | _ => false

/-- The comparison of a value that is not null. -/
def evaluateKnown (v : Value) : Comparison → Option Bool
  | isNull => some false
  | equals w true => (folded v).bind fun a => (folded w).map fun b => a == b
  | equals w false => v.exactEq w
  | contains needle => (folded v).map (Text.contains (Text.fold needle))
  | startsWith needle => (folded v).map (Text.startsWith (Text.fold needle))
  | endsWith needle => (folded v).map (Text.endsWith (Text.fold needle))
  | greater w => (v.compare w).map Ordering.isGT
  | greaterOrEqual w => (v.compare w).map Ordering.isGE
  | less w => (v.compare w).map Ordering.isLT
  | lessOrEqual w => (v.compare w).map Ordering.isLE
  | between low high =>
      (v.compare low).bind fun a => (v.compare high).map fun b => a.isGE && b.isLE

/-- The comparison of a value; of null only `isNull` is known. -/
def evaluate (c : Comparison) (v : Value) : Option Bool :=
  if v.isNull then (if c = isNull then some true else none) else c.evaluateKnown v

/-- Of a null field only `isNull` is known. -/
theorem evaluate_null (c : Comparison) :
    c.evaluate .null = if c = isNull then some true else none := rfl

/-- The values that a comparison compares with, from left to right. -/
def operands : Comparison → List Value
  | isNull => []
  | equals v _ => [v]
  | contains s | startsWith s | endsWith s => [.text s]
  | greater v | greaterOrEqual v | less v | lessOrEqual v => [v]
  | between low high => [low, high]

/-- A comparison of the given column in words. -/
def display (column : String) : Comparison → String
  | isNull => column ++ " IS NULL"
  | equals v true => column ++ " =~ " ++ v.display
  | equals v false => column ++ " = " ++ v.display
  | contains s => column ++ " CONTAINS '" ++ s ++ "'"
  | startsWith s => column ++ " STARTS WITH '" ++ s ++ "'"
  | endsWith s => column ++ " ENDS WITH '" ++ s ++ "'"
  | greater v => column ++ " > " ++ v.display
  | greaterOrEqual v => column ++ " >= " ++ v.display
  | less v => column ++ " < " ++ v.display
  | lessOrEqual v => column ++ " <= " ++ v.display
  | between low high => column ++ " BETWEEN " ++ low.display ++ " AND " ++ high.display

end Comparison

/-- Why a condition imposes nothing. -/
inductive Idle
  | unknownOperator (name : String)
  | missingUpperBound
  | invalidDateBound
deriving DecidableEq, Repr

/-- A predicate on records. -/
inductive Predicate
  /-- No condition at all. -/
  | everything
  /-- A condition that imposes nothing. -/
  | idle (reason : Idle)
  | clause (column : String) (comparison : Comparison)
  | not (inner : Predicate)
  | and (members : List Predicate)
  | or (members : List Predicate)
deriving Repr

namespace Predicate

instance : Inhabited Predicate := ⟨everything⟩

/-! ### Evaluation -/

mutual

/-- The truth value of a predicate under a valuation of its clauses. -/
def evaluateWith (clauseValue : String → Comparison → Option Bool) : Predicate → Option Bool
  | everything => some true
  | idle _ => some true
  | clause column c => clauseValue column c
  | not inner => Kleene.not (evaluateWith clauseValue inner)
  | and members => Kleene.all (evaluateEach clauseValue members)
  | or members => Kleene.any (evaluateEach clauseValue members)
termination_by structural p => p

/-- The truth values of a list of predicates. -/
def evaluateEach (clauseValue : String → Comparison → Option Bool) :
    List Predicate → List (Option Bool)
  | [] => []
  | p :: ps => evaluateWith clauseValue p :: evaluateEach clauseValue ps
termination_by structural ps => ps

end

/-- The members of a group are evaluated one by one. -/
theorem evaluateEach_eq (clauseValue : String → Comparison → Option Bool) (ps : List Predicate) :
    evaluateEach clauseValue ps = ps.map (evaluateWith clauseValue) := by
  induction ps with
  | nil => rfl
  | cons p ps ih => simp [evaluateEach, ih]

/-- The truth value of a predicate on a record. -/
def evaluate (p : Predicate) (r : Record) : Option Bool :=
  p.evaluateWith fun column c => c.evaluate (r.get column)

theorem evaluate_not (r : Record) (p : Predicate) :
    (not p).evaluate r = Kleene.not (p.evaluate r) := rfl

/-- The predicate selects the record. -/
def selects (p : Predicate) (r : Record) : Bool :=
  p.evaluate r == some true

/-- The predicate, or its negation. -/
def signed (negated : Bool) (p : Predicate) : Predicate :=
  if negated then not p else p

/-! ### Columns -/

mutual

/-- The columns of the clauses of a predicate from left to right. -/
def mentioned : Predicate → List String
  | everything => []
  | idle _ => []
  | clause column _ => [column]
  | not inner => mentioned inner
  | and members => mentionedIn members
  | or members => mentionedIn members
termination_by structural p => p

/-- The columns of the clauses of a list of predicates. -/
def mentionedIn : List Predicate → List String
  | [] => []
  | p :: ps => mentioned p ++ mentionedIn ps
termination_by structural ps => ps

end

/-- The columns that a predicate looks at, each once, in the order of their first clause. -/
def columns (p : Predicate) : List String :=
  p.mentioned.eraseDups

/-! ### Description -/

/-- Why a condition imposes nothing, in words. -/
def idleText : Idle → String
  | .unknownOperator name => "UnknownOperator(" ++ Text.quoted name ++ ")"
  | .missingUpperBound => "MissingUpperBound"
  | .invalidDateBound => "InvalidDateBound"

mutual

/-- A predicate in words. -/
def display : Predicate → String
  | everything => "ALL"
  | idle reason => "NOOP(" ++ idleText reason ++ ")"
  | clause column c => c.display column
  | not inner => "NOT(" ++ display inner ++ ")"
  | and members => "AND(" ++ String.intercalate ", " (displayEach members) ++ ")"
  | or members => "OR(" ++ String.intercalate ", " (displayEach members) ++ ")"
termination_by structural p => p

/-- A list of predicates in words. -/
def displayEach : List Predicate → List String
  | [] => []
  | p :: ps => display p :: displayEach ps
termination_by structural ps => ps

end

end Predicate

end CoachLedger
