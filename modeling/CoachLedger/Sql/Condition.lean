/-
**SQL conditions.**

A predicate is written as the condition of a `WHERE` clause.  The operands never become part of
the text: each stands in it as a placeholder, and the values are listed as parameters in the
order of their placeholders.

Main definitions:

* `CoachLedger.Sql.Condition` — conditions;
* `CoachLedger.Sql.Condition.ofPredicate` — the condition of a predicate;
* `CoachLedger.Sql.Condition.render` — the text of a condition, and its parameters;
* `CoachLedger.Sql.Condition.fits` — the condition is within the limits of the engine.

Main results:

* `CoachLedger.Sql.Condition.render_parameters` — the parameters are the operands of the
  condition, whatever the dialect and the columns.
-/

import CoachLedger.Predicate.Basic
import CoachLedger.Sql.Dialect
import CoachLedger.Sql.Pattern

set_option autoImplicit false

namespace CoachLedger.Sql

/-- A comparison operator. -/
inductive Relation
  | equal
  | greater
  | greaterOrEqual
  | less
  | lessOrEqual
deriving DecidableEq, Repr

namespace Relation

/-- The spelling of an operator. -/
def symbol : Relation → String
  | equal => "="
  | greater => ">"
  | greaterOrEqual => ">="
  | less => "<"
  | lessOrEqual => "<="

/-- The operator holds of two values in the given order. -/
def holds : Relation → Ordering → Bool
  | equal, o => o == .eq
  | greater, o => o.isGT
  | greaterOrEqual, o => o.isGE
  | less, o => o.isLT
  | lessOrEqual, o => o.isLE

end Relation

/-- A condition on a row. -/
inductive Condition
  | always
  | isNull (column : String)
  | compare (column : String) (relation : Relation) (operand : Value)
  /-- The column equals the operand without regard to case. -/
  | equalsFolded (column : String) (operand : Value)
  /-- The column matches the pattern without regard to case. -/
  | like (column : String) (pattern : String)
  | between (column : String) (low high : Value)
  | not (inner : Condition)
  | and (members : List Condition)
  | or (members : List Condition)

namespace Condition

/-! ### Predicates as conditions -/

/-- A pattern for the texts that contain the needle. -/
def containing (needle : String) : String := "%" ++ escapeText needle ++ "%"

/-- A pattern for the texts that start with the needle. -/
def startingWith (needle : String) : String := escapeText needle ++ "%"

/-- A pattern for the texts that end with the needle. -/
def endingWith (needle : String) : String := "%" ++ escapeText needle

/-- The condition of a comparison. -/
def ofComparison (column : String) : Comparison → Condition
  | .isNull => isNull column
  | .equals v true => equalsFolded column v
  | .equals v false => compare column .equal v
  | .contains s => like column (containing s)
  | .startsWith s => like column (startingWith s)
  | .endsWith s => like column (endingWith s)
  | .greater v => compare column .greater v
  | .greaterOrEqual v => compare column .greaterOrEqual v
  | .less v => compare column .less v
  | .lessOrEqual v => compare column .lessOrEqual v
  | .between low high => between column low high

mutual

/-- The condition of a predicate. -/
def ofPredicate : Predicate → Condition
  | .everything => always
  | .idle _ => always
  | .clause column c => ofComparison column c
  | .not inner => not (ofPredicate inner)
  | .and members => and (ofPredicates members)
  | .or members => or (ofPredicates members)
termination_by structural p => p

/-- The conditions of a list of predicates. -/
def ofPredicates : List Predicate → List Condition
  | [] => []
  | p :: ps => ofPredicate p :: ofPredicates ps
termination_by structural ps => ps

end

/-! ### Parameters -/

mutual

/-- The operands of a condition from left to right. -/
def operands : Condition → List Value
  | always => []
  | isNull _ => []
  | compare _ _ v => [v]
  | equalsFolded _ v => [v]
  | like _ p => [.text p]
  | between _ low high => [low, high]
  | not inner => operands inner
  | and members => operandsOf members
  | or members => operandsOf members
termination_by structural c => c

/-- The operands of a list of conditions from left to right. -/
def operandsOf : List Condition → List Value
  | [] => []
  | c :: cs => operands c ++ operandsOf cs
termination_by structural cs => cs

end

/-! ### Text -/

/-- The placeholder of the next parameter after `count` others; a date is compared as a date. -/
def operandText (d : Dialect) (count : Nat) (v : Value) : String :=
  let p := d.placeholder (count + 1)
  if v.kind? == some .date then d.dateParameter p else p

/-- Texts in parentheses, joined; without any text there is a replacement. -/
def joined (joiner absent : String) (parts : List String) : String :=
  if parts.isEmpty then absent else "(" ++ String.intercalate joiner parts ++ ")"

mutual

/-- The text of a condition that follows `count` parameters.  `column` writes the name of a
column. -/
def text (d : Dialect) (column : String → String) (count : Nat) : Condition → String
  | always => "1=1"
  | isNull c => column c ++ " IS NULL"
  | compare c r v => column c ++ " " ++ r.symbol ++ " " ++ operandText d count v
  | equalsFolded c _ => d.equalsFolded (column c) (d.placeholder (count + 1))
  | like c _ => d.like (column c) (d.placeholder (count + 1))
  | between c low high =>
      column c ++ " BETWEEN " ++ operandText d count low ++ " AND " ++
        operandText d (count + 1) high
  | not inner => "NOT (" ++ text d column count inner ++ ")"
  | and members => joined " AND " "1=1" (texts d column count members)
  | or members => joined " OR " "1=0" (texts d column count members)
termination_by structural c => c

/-- The texts of conditions that follow one another. -/
def texts (d : Dialect) (column : String → String) (count : Nat) : List Condition → List String
  | [] => []
  | c :: cs => text d column count c :: texts d column (count + (operands c).length) cs
termination_by structural cs => cs

end

/-- A condition as text, with its parameters after those given. -/
def render (d : Dialect) (column : String → String) (before : List Value) (c : Condition) :
    String × List Value :=
  (c.text d column before.length, before ++ c.operands)

/-- The parameters are the operands of the condition, whatever the dialect and the columns. -/
theorem render_parameters (d : Dialect) (column : String → String) (before : List Value)
    (c : Condition) : (c.render d column before).2 = before ++ c.operands := rfl

/-- The name of a column of a table with an alias; an empty alias is none. -/
def qualified (alias_ : String) (column : String) : String :=
  if alias_ = "" then column else alias_ ++ "." ++ column

/-! ### Limits of the engine -/

/-- The deepest nesting of expressions that the engine accepts. -/
def maxHeight : Nat := 1000

/-- The largest number of parameters that the engine accepts. -/
def maxParameters : Nat := 32766

mutual

/-- The nesting of expressions in a condition.  A group nests from the left. -/
def height : Condition → Nat
  | always => 2
  | isNull _ => 2
  | compare .. => 2
  | equalsFolded .. => 3
  | like .. => 3
  | between .. => 2
  | not inner => height inner + 1
  | and members => groupHeight 0 members
  | or members => groupHeight 0 members
termination_by structural c => c

/-- The nesting of a group whose members so far nest to the given height; `0` stands for no
member. -/
def groupHeight (before : Nat) : List Condition → Nat
  | [] => max before 2
  | c :: cs =>
      groupHeight (if before = 0 then height c else max before (height c) + 1) cs
termination_by structural cs => cs

end

/-- The condition is within the limits of the engine. -/
def fits (c : Condition) : Bool :=
  c.height ≤ maxHeight && c.operands.length ≤ maxParameters

end Condition

end CoachLedger.Sql
