/-
**Truth of SQL conditions.**

The storage engine gives each condition one of three truth values on a row.  Comparisons bring
the operand to the affinity of the column; case-insensitive ones look at texts, with the letters
`A` to `Z` folded.  A pattern ends at its first NUL, as does the text that it is matched with, and
in both the noncharacters U+FFFE and U+FFFF are the same as the replacement character.

A pattern that is too long makes the engine give up, but only if it gets to evaluate it, and
groups are evaluated from left to right no further than needed.

Main definitions:

* `CoachLedger.Sql.Row` — what a condition can look at;
* `CoachLedger.Sql.Condition.truth` — the truth value of a condition on a row;
* `CoachLedger.Sql.Condition.selects` — the rows that a condition selects;
* `CoachLedger.Sql.Condition.overruns` — the engine gives up on a row.

Main results:

* `CoachLedger.Sql.Condition.truthEach_eq` — the members of a group are evaluated one by one.
-/

import CoachLedger.Sql.Cell
import CoachLedger.Sql.Condition

set_option autoImplicit false

namespace CoachLedger.Sql

/-- The cells of a row by the names of their columns, with the affinity of each column. -/
structure Row where
  cell : String → Cell
  affinity : String → Affinity

/-- A character as the engine reads it in a text: two noncharacters turn into the replacement
character. -/
def readChar (c : Char) : Char :=
  if c.toNat = 0xFFFE ∨ c.toNat = 0xFFFF then '\uFFFD' else c

/-- The characters before the first NUL, as the engine reads them. -/
def beforeNul (s : String) : List Char :=
  (s.toList.takeWhile fun c => c.toNat != 0).map readChar

/-- A text matches a pattern. -/
def matchesPattern (pattern_ s : String) : Bool :=
  accepts (pattern (beforeNul pattern_)) (beforeNul s)

namespace Condition

/-- The relation between a column and an operand. -/
def compared (row : Row) (column : String) (relation : Relation) (v : Value) : Option Bool :=
  ((row.cell column).compare ((Cell.ofValue v).towards (row.affinity column))).map relation.holds

/-- The folded text of a cell. -/
def foldedText (c : Cell) : Option String :=
  c.text?.map Text.fold

mutual

/-- The truth value of a condition on a row. -/
def truth (row : Row) : Condition → Option Bool
  | always => some true
  | isNull c => some (row.cell c).isNull
  | compare c r v => compared row c r v
  | equalsFolded c v =>
      (foldedText (row.cell c)).bind fun s =>
        (foldedText (Cell.ofValue v)).map fun t => s == t
  | like c p => (foldedText (row.cell c)).map fun s => matchesPattern (Text.fold p) s
  | between c low high =>
      Kleene.and (compared row c .greaterOrEqual low) (compared row c .lessOrEqual high)
  | not inner => Kleene.not (truth row inner)
  | and members => Kleene.all (truthEach row members)
  | or members => Kleene.any (truthEach row members)
termination_by structural c => c

/-- The truth values of a list of conditions. -/
def truthEach (row : Row) : List Condition → List (Option Bool)
  | [] => []
  | c :: cs => truth row c :: truthEach row cs
termination_by structural cs => cs

end

/-- The members of a group are evaluated one by one. -/
theorem truthEach_eq (row : Row) (cs : List Condition) :
    truthEach row cs = cs.map (truth row) := by
  induction cs with
  | nil => rfl
  | cons c cs ih => simp [truthEach, ih]

/-- The condition selects the row. -/
def selects (c : Condition) (row : Row) : Bool :=
  c.truth row == some true

/-- The longest pattern in UTF-8 bytes that is matched. -/
def maxPatternBytes : Nat := 50000

mutual

/-- The engine meets a pattern that is too long when it evaluates a condition.  `unknownIs` is
the truth value that an unknown member counts as: the one that ends the evaluation of the whole
condition without selecting the row. -/
def overruns (row : Row) (unknownIs : Bool) : Condition → Bool
  | like _ p => maxPatternBytes < p.utf8ByteSize
  | not inner => overruns row (!unknownIs) inner
  | and members => overrunsUntil row unknownIs false members
  | or members => overrunsUntil row unknownIs true members
  | _ => false
termination_by structural c => c

/-- The same for the members of a group, up to the first one with the truth value `stop`. -/
def overrunsUntil (row : Row) (unknownIs stop : Bool) : List Condition → Bool
  | [] => false
  | c :: cs =>
      overruns row unknownIs c ||
        ((truth row c).getD unknownIs != stop && overrunsUntil row unknownIs stop cs)
termination_by structural cs => cs

end

end Condition

end CoachLedger.Sql
