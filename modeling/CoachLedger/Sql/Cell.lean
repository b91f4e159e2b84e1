/-
**Cells of stored rows.**

The storage engine keeps each value as null, an integer, a real or a text, whatever its column.
The column has an affinity, which turns what is stored or compared towards texts or towards
numbers.  Numbers come before texts, numbers compare by their exact values, and texts by their
code points.

Main definitions:

* `CoachLedger.Sql.Cell` — cells;
* `CoachLedger.Sql.Affinity` — the two affinities, and what they do to a cell;
* `CoachLedger.Sql.Cell.ofValue`, `CoachLedger.Sql.Cell.toValue` — the cell of a field value, and
  the field value of a cell;
* `CoachLedger.Sql.Cell.text?` — the text of a cell;
* `CoachLedger.Sql.Cell.compare` — the order of two cells that are not null.

Main results:

* `CoachLedger.Sql.Cell.compare_isSome` — any two cells that are not null compare.
-/

import CoachLedger.Sql.Numeral
import CoachLedger.Value.Compare

set_option autoImplicit false

namespace CoachLedger.Sql

/-- What a stored row holds in one column.  A real is never not-a-number. -/
inductive Cell
  | null
  | integer (i : Int)
  | real (negative : Bool) (rank : Fin (Binary64.topRank + 1))
  | text (s : String)
deriving DecidableEq, Repr

/-- What a column turns its values towards. -/
inductive Affinity
  | text
  | numeric
deriving DecidableEq, Repr

/-- The affinity of the columns of a kind: texts and dates are texts, numbers and booleans are
numbers. -/
def Affinity.ofKind : Kind → Affinity
  | .text | .date => text
  | .number | .boolean => numeric

namespace Cell

/-- The cell is null. -/
def isNull : Cell → Bool
  | null => true
  | _ => false

/-- A number as a cell; not-a-number is null. -/
def ofNumber : Binary64 → Cell
  | .nan => null
  | .signed negative rank h => real negative ⟨rank, Nat.lt_succ_of_le h⟩

/-! ### Texts of numbers -/

/-- The text of a cell; null has none. -/
def text? : Cell → Option String
  | null => none
  | integer i => some (toString i)
  | real negative rank => some (Numeral.text negative rank)
  | text s => some s

/-! ### Numbers of texts -/

/-- The blanks that may stand around a number. -/
def isGap (c : Char) : Bool :=
  c == ' ' || (0x09 ≤ c.toNat && c.toNat ≤ 0x0D)

/-- The least and the greatest integer that a cell can hold. -/
def minInteger : Int := -0x8000000000000000

/-- The greatest integer that a cell can hold. -/
def maxInteger : Int := 0x7FFFFFFFFFFFFFFF

/-- The characters between the blanks at the two ends. -/
def bare (cs : List Char) : List Char :=
  ((cs.dropWhile isGap).reverse.dropWhile isGap).reverse

/-- The characters after a sign are digits only. -/
def isInteger (cs : List Char) : Bool :=
  let ds := (Decimal.splitSign cs).2
  !ds.isEmpty && ds.all Char.isDigit

/-- The number that a whole text looks like: an integer if it is written as one and can be held,
and else a real. -/
def readNumber? (s : String) : Option Cell :=
  let cs := bare s.toList
  (Decimal.read? cs).map fun (negative, d) =>
    let i : Int := if negative then -(d.coefficient : Int) else d.coefficient
    if isInteger cs ∧ minInteger ≤ i ∧ i ≤ maxInteger then integer i
    else ofNumber (Numeral.ofDecimal negative d)

/-! ### Affinity -/

/-- A cell as it is compared with a column of the given affinity. -/
def towards : Affinity → Cell → Cell
  | .text, integer i => text (toString i)
  | .text, real negative rank => text (Numeral.text negative rank)
  | .numeric, text s => (readNumber? s).getD (text s)
  | _, c => c

/-- A real that is an integer within the bounds of integers, both excluded on the low side, is
stored as that integer in a numeric column. -/
def settle : Affinity → Cell → Cell
  | .numeric, real negative rank =>
      match (Binary64.signed negative rank rank.is_le).integer? with
      | some i => if minInteger < i ∧ i < maxInteger then integer i else real negative rank
      | none => real negative rank
  | _, c => c

/-- A cell as it is stored in a column of the given affinity. -/
def stored (a : Affinity) (c : Cell) : Cell :=
  settle a (towards a c)

/-! ### Field values -/

/-- The cell of a field value as a parameter. -/
def ofValue : Value → Cell
  | .null => null
  | .text s => text s
  | .number x =>
      match x.exactInteger? with
      | some i => integer i
      | none => ofNumber x
  | .date d => text d.text
  | .boolean b => integer (if b then 1 else 0)

/-- The field value of a cell in a column of the given kind. -/
def toValue (k : Kind) (c : Cell) : Value :=
  match k, c with
  | .text, text s => .text s
  | .number, integer i => .number (.ofInt i)
  | .number, real negative rank => .number (.signed negative rank rank.is_le)
  | .date, text s => ((Date.read? s).map .date).getD .null
  | .boolean, integer i => .boolean (i != 0)
  | _, _ => .null

/-! ### Order -/

/-- The sign and the magnitude of a number in units of `2 ^ (-1074)`; infinity is past all
others. -/
def scaled : Cell → Option Int
  | integer i => some (i * Binary64.scale)
  | real negative rank =>
      some (if negative then -(Binary64.units rank : Int) else Binary64.units rank)
  | _ => none

/-- The order of two cells that are not null. -/
def compare : Cell → Cell → Option Ordering
  | null, _ => none
  | _, null => none
  | text s, text t => some (Text.order s t)
  | text _, _ => some .gt
  | _, text _ => some .lt
  | a, b => (a.scaled).bind fun x => (b.scaled).map fun y => Ord.compare x y

/-- Any two cells that are not null compare. -/
theorem compare_isSome (a b : Cell) : (a.compare b).isSome = (!a.isNull && !b.isNull) := by
  cases a <;> cases b <;> rfl

end Cell

end CoachLedger.Sql
