/-
**Numbers of the binary64 format.**

The numeric fields of a record hold numbers of the binary64 format of IEEE 754.  Here such a
number is not a machine word but its place in the order: the magnitudes of the format are the
ranks `0, 1, 2, …, topRank`, where rank `0` is zero, rank `1` the least subnormal number, and the
top rank infinity.  Comparing numbers is comparing signed ranks, and the exact value of a rank is
a natural number of units of `2 ^ (-1074)`, so that every rounding question is one about natural
numbers.

Main definitions:

* `CoachLedger.Binary64` — not-a-number, or a sign and a rank;
* `CoachLedger.Binary64.units` — the exact value of a rank, in units of `2 ^ (-1074)`;
* `CoachLedger.Binary64.compare` — the order of numbers, absent for not-a-number;
* `CoachLedger.Binary64.integer?`, `CoachLedger.Binary64.exactInteger?` — the integer that a
  number is, without a bound and within the range where integers are exact.

Main results:

* `CoachLedger.Binary64.compare_swap` — swapping the arguments reverses the order;
* `CoachLedger.Binary64.compare_self` — a number equals itself unless it is not-a-number.
-/

set_option autoImplicit false

namespace CoachLedger

/-- The rank of infinity: all exponents below it, with `2 ^ 52` fractions each. -/
def Binary64.topRank : Nat := 0x7FF0000000000000

/-- A number of the binary64 format. -/
inductive Binary64
  /-- Not a number. -/
  | nan
  /-- The magnitude of the given rank, negated if `negative`. -/
  | signed (negative : Bool) (rank : Nat) (rank_le : rank ≤ Binary64.topRank)
deriving DecidableEq, Repr

namespace Binary64

instance : Inhabited Binary64 := ⟨nan⟩

/-- The number of fractions that share an exponent. -/
abbrev fractions : Nat := 0x10000000000000

/-- The number of units in one: the least positive number is `1 / scale`. -/
abbrev scale : Nat := 1 <<< 1074

/-- The exact value of a rank in units of `2 ^ (-1074)`. -/
def units (rank : Nat) : Nat :=
  if rank < fractions then rank
  else (fractions + rank % fractions) <<< (rank / fractions - 1)

/-- The number with the given sign and rank; ranks past infinity are infinity. -/
def ofRank (negative : Bool) (rank : Nat) : Binary64 :=
  signed negative (min rank topRank) (Nat.min_le_right ..)

/-- Zero, without a sign. -/
def zero : Binary64 := ofRank false 0

/-- The infinity of the given sign. -/
def infinity (negative : Bool) : Binary64 := ofRank negative topRank

/-- The number with the opposite sign. -/
def negate : Binary64 → Binary64
  | nan => nan
  | signed negative rank h => signed (!negative) rank h

/-- The number is neither infinite nor not-a-number. -/
def isFinite : Binary64 → Bool
  | nan => false
  | signed _ rank _ => rank < topRank

/-- The number is zero, of either sign. -/
def isZero : Binary64 → Bool
  | nan => false
  | signed _ rank _ => rank == 0

/-! ### Order -/

/-- The rank with its sign.  Both zeros have key `0`. -/
def key : Binary64 → Option Int
  | nan => none
  | signed negative rank _ => some (if negative then -(rank : Int) else rank)

/-- The order of two numbers; not-a-number compares with nothing. -/
def compare (a b : Binary64) : Option Ordering :=
  match a.key, b.key with
  | some x, some y => some (Ord.compare x y)
  | _, _ => none

/-- The numbers are equal in the order: the zeros are, not-a-number is not even to itself. -/
def same (a b : Binary64) : Bool :=
  a.compare b == some .eq

/-- Swapping the arguments reverses the order. -/
theorem compare_swap (a b : Binary64) : (a.compare b).map Ordering.swap = b.compare a := by
  unfold compare
  cases a.key <;> cases b.key <;> simp [Int.compare_swap]

/-- A number equals itself unless it is not-a-number. -/
theorem compare_self (a : Binary64) (h : a ≠ nan) : a.compare a = some .eq := by
  cases a with
  | nan => exact absurd rfl h
  | signed negative rank le => simp [compare, key]

/-! ### Integers -/

/-- The integer that the number is, if it is one. -/
def integer? : Binary64 → Option Int
  | nan => none
  | signed negative rank _ =>
      if rank < topRank ∧ units rank % scale = 0 then
        let n : Int := units rank / scale
        some (if negative then -n else n)
      else none

/-- The largest magnitude up to which every integer is a number. -/
def maxExactInteger : Nat := 0x1FFFFFFFFFFFFF

/-- The integer that the number is, if it is one in the range where all integers are exact. -/
def exactInteger? (x : Binary64) : Option Int :=
  x.integer?.filter fun i => i.natAbs ≤ maxExactInteger

end Binary64

end CoachLedger
