/-
**Texts of reals.**

The storage engine writes a real with fifteen significant digits and reads a text that looks like a
number as a real.  Both go through numbers with 64 significant bits, so that neither is always as
close as it could be: a real that is written and read back may come out as a neighbour.

A text that is read keeps as many digits as fit into 64 bits.  Then the decimal point is moved,
first as far as the digits themselves allow, and the rest of the way in the wider format.

Main definitions:

* `CoachLedger.Sql.Numeral.text` — the text of a real;
* `CoachLedger.Sql.Numeral.ofDecimal` — the real that a decimal is read as.
-/

import CoachLedger.Binary64.Layout
import CoachLedger.Binary64.Wide

set_option autoImplicit false

namespace CoachLedger.Sql.Numeral

open CoachLedger.Binary64 (Wide)

/-! ### Writing -/

/-- The powers from `0.0001` to `100000000000000.0` are positional, and there is always a point. -/
def layout : Decimal.Layout := ⟨some (-4, 14), true, true, 2⟩

/-- The number of significant digits of a real. -/
def digitCount : Nat := 15

/-- The decimal that a real of the given rank is written as.  The digits after the fifteenth are
cut off, but the sixteenth rounds a half up. -/
def decimal (rank : Nat) : Decimal :=
  let (a, e) := (Wide.ofRank rank).normalize
  let n := a.floor
  let surplus := (Decimal.digits n).length - digitCount
  let half := n / Decimal.powerOfTen (surplus - 1) % 10
  let kept := n / Decimal.powerOfTen surplus
  (Decimal.mk (if surplus ≠ 0 ∧ 5 ≤ half then kept + 1 else kept) (e + surplus)).strip

/-- The text of a real. -/
def text (negative : Bool) (rank : Nat) : String :=
  let sign := if negative ∧ rank ≠ 0 then "-" else ""
  if rank = Binary64.topRank then sign ++ "Inf"
  else if rank = 0 then "0.0"
  else sign ++ String.ofList ((decimal rank).write layout)

/-! ### Reading -/

/-- From this coefficient on no further digit is read. -/
def fullCoefficient : Nat := 1844674407370955160

/-- The decimal with the digits that are read: those up to the first one with which the coefficient
is full. -/
def kept (d : Decimal) : Decimal :=
  if h : fullCoefficient ≤ d.coefficient / 10 then kept ⟨d.coefficient / 10, d.exponent + 1⟩ else d
termination_by d.coefficient
decreasing_by
  have : 0 < fullCoefficient := by decide
  omega

/-- Moves the decimal point to the right by at most the given number of places, as long as the
coefficient fits into 64 bits, and returns the places that are left. -/
def moveRight : Nat → Nat → Nat × Nat
  | 0, n => (n, 0)
  | places + 1, n =>
      if n ≤ fullCoefficient then moveRight places (10 * n) else (n, places + 1)

/-- Moves the decimal point to the left by at most the given number of places, as long as the
coefficient ends in a zero, and returns the places that are left. -/
def moveLeft : Nat → Nat → Nat × Nat
  | 0, n => (n, 0)
  | places + 1, n => if n % 10 = 0 then moveLeft places (n / 10) else (n, places + 1)

/-- The decimal with an exponent that is as near to zero as the digits allow. -/
def settle (d : Decimal) : Decimal :=
  if 0 ≤ d.exponent then
    let (n, places) := moveRight d.exponent.toNat d.coefficient
    ⟨n, places⟩
  else
    let (n, places) := moveLeft (-d.exponent).toNat d.coefficient
    ⟨n, -places⟩

/-- Past this exponent a coefficient of 64 bits is infinite, or zero. -/
def maxExponent : Int := 400

/-- The rank of the real that a decimal is read as. -/
def rankOf (d : Decimal) : Nat :=
  let d := kept d
  if d.coefficient = 0 ∨ d.exponent < -maxExponent then 0
  else if maxExponent < d.exponent then Binary64.topRank
  else
    let d := settle d
    if d.exponent = 0 then Binary64.nearestRank d.coefficient 1
    else ((Wide.round d.coefficient 0).scale d.exponent).rank

/-- The real that a signed decimal is read as. -/
def ofDecimal (negative : Bool) (d : Decimal) : Binary64 :=
  .ofRank negative (rankOf d)

example : rankOf ⟨812546902, -5⟩ = Binary64.nearestRank 812546902 100000 + 1 := by decide +kernel
example : rankOf ⟨1, -1⟩ = Binary64.nearestRank 1 10 := by decide +kernel
example : decimal (Binary64.nearestRank 1 10) = ⟨1, -1⟩ := by decide +kernel

end CoachLedger.Sql.Numeral
