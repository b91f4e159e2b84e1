/-
**Rounding to the nearest number.**

A quotient of natural numbers is rounded to the binary64 number nearest to it, a tie going to the
number of even rank.  Decimal texts are rounded this way, and so are the products and quotients
by a power of ten that reading a number in a JSON text consists of.

Main definitions:

* `CoachLedger.Binary64.halfEven` — a quotient rounded to the nearest integer, ties to even;
* `CoachLedger.Binary64.nearestRank` — the rank nearest to a quotient;
* `CoachLedger.Binary64.ofInt`, `CoachLedger.Binary64.ofDecimal` — the number nearest to an
  integer, and to a signed decimal;
* `CoachLedger.Binary64.mul`, `CoachLedger.Binary64.div` — product and quotient, rounded.

Main results:

* `CoachLedger.Binary64.halfEven_mul` — an exact quotient is not changed by rounding.
-/

import CoachLedger.Binary64.Basic
import CoachLedger.Decimal.Basic

set_option autoImplicit false

namespace CoachLedger.Binary64

/-- The integer nearest to `n / d`; a tie goes to the even one. -/
def halfEven (n d : Nat) : Nat :=
  let q := n / d
  let r := n % d
  if 2 * r < d then q
  else if d < 2 * r then q + 1
  else q + q % 2

/-- An exact quotient is not changed by rounding. -/
theorem halfEven_mul (q d : Nat) (h : 0 < d) : halfEven (q * d) d = q := by
  simp [halfEven, Nat.mul_div_cancel q h, h]

/-- The rank nearest to `n / d`, a tie going to the even rank.

With `v` the quotient in units of `2 ^ (-1074)` and `2 ^ shift` the distance of the numbers near
it, the nearest multiple `m * 2 ^ shift` of that distance has rank `m + shift * 2 ^ 52`; if the
rounding carries into the next exponent, the same sum is the right rank there. -/
def nearestRank (n d : Nat) : Nat :=
  let v := n <<< 1074
  let shift := (v / d).log2 - 52
  min (halfEven v (d <<< shift) + shift * fractions) topRank

/-- The number nearest to `n / d`, with a sign. -/
def ofRatio (negative : Bool) (n d : Nat) : Binary64 :=
  ofRank negative (nearestRank n d)

/-- The number nearest to a natural number. -/
def ofNat (n : Nat) : Binary64 :=
  ofRatio false n 1

/-- The number nearest to an integer. -/
def ofInt (i : Int) : Binary64 :=
  ofRatio (i < 0) i.natAbs 1

/-- The number nearest to a signed decimal.

A coefficient `c` has fewer than `c.log2 + 2` digits, so outside the two bounds on the exponent
the result is zero or infinity without computing the power of ten. -/
def ofDecimal (negative : Bool) (d : Decimal) : Binary64 :=
  if d.coefficient = 0 then ofRank negative 0
  else if 400 < d.exponent then infinity negative
  else if d.exponent < -400 - d.coefficient.log2 then ofRank negative 0
  else if 0 ≤ d.exponent then
      ofRatio negative (d.coefficient * Decimal.powerOfTen d.exponent.toNat) 1
  else ofRatio negative d.coefficient (Decimal.powerOfTen (-d.exponent).toNat)

/-- The product of two numbers, rounded. -/
def mul : Binary64 → Binary64 → Binary64
  | signed s a _, signed t b _ =>
      if a < topRank ∧ b < topRank then ofRatio (s != t) (units a * units b) (scale * scale)
      else if a = 0 ∨ b = 0 then nan
      else infinity (s != t)
  | _, _ => nan

/-- The quotient of two numbers, rounded. -/
def div : Binary64 → Binary64 → Binary64
  | signed s a _, signed t b _ =>
      if a < topRank ∧ b < topRank ∧ 0 < b then ofRatio (s != t) (units a) (units b)
      else if a < topRank ∧ b = topRank then ofRank (s != t) 0
      else if a = topRank ∧ b < topRank then infinity (s != t)
      else if b = 0 ∧ 0 < a then infinity (s != t)
      else nan
  | _, _ => nan

example : ofInt 1 = ofRank false 0x3FF0000000000000 := by decide +kernel
example : (ofInt 9007199254740993).integer? = some 9007199254740992 := by decide +kernel
example : ofDecimal false ⟨25, -325⟩ = ofRank false 1 := by decide +kernel
example : ofDecimal true ⟨17976931348623159, 292⟩ = infinity true := by decide +kernel

end CoachLedger.Binary64
