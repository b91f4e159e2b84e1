/-
**Numbers as JSON texts write them.**

A number is an optional minus, digits without a superfluous leading zero, an optional fraction
and an optional exponent.  Without fraction and exponent it is an integer if it fits 64 bits.
Any other number is computed in two roundings: the longest run of leading digits that fits 64
bits is rounded to a number, which is then multiplied or divided by the number nearest to the
power of ten.

Main definitions:

* `CoachLedger.Json.Numeral.leading` — the longest run of leading digits that fits 64 bits;
* `CoachLedger.Json.Numeral.scaleByTen?` — a number times a power of ten, absent if too large;
* `CoachLedger.Json.Numeral.read?` — the numeral that a whole word denotes.
-/

import CoachLedger.Json.Basic

set_option autoImplicit false

namespace CoachLedger.Json.Numeral

/-- The largest integer that is kept as one. -/
def maxNatural : Nat := 0xFFFFFFFFFFFFFFFF

/-- The magnitude of the least integer that is kept as one. -/
def maxNegated : Nat := 0x8000000000000000

/-- Extends `n` by leading digits of the list as long as the result fits 64 bits; the second part
counts the digits that are left over. -/
def leading (n : Nat) : List Char → Nat × Nat
  | [] => (n, 0)
  | d :: ds =>
      if 10 * n + Decimal.digitValue d ≤ maxNatural then leading (10 * n + Decimal.digitValue d) ds
      else (n, ds.length + 1)

/-- The largest power of ten that is used in one step. -/
def maxPower : Nat := 308

/-- The number times `10 ^ e`, absent if it overflows.  Division beyond the largest power goes in
steps of that power. -/
def scaleByTen? (x : Binary64) (e : Int) : Option Binary64 :=
  if e.natAbs ≤ maxPower then
    if 0 ≤ e then
      let y := x.mul (.ofNat (Decimal.powerOfTen e.natAbs))
      if y.isFinite then some y else none
    else some (x.div (.ofNat (Decimal.powerOfTen e.natAbs)))
  else if x.isZero then some x
  else if 0 ≤ e then none
  else scaleByTen? (x.div (.ofNat (Decimal.powerOfTen maxPower))) (e + maxPower)
termination_by e.natAbs
decreasing_by simp only [maxPower] at *; omega

/-- The float of a sign, digits, further digits after the point and an exponent. -/
def float? (negative : Bool) (whole fraction : List Char) (e : Int) : Option Numeral :=
  let (n, droppedWhole) := leading 0 whole
  let (n, droppedFraction) := leading n fraction
  let used := fraction.length - droppedFraction
  (scaleByTen? (.ofNat n) (droppedWhole - used + e)).map fun x =>
    .float (if negative then x.negate else x)

/-- The numeral of a literal without fraction and exponent. -/
def integer? (negative : Bool) (whole : List Char) : Option Numeral :=
  let n := Decimal.ofDigits whole
  if negative then
    if n = 0 then some (.float (.ofRank true 0))
    else if n ≤ maxNegated then some (.integer (-n))
    else float? true whole [] 0
  else if n ≤ maxNatural then some (.integer n)
  else float? false whole [] 0

/-- An optional minus. -/
def splitMinus : List Char → Bool × List Char
  | '-' :: cs => (true, cs)
  | cs => (false, cs)

/-- A fraction, which needs at least one digit, and what follows it. -/
def splitFraction? : List Char → Option (Option (List Char) × List Char)
  | '.' :: cs =>
      let (fraction, cs) := Decimal.splitDigits cs
      if fraction.isEmpty then none else some (some fraction, cs)
  | cs => some (none, cs)

/-- The digits start with a zero only if they are that zero. -/
def plainWhole (whole : List Char) : Bool :=
  whole == ['0'] || (whole.head?.any fun c => c != '0')

/-- The numeral that a whole word denotes: absent if the word is no number, and `some none` if
the number is too large. -/
def read? (word : List Char) : Option (Option Numeral) :=
  let (negative, cs) := splitMinus word
  let (whole, cs) := Decimal.splitDigits cs
  if plainWhole whole then
    match splitFraction? cs with
    | none => none
    | some (fraction, cs) =>
        (Decimal.readExponent? cs).map fun e =>
          match fraction, cs with
          | none, [] => integer? negative whole
          | fraction, _ => float? negative whole (fraction.getD []) e
  else none

example : read? "18446744073709551615".toList = some (some (.integer 18446744073709551615)) := by
  decide +kernel
example : read? "-9223372036854775808".toList = some (some (.integer (-9223372036854775808))) := by
  decide +kernel
example : read? "01".toList = none ∧ read? "1.".toList = none ∧ read? "-".toList = none := by
  decide +kernel

end CoachLedger.Json.Numeral
