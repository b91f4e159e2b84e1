/-
**Decimals and their digits.**

A decimal is a natural coefficient times a power of ten.  Numbers are printed from decimals and
read into them; this module holds the type, the digits of a natural number, and the reading of
the usual notation: sign, digits with an optional point, optional exponent.

Main definitions:

* `CoachLedger.Decimal` — a coefficient and an exponent of ten;
* `CoachLedger.Decimal.digits`, `CoachLedger.Decimal.ofDigits` — the decimal digits of a natural
  number, and the number that digits denote;
* `CoachLedger.Decimal.powerOfTen` — the powers of ten;
* `CoachLedger.Decimal.read?` — the signed decimal that a whole text denotes.

Main results:

* `CoachLedger.Decimal.ofDigits_digits` — the digits of a number denote it;
* `CoachLedger.Decimal.powerOfTen_pos` — a power of ten is positive.
-/

set_option autoImplicit false

namespace CoachLedger

/-- The number `coefficient * 10 ^ exponent`. -/
structure Decimal where
  /-- The digits as one natural number. -/
  coefficient : Nat
  /-- The power of ten. -/
  exponent : Int
deriving DecidableEq, Repr

namespace Decimal

/-! ### Digits -/

/-- The decimal digits of a number, most significant first. -/
def digits (n : Nat) : List Char :=
  Nat.toDigits 10 n

/-- The value of a digit. -/
def digitValue (c : Char) : Nat :=
  c.toNat - '0'.toNat

/-- The number denoted by a list of digits. -/
def ofDigits (cs : List Char) : Nat :=
  cs.foldl (fun n c => 10 * n + digitValue c) 0

/-- The digits of a number denote it. -/
theorem ofDigits_digits (n : Nat) : ofDigits (digits n) = n :=
  Nat.ofDigitChars_toDigits (by decide) (by decide)

/-- The digits of `n`, filled up with zeros on the left to at least `width`. -/
def padded (width n : Nat) : List Char :=
  let ds := digits n
  List.replicate (width - ds.length) '0' ++ ds

/-- The power of ten with a natural exponent. -/
def powerOfTen (e : Nat) : Nat :=
  Nat.pow 10 e

theorem powerOfTen_succ (e : Nat) : powerOfTen (e + 1) = powerOfTen e * 10 := rfl

/-- A power of ten is positive, so that it can be divided by. -/
theorem powerOfTen_pos (e : Nat) : 0 < powerOfTen e := by
  induction e with
  | zero => decide
  | succ e ih => rw [powerOfTen_succ]; omega

/-- The same number with a coefficient that does not end in a zero. -/
def strip (d : Decimal) : Decimal :=
  if h : d.coefficient ≠ 0 ∧ d.coefficient % 10 = 0 then
    strip ⟨d.coefficient / 10, d.exponent + 1⟩
  else d
termination_by d.coefficient
decreasing_by omega

/-! ### Reading -/

/-- An optional sign: whether it is a minus, and what follows it. -/
def splitSign : List Char → Bool × List Char
  | '-' :: cs => (true, cs)
  | '+' :: cs => (false, cs)
  | cs => (false, cs)

/-- The digits at the front of a text, and what follows them. -/
def splitDigits (cs : List Char) : List Char × List Char :=
  (cs.takeWhile Char.isDigit, cs.dropWhile Char.isDigit)

/-- The digits after an optional point, and what follows them. -/
def splitFraction : List Char → List Char × List Char
  | '.' :: cs => splitDigits cs
  | cs => ([], cs)

/-- The exponent that fills the rest of a text: none at all is zero; after `e` or `E` an optional
sign and at least one digit are required. -/
def readExponent? : List Char → Option Int
  | [] => some 0
  | c :: cs =>
      if c = 'e' ∨ c = 'E' then
        let (negative, cs) := splitSign cs
        if cs ≠ [] ∧ cs.all Char.isDigit then
          some (if negative then -(ofDigits cs : Int) else ofDigits cs)
        else none
      else none

/-- The sign and the decimal denoted by a whole text: an optional sign, digits of which some may
follow a point, at least one in all, and an optional exponent. -/
def read? (cs : List Char) : Option (Bool × Decimal) :=
  let (negative, cs) := splitSign cs
  let (whole, cs) := splitDigits cs
  let (fraction, cs) := splitFraction cs
  if whole.isEmpty && fraction.isEmpty then none
  else
    (readExponent? cs).map fun e =>
      (negative, ⟨ofDigits (whole ++ fraction), e - fraction.length⟩)

example : read? "-12.50e3".toList = some (true, ⟨1250, 1⟩) := by decide
example : read? ".5".toList = some (false, ⟨5, -1⟩) := by decide
example : read? "5.".toList = some (false, ⟨5, 0⟩) := by decide
example : read? ".".toList = none ∧ read? "1e".toList = none ∧ read? "--5".toList = none := by
  decide

end Decimal

end CoachLedger
