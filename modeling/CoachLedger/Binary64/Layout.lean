/-
**Layouts of decimals as text.**

A decimal is written positionally, such as `1500.0`, or scientifically, such as `1.5e+20`.  A
layout says which exponents are positional and how the point and the exponent are written; each
module that prints numbers holds its own layout as one value.

Main definitions:

* `CoachLedger.Decimal.Layout` — the choices;
* `CoachLedger.Decimal.write` — a decimal written in a layout.
-/

import CoachLedger.Decimal.Basic

set_option autoImplicit false

namespace CoachLedger.Decimal

/-- How a decimal is written. -/
structure Layout where
  /-- The least and the greatest power of ten of the first digit that are written positionally;
  without bounds everything is positional. -/
  positional : Option (Int × Int)
  /-- An integer written positionally ends in `.0`. -/
  integerPoint : Bool
  /-- A single digit before an exponent is followed by `.0`. -/
  mantissaPoint : Bool
  /-- The least number of digits of an exponent. -/
  exponentWidth : Nat

/-- Digits whose first one stands for the power `lead` of ten, written positionally. -/
def writePositional (layout : Layout) (ds : List Char) (lead : Int) : List Char :=
  if lead < 0 then
    '0' :: '.' :: (List.replicate (-lead - 1).toNat '0' ++ ds)
  else
    let whole := lead.toNat + 1
    if ds.length ≤ whole then
      ds ++ List.replicate (whole - ds.length) '0' ++ (if layout.integerPoint then ['.', '0'] else [])
    else
      ds.take whole ++ '.' :: ds.drop whole

/-- Digits whose first one stands for the power `lead` of ten, written with an exponent. -/
def writeScientific (layout : Layout) (ds : List Char) (lead : Int) : List Char :=
  let mantissa :=
    match ds with
    | [] => []
    | [d] => d :: (if layout.mantissaPoint then ['.', '0'] else [])
    | d :: rest => d :: '.' :: rest
  mantissa ++ 'e' :: (if lead < 0 then '-' else '+') :: padded layout.exponentWidth lead.natAbs

/-- A decimal whose coefficient does not end in a zero, written in a layout. -/
def write (layout : Layout) (d : Decimal) : List Char :=
  let ds := digits d.coefficient
  let lead := d.exponent + ds.length - 1
  match layout.positional with
  | none => writePositional layout ds lead
  | some (least, greatest) =>
      if least ≤ lead ∧ lead ≤ greatest then writePositional layout ds lead
      else writeScientific layout ds lead

end CoachLedger.Decimal
