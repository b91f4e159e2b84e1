/-
**Shortest decimals of a number.**

The text of a number is the shortest decimal that reads back as that number, and among the
shortest ones the nearest to it.  A decimal reads back as the number of rank `r` when it lies
between the midpoints to the two neighbouring ranks, the midpoints themselves counting when `r`
is even.  On the grid of multiples of a power of ten only the two neighbours of the number can be
the nearest point in that interval, so the grids are tried from coarse to fine.

Main definitions:

* `CoachLedger.Binary64.Tie` — which of two equally near decimals is taken;
* `CoachLedger.Binary64.onGrid?` — the point of one grid nearest to the number, if it reads back;
* `CoachLedger.Binary64.shortest` — the shortest decimal of a rank.
-/

import CoachLedger.Binary64.Basic
import CoachLedger.Decimal.Basic

set_option autoImplicit false

namespace CoachLedger.Binary64

/-- Which of two equally near decimals is taken. -/
inductive Tie
  /-- The one whose coefficient is even. -/
  | toEven
  /-- The larger one. -/
  | up
deriving DecidableEq, Repr

/-- Twice the value of a rank, and the two ends of the interval of decimals that read back as it,
in units of `2 ^ (-1075)`. -/
def interval (rank : Nat) : Nat × Nat × Nat :=
  (2 * units rank, units (rank - 1) + units rank, units rank + units (rank + 1))

/-- The multiple of `10 ^ e` nearest to the number of the given rank, as the factor, provided that
it reads back as that number. -/
def onGrid? (tie : Tie) (rank : Nat) (e : Int) : Option Nat :=
  let (value, low, high) := interval rank
  let step := (2 * scale) * Decimal.powerOfTen e.toNat
  let factor := Decimal.powerOfTen (-e).toNat
  let readsBack (k : Nat) : Bool :=
    if rank % 2 = 0 then low * factor ≤ k * step && k * step ≤ high * factor
    else low * factor < k * step && k * step < high * factor
  let below := value * factor / step
  let distance := value * factor % step
  let upper : Bool :=
    match tie with
    | .toEven => step < 2 * distance || (2 * distance == step && below % 2 == 1)
    | .up => step ≤ 2 * distance
  match readsBack below, readsBack (below + 1) with
  | true, true => some (if upper then below + 1 else below)
  | true, false => some below
  | false, true => some (below + 1)
  | false, false => none

/-- A power of ten that is above the number of the given rank. -/
def powerAbove (rank : Nat) : Int :=
  ((units rank).log2 - 1073 : Int) * 30103 / 100000 + 2

/-- The shortest decimal that reads back as the number of the given rank.  Seventeen digits always
suffice; the exact value `units rank * 5 ^ 1074 * 10 ^ (-1074)` stands for a search that found
nothing. -/
def shortest (tie : Tie) (rank : Nat) : Decimal :=
  let top := powerAbove rank
  let found := (List.range 25).findSome? fun (i : Nat) =>
    (onGrid? tie rank (top - i)).map fun k => Decimal.mk k (top - i)
  (found.getD ⟨units rank * Nat.pow 5 1074, -1074⟩).strip

end CoachLedger.Binary64
