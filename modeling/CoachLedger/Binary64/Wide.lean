/-
**Numbers with 64 significant bits.**

Between texts and numbers the storage engine computes in a format that is wider than binary64:
natural numbers of at most 64 bits times a power of two, without a bound on the exponent.  It moves
the decimal point by multiplying with powers of ten, first in steps of a hundred places, then of
ten, then of one, and rounds after each step.  The result is therefore close to the nearest number,
but not always the nearest one.

Main definitions:

* `CoachLedger.Binary64.Wide` — the numbers of the format;
* `CoachLedger.Binary64.Wide.round`, `CoachLedger.Binary64.Wide.mul` — rounding to 64 bits, and the
  rounded product;
* `CoachLedger.Binary64.Wide.scale` — the number with its decimal point moved;
* `CoachLedger.Binary64.Wide.normalize` — the number with its point moved behind the eighteenth or
  nineteenth digit;
* `CoachLedger.Binary64.Wide.rank` — the rank of the binary64 number nearest to it.
-/

import CoachLedger.Binary64.Nearest

set_option autoImplicit false

namespace CoachLedger.Binary64

/-- The number `significand * 2 ^ exponent`. -/
structure Wide where
  significand : Nat
  exponent : Int
deriving DecidableEq, Repr

namespace Wide

/-- The number of significant bits. -/
def width : Nat := 64

/-- The number nearest to `n * 2 ^ e`; a tie goes to the even significand. -/
def round (n : Nat) (e : Int) : Wide :=
  let excess := n.log2 + 1 - width
  ⟨halfEven n (1 <<< excess), e + excess⟩

/-- The number nearest to a power of ten. -/
def powerOfTen : Int → Wide
  | .ofNat e => round (Decimal.powerOfTen e) 0
  | .negSucc e =>
      let d := Decimal.powerOfTen (e + 1)
      let shift := d.log2 + width
      ⟨halfEven (1 <<< shift) d, -shift⟩

/-- The product, rounded. -/
def mul (a b : Wide) : Wide :=
  round (a.significand * b.significand) (a.exponent + b.exponent)

/-- The first number is not greater than the second one. -/
def le (a b : Wide) : Bool :=
  if a.exponent ≤ b.exponent then
    a.significand ≤ b.significand <<< (b.exponent - a.exponent).toNat
  else a.significand <<< (a.exponent - b.exponent).toNat ≤ b.significand

/-- The integer part. -/
def floor (a : Wide) : Nat :=
  if 0 ≤ a.exponent then a.significand <<< a.exponent.toNat
  else a.significand >>> (-a.exponent).toNat

/-! ### Moving the decimal point -/

/-- The number multiplied several times by the same factor. -/
def mulTimes (factor : Wide) : Nat → Wide → Wide
  | 0, a => a
  | count + 1, a => mulTimes factor count (a.mul factor)

/-- The number with its decimal point moved by `places` to the right. -/
def scale (a : Wide) (places : Int) : Wide :=
  let count := places.natAbs
  let step (n : Nat) : Wide := powerOfTen (if places < 0 then -(n : Int) else n)
  mulTimes (step 1) (count % 10)
    (mulTimes (step 10) (count % 100 / 10) (mulTimes (step 100) (count / 100) a))

/-- Moves the decimal point by `places` at a time, at most `fuel` times, as long as the number is
to be moved; counts the places in the opposite direction. -/
def moveWhile (moves : Wide → Bool) (places : Int) : Nat → Wide × Int → Wide × Int
  | 0, a => a
  | fuel + 1, (a, moved) =>
      if moves a then moveWhile moves places fuel (a.mul (powerOfTen places), moved - places)
      else (a, moved)

/-- The most moves in one direction and of one length that a binary64 number needs. -/
def maxMoves : Nat := 16

/-- The number with its decimal point moved so that its integer part has 18 or 19 digits, and the
power of ten that this has to be multiplied with. -/
def normalize (a : Wide) : Wide × Int :=
  let least (e : Int) (b : Wide) : Bool := (powerOfTen e).le b
  if least 19 a then
    moveWhile (least 19) (-1) maxMoves
      (moveWhile (least 29) (-10) maxMoves (moveWhile (least 119) (-100) maxMoves (a, 0)))
  else
    moveWhile (fun b => !least 17 b) 1 maxMoves
      (moveWhile (fun b => !least 7 b) 10 maxMoves
        (moveWhile (fun b => !least (-97) b) 100 maxMoves (a, 0)))

/-! ### Binary64 -/

/-- The number of a rank below infinity. -/
def ofRank (rank : Nat) : Wide :=
  round (units rank) (-1074)

/-- The largest binary64 number. -/
def largest : Wide := ⟨2 * fractions - 1, 971⟩

/-- The rank of the binary64 number nearest to the number; what is greater than the largest one is
infinite. -/
def rank (a : Wide) : Nat :=
  if a.le largest then
    if 0 ≤ a.exponent then nearestRank (a.significand <<< a.exponent.toNat) 1
    else nearestRank a.significand (1 <<< (-a.exponent).toNat)
  else topRank

example : largest.rank + 1 = topRank := by decide +kernel
example : (⟨1, 0⟩ : Wide).rank = 0x3FF0000000000000 := by decide +kernel
example : ((⟨812546902, 0⟩ : Wide).scale (-5)).rank = 0x40BFBD7811B1D92C := by decide +kernel

end Wide

end CoachLedger.Binary64
