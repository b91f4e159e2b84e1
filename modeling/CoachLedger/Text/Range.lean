/-
**Ranges of code points.**

Sets of characters that a Unicode property defines are given as tables: closed ranges of code
points.

Main definitions:

* `CoachLedger.Text.isWithin` — the character is in one of some ranges.
-/

set_option autoImplicit false

namespace CoachLedger.Text

/-- The character is in one of some closed ranges of code points. -/
def isWithin (ranges : List (Nat × Nat)) (c : Char) : Bool :=
  ranges.any fun r => r.1 ≤ c.toNat && c.toNat ≤ r.2

end CoachLedger.Text
