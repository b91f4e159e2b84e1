/-
**Hexadecimal digits.**

Digests are written with lower case digits; escapes in JSON texts and in names of resources may use
both cases.

Main definitions:

* `CoachLedger.Text.hexDigit` — the digit of a value below sixteen;
* `CoachLedger.Text.hexValue?` — the value of a digit.

Main results:

* `CoachLedger.Text.hexValue?_hexDigit` — a digit has the value that it was written for;
* `CoachLedger.Text.hexValue?_hexDigits` — so have two digits.
-/

set_option autoImplicit false

namespace CoachLedger.Text

/-- A digit in lower case. -/
def hexDigit (n : Nat) : Char :=
  if n < 10 then Char.ofNat ('0'.toNat + n) else Char.ofNat ('a'.toNat + (n - 10))

/-- The value of a digit in any case. -/
def hexValue? (c : Char) : Option Nat :=
  if c.isDigit then some (c.toNat - '0'.toNat)
  else if 'a' ≤ c ∧ c ≤ 'f' then some (c.toNat - 'a'.toNat + 10)
  else if 'A' ≤ c ∧ c ≤ 'F' then some (c.toNat - 'A'.toNat + 10)
  else none

/-- A digit has the value that it was written for. -/
theorem hexValue?_hexDigit (n : Nat) (h : n < 16) : hexValue? (hexDigit n) = some n := by
  revert n
  decide

/-- A number of two digits is read from them. -/
theorem hexValue?_hexDigits {n : Nat} (h : n < 0x100) :
    hexValue? (hexDigit (n / 16)) = some (n / 16) ∧ hexValue? (hexDigit (n % 16)) = some (n % 16) ∧
      16 * (n / 16) + n % 16 = n :=
  ⟨hexValue?_hexDigit _ (by omega), hexValue?_hexDigit _ (by omega), Nat.div_add_mod n 16⟩

end CoachLedger.Text
