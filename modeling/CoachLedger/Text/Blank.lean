/-
**Blank characters and trimming.**

Numbers, dates, filter texts, coach numbers and paths are read with the blanks around them taken
off.  A blank is a character with the Unicode property `White_Space`; the property is given as a
table of code point ranges.

Main definitions:

* `CoachLedger.Text.isBlank` — membership in the table;
* `CoachLedger.Text.trimStart`, `CoachLedger.Text.trim` — the text without its leading, and
  without its surrounding, blanks.

Main results:

* `CoachLedger.Text.trimStart_eq_self` — a text that starts with no blank is left alone.
-/

import CoachLedger.Text.Range

set_option autoImplicit false

namespace CoachLedger.Text

/-- The code points with the property `White_Space`, as closed ranges in ascending order. -/
def blankRanges : List (Nat × Nat) :=
  [(0x09, 0x0D), (0x20, 0x20), (0x85, 0x85), (0xA0, 0xA0), (0x1680, 0x1680), (0x2000, 0x200A),
    (0x2028, 0x2029), (0x202F, 0x202F), (0x205F, 0x205F), (0x3000, 0x3000)]

/-- The character has the property `White_Space`. -/
def isBlank (c : Char) : Bool := isWithin blankRanges c

example : (blankRanges.map fun r => r.2 + 1 - r.1).sum = 25 := by decide

/-- The characters from the first one that is no blank on. -/
def trimStart (cs : List Char) : List Char :=
  cs.dropWhile isBlank

/-- The characters up to the last one that is no blank. -/
def trimEnd (cs : List Char) : List Char :=
  (cs.reverse.dropWhile isBlank).reverse

/-- The text without the blanks at its two ends. -/
def trim (s : String) : String :=
  String.ofList (trimEnd (trimStart s.toList))

/-- The text holds nothing but blanks. -/
def isAllBlank (s : String) : Bool :=
  s.toList.all isBlank

/-! ### Small laws -/

theorem trimStart_eq_self {c : Char} {cs : List Char} (h : isBlank c = false) :
    trimStart (c :: cs) = c :: cs := by
  simp [trimStart, h]

end CoachLedger.Text
