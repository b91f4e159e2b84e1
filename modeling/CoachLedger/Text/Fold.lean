/-
**Comparison of texts without regard to ASCII case.**

Text filters compare case-insensitively, and the storage engine folds only the letters `A` to
`Z`; all other characters compare as they are.  This module folds a text and says when one text
occurs in another, starts it or ends it.

Main definitions:

* `CoachLedger.Text.fold` — the text with `A` to `Z` in lower case;
* `CoachLedger.Text.occursIn` — the first list of characters is a contiguous part of the second.

Main results:

* `CoachLedger.Text.toList_fold` — folding works character by character;
* `CoachLedger.Text.occursIn_iff` — `occursIn` decides the infix relation.
-/

set_option autoImplicit false

namespace CoachLedger.Text

/-- The text with the letters `A` to `Z` in lower case. -/
def fold (s : String) : String :=
  String.ofList (s.toList.map Char.toLower)

@[simp] theorem toList_fold (s : String) : (fold s).toList = s.toList.map Char.toLower := by
  simp [fold]

/-- The characters of `needle` stand together somewhere in the second list. -/
def occursIn (needle : List Char) : List Char → Bool
  | [] => needle.isEmpty
  | c :: cs => needle.isPrefixOf (c :: cs) || occursIn needle cs

theorem occursIn_iff (needle hay : List Char) :
    occursIn needle hay = true ↔ needle <:+: hay := by
  induction hay with
  | nil => simp [occursIn]
  | cons c cs ih =>
      rw [occursIn, Bool.or_eq_true, ih, List.isPrefixOf_iff_prefix, List.infix_cons_iff]

/-- The text contains the needle. -/
def contains (needle s : String) : Bool :=
  occursIn needle.toList s.toList

/-- The text starts with the needle. -/
def startsWith (needle s : String) : Bool :=
  needle.toList.isPrefixOf s.toList

/-- The text ends with the needle. -/
def endsWith (needle s : String) : Bool :=
  needle.toList.isSuffixOf s.toList

/-- Two texts in the order of their code points, which is also the order of their UTF-8 bytes. -/
def order (a b : String) : Ordering :=
  compareOfLessAndEq a b

end CoachLedger.Text
