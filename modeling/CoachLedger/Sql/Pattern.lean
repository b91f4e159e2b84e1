/-
**Patterns.**

A text filter searches with a pattern, in which `%` stands for any text and `_` for any
character.  What the user typed is escaped with backslashes, so that it stands for itself.

Main definitions:

* `CoachLedger.Sql.escape` — a text as the part of a pattern that stands for it;
* `CoachLedger.Sql.Pattern`, `CoachLedger.Sql.pattern` — the elements of a pattern;
* `CoachLedger.Sql.accepts` — a text matches a pattern.

Main results:

* `CoachLedger.Sql.someEnd_iff` — `%` stands for any front part of the text.
-/

import CoachLedger.Text.Fold

set_option autoImplicit false

namespace CoachLedger.Sql

/-- The escape character of patterns. -/
def escapeMark : Char := '\\'

/-- The characters that do not stand for themselves in a pattern. -/
def isSpecial (c : Char) : Bool :=
  c == '%' || c == '_' || c == escapeMark

/-- The characters of a text, escaped. -/
def escape (cs : List Char) : List Char :=
  cs.flatMap fun c => if isSpecial c then [escapeMark, c] else [c]

/-- A text, escaped. -/
def escapeText (s : String) : String :=
  String.ofList (escape s.toList)

/-- An element of a pattern. -/
inductive Pattern
  /-- Any text. -/
  | anyText
  /-- Any character. -/
  | anyChar
  /-- The given character, in either case. -/
  | char (c : Char)
  /-- Nothing: an escape character that escapes nothing. -/
  | never
deriving DecidableEq, Repr

/-- The elements of a pattern. -/
def pattern : List Char → List Pattern
  | [] => []
  | c :: cs =>
      if c = escapeMark then
        match cs with
        | [] => [.never]
        | d :: ds => .char d :: pattern ds
      else if c = '%' then .anyText :: pattern cs
      else if c = '_' then .anyChar :: pattern cs
      else .char c :: pattern cs

/-- Two characters are equal up to the case of ASCII letters. -/
def sameFolded (c d : Char) : Bool :=
  c.toLower == d.toLower

/-- Some end of a text, the whole text and the empty one included, has a property. -/
def someEnd (p : List Char → Bool) : List Char → Bool
  | [] => p []
  | c :: cs => p (c :: cs) || someEnd p cs

/-- A text matches a pattern. -/
def accepts : List Pattern → List Char → Bool
  | [], cs => cs.isEmpty
  | .anyText :: ps, cs => someEnd (accepts ps) cs
  | .anyChar :: ps, _ :: cs => accepts ps cs
  | .char p :: ps, c :: cs => sameFolded p c && accepts ps cs
  | _, _ => false

/-- Some end of a text has a property exactly if the text ends in a text with that property. -/
theorem someEnd_iff (p : List Char → Bool) (cs : List Char) :
    someEnd p cs = true ↔ ∃ front back, cs = front ++ back ∧ p back = true := by
  induction cs with
  | nil =>
      constructor
      · exact fun h => ⟨[], [], rfl, h⟩
      · rintro ⟨front, back, h, hp⟩
        obtain ⟨rfl, rfl⟩ := List.append_eq_nil_iff.1 h.symm
        exact hp
  | cons c cs ih =>
      rw [someEnd, Bool.or_eq_true, ih]
      constructor
      · rintro (h | ⟨front, back, rfl, hp⟩)
        · exact ⟨[], c :: cs, rfl, h⟩
        · exact ⟨c :: front, back, rfl, hp⟩
      · rintro ⟨front, back, h, hp⟩
        cases front with
        | nil => exact .inl (by simpa [h] using hp)
        | cons d front =>
            simp only [List.cons_append, List.cons.injEq] at h
            exact .inr ⟨front, back, h.2, hp⟩

end CoachLedger.Sql
