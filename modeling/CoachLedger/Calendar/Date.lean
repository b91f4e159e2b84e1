/-
**Calendar dates.**

A date is a year, a month and a day of the Gregorian calendar, extended to the years before its
introduction; only real days are dates.  Its text is `2024-01-15`: the year has at least four
digits, and a sign outside `0` to `9999`.

Main definitions:

* `CoachLedger.Date` — dates;
* `CoachLedger.Date.ofParts?` — the date with given parts, if there is one;
* `CoachLedger.Date.compare` — the order of dates;
* `CoachLedger.Date.text` — the text of a date.

Main results:

* `CoachLedger.Date.ofParts?_eq_some_iff` — the parts of the date that was made are those given;
* `CoachLedger.Date.compare_swap` — swapping the arguments reverses the order.
-/

import CoachLedger.Decimal.Basic

set_option autoImplicit false

namespace CoachLedger

namespace Date

/-- The earliest year. -/
def minYear : Int := -262143

/-- The latest year. -/
def maxYear : Int := 262142

/-- The year has a 29th of February. -/
def isLeapYear (year : Int) : Bool :=
  year % 4 == 0 && (year % 100 != 0 || year % 400 == 0)

/-- The number of days of a month. -/
def monthLength (year : Int) (month : Nat) : Nat :=
  if month = 2 then (if isLeapYear year then 29 else 28)
  else if month = 4 ∨ month = 6 ∨ month = 9 ∨ month = 11 then 30
  else 31

/-- The parts are those of a real day in the range of years. -/
def IsReal (year : Int) (month day : Nat) : Prop :=
  (minYear ≤ year ∧ year ≤ maxYear) ∧ (1 ≤ month ∧ month ≤ 12) ∧
    1 ≤ day ∧ day ≤ monthLength year month

instance (year : Int) (month day : Nat) : Decidable (IsReal year month day) := by
  unfold IsReal; infer_instance

end Date

/-- A calendar date. -/
structure Date where
  year : Int
  month : Nat
  day : Nat
  isReal : Date.IsReal year month day
deriving DecidableEq, Repr

namespace Date

instance : Inhabited Date := ⟨⟨2000, 1, 1, by decide⟩⟩

/-- The date with the given parts, if they are those of a real day. -/
def ofParts? (year : Int) (month day : Nat) : Option Date :=
  if h : IsReal year month day then some ⟨year, month, day, h⟩ else none

theorem ofParts?_eq_some_iff {year : Int} {month day : Nat} {d : Date} :
    ofParts? year month day = some d ↔ d.year = year ∧ d.month = month ∧ d.day = day := by
  obtain ⟨y, m, k, h⟩ := d
  unfold ofParts?
  split
  · simp [eq_comm]
  · rename_i hn
    constructor
    · simp
    · rintro ⟨rfl, rfl, rfl⟩
      exact absurd h hn

/-- The order of dates: by year, then by month, then by day. -/
def compare (a b : Date) : Ordering :=
  (Ord.compare a.year b.year).then
    ((Ord.compare a.month b.month).then (Ord.compare a.day b.day))

/-- Swapping the arguments reverses the order. -/
theorem compare_swap (a b : Date) : (a.compare b).swap = b.compare a := by
  simp [compare, Ordering.swap_then, Int.compare_swap, Nat.compare_swap]

/-- The text of a year. -/
def yearText (year : Int) : List Char :=
  if 0 ≤ year ∧ year ≤ 9999 then Decimal.padded 4 year.toNat
  else (if year < 0 then '-' else '+') :: Decimal.padded 4 year.natAbs

/-- The characters of the text of a date. -/
def chars (d : Date) : List Char :=
  yearText d.year ++ '-' :: (Decimal.padded 2 d.month ++ '-' :: Decimal.padded 2 d.day)

/-- The text of a date. -/
def text (d : Date) : String :=
  String.ofList d.chars

end Date

end CoachLedger
