/-
**Dates survive their text form.**

The text of a date has the year, the month and the day with hyphens between them.  The year has at
least four digits, and a sign outside `0` to `9999`, and the month and the day have two; this leaves
no choice, so that a date has one text.  It is what is displayed, what stands in JSON, and what is
stored, and each of the readers gives the date back, for every day of more than half a million years
and whatever blanks stand around the text.

Main definitions:

* `CoachLedger.Date.IsWritten` — the text is that of a date, described by its parts.

Main results:

* `CoachLedger.Date.isWritten_iff` — a date has one text;
* `CoachLedger.Value.date_survives` — **dates survive their text form**.
-/

import CoachLedger.Proofs.Sql.Column
import CoachLedger.Store.Table

set_option autoImplicit false

namespace CoachLedger

open CoachLedger.Sql (Cell)

namespace Date

/-- The text is the year with its sign, the month and the day, with hyphens between them. -/
def IsWritten (d : Date) (s : String) : Prop :=
  ∃ year month day, s.toList = yearSign d.year ++ (year ++ '-' :: (month ++ '-' :: day)) ∧
    Decimal.IsNumeral 4 d.year.natAbs year ∧ Decimal.IsNumeral 2 d.month month ∧
    Decimal.IsNumeral 2 d.day day

/-- **A date has one text.** -/
theorem isWritten_iff {d : Date} {s : String} : d.IsWritten s ↔ s = d.text := by
  have hchars : d.chars = yearSign d.year ++ (Decimal.padded 4 d.year.natAbs ++
      '-' :: (Decimal.padded 2 d.month ++ '-' :: Decimal.padded 2 d.day)) := by
    rw [chars, yearText_eq, List.append_assoc]
  constructor
  · rintro ⟨year, month, day, hs, hyear, hmonth, hday⟩
    rw [Decimal.isNumeral_iff (by decide)] at hyear hmonth hday
    rw [hyear, hmonth, hday, ← hchars] at hs
    rw [text, ← hs, String.ofList_toList]
  · rintro rfl
    exact ⟨_, _, _, d.toList_text.trans hchars, Decimal.isNumeral_padded (by decide) _,
      Decimal.isNumeral_padded (by decide) _, Decimal.isNumeral_padded (by decide) _⟩

end Date

namespace Value

/-- **Dates survive their text form.**  The text of a date is its text form, is displayed, is
written to JSON and is stored.  It is described by the parts of the date.  With any blanks around it
is read as the date, in JSON and in a stored row too. -/
theorem date_survives (d : Date) {before after : String} (hb : Text.isAllBlank before = true)
    (ha : Text.isAllBlank after = true) :
    (∀ s, d.IsWritten s ↔ s = d.text) ∧
    ((date d).text? = some d.text ∧ (date d).display = d.text ∧ (date d).toJson = .string d.text ∧
      Store.cellFor .date (date d) = .text d.text) ∧
    Date.read? (before ++ d.text ++ after) = some d ∧
    ofJson? .date (.string (before ++ d.text ++ after)) = some (date d) ∧
    Store.slotOf .date (.text (before ++ d.text ++ after)) = some (date d) := by
  have hread := d.read?_surrounded hb ha
  refine ⟨fun s => Date.isWritten_iff, ⟨rfl, rfl, rfl, rfl⟩, hread, ?_, ?_⟩
  · have hjson : ofJson? .date (.string (before ++ d.text ++ after)) =
        (Date.read? (before ++ d.text ++ after)).map date := rfl
    rw [hjson, hread]
    rfl
  · have hcell : (Cell.text (before ++ d.text ++ after)).toValue .date = date d := by
      rw [Cell.toValue, hread]
      rfl
    rw [Store.slotOf, hcell]
    rfl

/-- The first day of the calendar, between blanks that are not ASCII characters. -/
theorem date_survives_first :
    Text.isAllBlank "\u3000\n" = true ∧ Text.isAllBlank "\u00a0\u2003" = true ∧
    Date.IsWritten ⟨-262143, 1, 1, by decide⟩ "-262143-01-01" ∧
    Date.read? "\u3000\n-262143-01-01\u00a0\u2003" = some ⟨-262143, 1, 1, by decide⟩ := by
  have hb : Text.isAllBlank "\u3000\n" = true := by decide +kernel
  have ha : Text.isAllBlank "\u00a0\u2003" = true := by decide +kernel
  obtain ⟨hwritten, -, hread, -, -⟩ := date_survives ⟨-262143, 1, 1, by decide⟩ hb ha
  have htext : (⟨-262143, 1, 1, by decide⟩ : Date).text = "-262143-01-01" := by decide +kernel
  refine ⟨hb, ha, (hwritten _).2 htext.symm, ?_⟩
  rw [htext] at hread
  exact hread

end Value

end CoachLedger
