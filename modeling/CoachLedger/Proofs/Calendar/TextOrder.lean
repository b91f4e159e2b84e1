/-
**The order of the texts of dates.**

The storage engine compares dates as texts.  A plus goes before a hyphen, and a hyphen before the
digits, so that the years above `9999` come first, then those below `0`, and then all others.
Where there is the same sign, the digits decide from the front on, whatever their number is, and
after a minus sign the greater ones still come last.

For the years `0` to `9999`, whose numbers all have four digits and no sign, that is the order of
the calendar, and they also stand in the right order to the years below `0`.  Two years above
`9999`, or two below `0`, are in the right order only if their digits happen to be, and a year above
`9999` is never in the right order to one that is not.

Main definitions:

* `CoachLedger.Date.IsPlain` — the year has four digits and no sign;
* `CoachLedger.Date.yearOrder`, `CoachLedger.Date.textOrder` — the order of the texts of years, and
  of dates, by their numbers;
* `CoachLedger.Date.SortAlike` — the texts of two years are in the order of the years.

Main results:

* `CoachLedger.Date.order_text_eq` — the order of the texts of two dates;
* `CoachLedger.Date.order_text_eq_compare_iff` — **when it is the order of the calendar**;
* `CoachLedger.Date.order_text` — plain dates compare as their texts do.
-/

import CoachLedger.Proofs.Calendar.RoundTrip
import CoachLedger.Proofs.Text.Order

set_option autoImplicit false

namespace CoachLedger.Date

/-- The year has four digits and no sign. -/
def IsPlain (d : Date) : Prop :=
  0 ≤ d.year ∧ d.year ≤ 9999

instance (d : Date) : Decidable d.IsPlain := by
  unfold IsPlain; infer_instance

/-! ### The order of years -/

/-- The place of a year by its sign: a plus, a minus, or none. -/
def yearClass (year : Int) : Nat :=
  if 9999 < year then 0 else if year < 0 then 1 else 2

/-- The number of digits that a year is written with. -/
def yearWidth (year : Int) : Nat :=
  if year.natAbs < 10000 then 4 else if year.natAbs < 100000 then 5 else 6

/-- The number that the digits of a year denote at the front of six places. -/
def yearLead (year : Int) : Nat :=
  year.natAbs * 10 ^ (6 - yearWidth year)

theorem yearClass_cases (year : Int) :
    9999 < year ∧ yearClass year = 0 ∨ year < 0 ∧ yearClass year = 1 ∨
      (0 ≤ year ∧ year ≤ 9999) ∧ yearClass year = 2 := by
  unfold yearClass
  split
  · omega
  · split <;> omega

theorem yearWidth_cases (year : Int) :
    year.natAbs < 10000 ∧ yearWidth year = 4 ∨
      (10000 ≤ year.natAbs ∧ year.natAbs < 100000) ∧ yearWidth year = 5 ∨
      100000 ≤ year.natAbs ∧ yearWidth year = 6 := by
  unfold yearWidth
  split
  · omega
  · split <;> omega

theorem yearWidth_mono {x y : Int} (h : x.natAbs ≤ y.natAbs) : yearWidth x ≤ yearWidth y := by
  have := yearWidth_cases x
  have := yearWidth_cases y
  omega

/-- The order of the texts of two years: by the sign, then by the digits, then by their number. -/
def yearOrder (x y : Int) : Ordering :=
  (Ord.compare (yearClass x) (yearClass y)).then
    ((Ord.compare (yearLead x) (yearLead y)).then (Ord.compare (yearWidth x) (yearWidth y)))

theorem yearOrder_swap (x y : Int) : (yearOrder x y).swap = yearOrder y x := by
  simp [yearOrder, Ordering.swap_then, Nat.compare_swap]

theorem natAbs_eq_of_yearLead_eq {x y : Int} (hw : yearWidth x = yearWidth y)
    (h : yearLead x = yearLead y) : x.natAbs = y.natAbs := by
  rw [yearLead, yearLead, hw] at h
  exact Nat.eq_of_mul_eq_mul_right (Nat.pow_pos (by decide)) h

theorem yearOrder_eq_eq {x y : Int} : yearOrder x y = .eq ↔ x = y := by
  constructor
  · intro h
    simp only [yearOrder, Ordering.then_eq_eq, Nat.compare_eq_eq] at h
    obtain ⟨hclass, hlead, hwidth⟩ := h
    have habs := natAbs_eq_of_yearLead_eq hwidth hlead
    have := yearClass_cases x
    have := yearClass_cases y
    omega
  · rintro rfl
    simp [yearOrder]

theorem yearOrder_eq_lt {x y : Int} :
    yearOrder x y = .lt ↔ yearClass x < yearClass y ∨ yearClass x = yearClass y ∧
      (yearLead x < yearLead y ∨ yearLead x = yearLead y ∧ yearWidth x < yearWidth y) := by
  simp only [yearOrder, Ordering.then_eq_lt, Nat.compare_eq_lt, Nat.compare_eq_eq]

/-! ### The texts of years -/

theorem natAbs_year_lt (d : Date) : d.year.natAbs < 10 ^ 6 := by
  obtain ⟨hmin, hmax⟩ := d.isReal.1
  simp only [minYear, maxYear] at hmin hmax
  omega

theorem length_padded_natAbs {year : Int} (h : year.natAbs < 10 ^ 6) :
    (Decimal.padded 4 year.natAbs).length = yearWidth year := by
  have hn := Decimal.isNumeral_padded (by decide : 0 < 4) year.natAbs
  have hwidth := hn.width_le
  generalize Decimal.padded 4 year.natAbs = ds at hn hwidth
  -- A number of more digits than it has to have is too large for fewer.
  have hbound {k : Nat} (hk : 4 ≤ k) (hlt : year.natAbs < 10 ^ k) : ds.length ≤ k := by
    by_contra hlen
    have hpow := hn.pow_le (by omega)
    have hmono : 10 ^ k ≤ 10 ^ (ds.length - 1) := Nat.pow_le_pow_right (by decide) (by omega)
    omega
  have hlow {k : Nat} (hle : 10 ^ k ≤ year.natAbs) : k < ds.length := by
    by_contra hlen
    have hpow := hn.lt_pow
    have hmono : 10 ^ ds.length ≤ 10 ^ k := Nat.pow_le_pow_right (by decide) (by omega)
    omega
  rcases yearWidth_cases year with ⟨hlt, hw⟩ | ⟨⟨hle, hlt⟩, hw⟩ | ⟨hle, hw⟩
  · rw [hw]
    exact Nat.le_antisymm (hbound (by decide) (by omega)) hwidth
  · rw [hw]
    exact Nat.le_antisymm (hbound (by decide) (by omega)) (hlow (by omega))
  · rw [hw]
    exact Nat.le_antisymm (hbound (by decide) h) (hlow (by omega))

theorem lead_padded {year : Int} (h : year.natAbs < 10 ^ 6) :
    Decimal.lead 6 (Decimal.padded 4 year.natAbs) = yearLead year := by
  rw [Decimal.lead, Decimal.ofDigits_padded, length_padded_natAbs h, yearLead]

/-- The sign of a year goes before that of another one, or before its first digit. -/
theorem yearText_lt_of_class {x y : Int} (h : yearClass x < yearClass y) (rest rest' : List Char) :
    yearText x ++ rest < yearText y ++ rest' := by
  obtain ⟨c, cs, hc, hcd⟩ := padded_eq_cons 4 y.natAbs
  have hdigit := (Decimal.toNat_of_isDigit hcd).1
  have hplus : '+' < c := UInt32.lt_iff_toNat_lt.2 (Nat.lt_of_lt_of_le (by decide) hdigit)
  have hminus : '-' < c := UInt32.lt_iff_toNat_lt.2 (Nat.lt_of_lt_of_le (by decide) hdigit)
  rw [yearText_eq, yearText_eq, hc]
  rcases yearClass_cases x with ⟨hx, hxc⟩ | ⟨hx, hxc⟩ | ⟨hx, hxc⟩
  · rw [yearSign, if_neg (by omega), if_pos hx]
    rcases yearClass_cases y with ⟨hy, hyc⟩ | ⟨hy, -⟩ | ⟨hy, -⟩
    · omega
    · rw [yearSign, if_pos hy]
      exact List.cons_lt_cons_iff.2 (.inl (by decide))
    · rw [yearSign, if_neg (by omega), if_neg (by omega)]
      exact List.cons_lt_cons_iff.2 (.inl hplus)
  · rw [yearSign, if_pos hx]
    rcases yearClass_cases y with ⟨-, hyc⟩ | ⟨-, hyc⟩ | ⟨hy, -⟩
    · omega
    · omega
    · rw [yearSign, if_neg (by omega), if_neg (by omega)]
      exact List.cons_lt_cons_iff.2 (.inl hminus)
  · have := yearClass_cases y
    omega

theorem yearSign_eq_of_class {x y : Int} (h : yearClass x = yearClass y) :
    yearSign x = yearSign y := by
  have hiff : (x < 0 ↔ y < 0) ∧ (9999 < x ↔ 9999 < y) := by
    have := yearClass_cases x
    have := yearClass_cases y
    omega
  simp only [yearSign, hiff.1, hiff.2]

/-- **The text of the year that comes first in the order is the smaller one.** -/
theorem yearText_lt {x y : Int} (hx : x.natAbs < 10 ^ 6) (hy : y.natAbs < 10 ^ 6)
    (h : yearOrder x y = .lt) (rest rest' : List Char) :
    yearText x ++ '-' :: rest < yearText y ++ '-' :: rest' := by
  rcases yearOrder_eq_lt.1 h with hclass | ⟨hclass, hlead⟩
  · exact yearText_lt_of_class hclass _ _
  · have hxl := length_padded_natAbs hx
    have hyl := length_padded_natAbs hy
    have hxw := yearWidth_cases x
    have hyw := yearWidth_cases y
    rw [← lead_padded hx, ← lead_padded hy, ← hxl, ← hyl] at hlead
    rw [yearText_eq, yearText_eq, yearSign_eq_of_class hclass, List.append_assoc,
      List.append_assoc]
    exact List.append_left_lt (Decimal.append_lt_append_of_lead
      (fun _ => Decimal.isDigit_of_mem_padded) (fun _ => Decimal.isDigit_of_mem_padded)
      (by omega) (by omega) (by decide) hlead rest rest')

/-! ### The order of the texts of dates -/

/-- The order of the texts of two dates: by the years, then by the month, then by the day. -/
def textOrder (a b : Date) : Ordering :=
  (yearOrder a.year b.year).then
    ((Ord.compare a.month b.month).then (Ord.compare a.day b.day))

theorem textOrder_swap (a b : Date) : (a.textOrder b).swap = b.textOrder a := by
  simp [textOrder, Ordering.swap_then, yearOrder_swap, Nat.compare_swap]

/-- Of two numbers with as many digits the smaller one comes first, whatever follows. -/
theorem padded_lt_padded {width m n : Nat} (hw : 0 < width) (hn : n < 10 ^ width) (h : m < n)
    (rest rest' : List Char) :
    Decimal.padded width m ++ rest < Decimal.padded width n ++ rest' := by
  have hm : m < 10 ^ width := Nat.lt_trans h hn
  refine Decimal.append_lt_append (fun c => Decimal.isDigit_of_mem_padded)
    (fun c => Decimal.isDigit_of_mem_padded) ?_ ?_ rest rest'
  · rw [Decimal.length_padded hw hm, Decimal.length_padded hw hn]
  · rwa [Decimal.ofDigits_padded, Decimal.ofDigits_padded]

theorem chars_lt_chars {a b : Date} (h : a.textOrder b = .lt) : a.chars < b.chars := by
  simp only [textOrder, Ordering.then_eq_lt, Nat.compare_eq_lt, Nat.compare_eq_eq,
    yearOrder_eq_eq] at h
  simp only [chars]
  -- The texts differ first where the dates do.
  rcases h with hy | ⟨hy, hm | ⟨hm, hd⟩⟩
  · exact yearText_lt a.natAbs_year_lt b.natAbs_year_lt hy _ _
  · rw [hy]
    refine List.append_left_lt ?_
    refine List.cons_lt_cons_iff.2 (.inr ⟨rfl, ?_⟩)
    exact padded_lt_padded (by decide) b.month_lt hm _ _
  · rw [hy, hm]
    refine List.append_left_lt ?_
    refine List.cons_lt_cons_iff.2 (.inr ⟨rfl, ?_⟩)
    refine List.append_left_lt ?_
    refine List.cons_lt_cons_iff.2 (.inr ⟨rfl, ?_⟩)
    simpa using padded_lt_padded (by decide) b.day_lt hd [] []

theorem text_lt_text {a b : Date} (h : a.textOrder b = .lt) : a.text < b.text := by
  rw [String.lt_iff_toList_lt, toList_text, toList_text]
  exact chars_lt_chars h

theorem eq_of_parts {a b : Date} (hy : a.year = b.year) (hm : a.month = b.month)
    (hd : a.day = b.day) : a = b := by
  obtain ⟨y, m, d, hr⟩ := a
  obtain ⟨y', m', d', hr'⟩ := b
  obtain rfl : y = y' := hy
  obtain rfl : m = m' := hm
  obtain rfl : d = d' := hd
  rfl

/-- **The order of the texts of two dates.** -/
theorem order_text_eq (a b : Date) : Text.order a.text b.text = a.textOrder b := by
  cases h : a.textOrder b with
  | lt => exact Text.order_eq_lt.2 (text_lt_text h)
  | eq =>
      simp only [textOrder, Ordering.then_eq_eq, Nat.compare_eq_eq, yearOrder_eq_eq] at h
      obtain ⟨hy, hm, hd⟩ := h
      rw [eq_of_parts hy hm hd]
      exact Text.order_self _
  | gt =>
      have h' : b.textOrder a = .lt := by
        rw [← textOrder_swap, h]
        rfl
      exact Text.order_eq_gt.2 (text_lt_text h')

/-! ### The order of the calendar -/

theorem eq_of_compare_eq {a b : Date} (h : a.compare b = .eq) : a = b := by
  simp only [compare, Ordering.then_eq_eq, Int.compare_eq_eq, Nat.compare_eq_eq] at h
  obtain ⟨hy, hm, hd⟩ := h
  exact eq_of_parts hy hm hd

theorem compare_self (d : Date) : d.compare d = .eq := by
  simp [compare]

/-- Whatever their years are, dates are equal as texts only if they are equal. -/
theorem order_text_beq_eq (a b : Date) :
    (Text.order a.text b.text == .eq) = (a.compare b == .eq) := by
  rw [Bool.eq_iff_iff, beq_iff_eq, beq_iff_eq, Text.order_eq_eq, text_inj]
  constructor
  · rintro rfl
    exact compare_self a
  · exact eq_of_compare_eq

/-- The texts of two years are in the order of the years.  Of two years above `9999` the later one
must not have the smaller digits, and of two years below `0` it must have the greater ones. -/
def SortAlike (x y : Int) : Prop :=
  if 9999 < x ∧ 9999 < y then
    (x < y → yearLead x ≤ yearLead y) ∧ (y < x → yearLead y ≤ yearLead x)
  else if x < 0 ∧ y < 0 then
    (x < y → yearLead x < yearLead y) ∧ (y < x → yearLead y < yearLead x)
  else x ≤ 9999 ∧ y ≤ 9999

instance (x y : Int) : Decidable (SortAlike x y) := by
  unfold SortAlike; infer_instance

example : SortAlike (-200) 2024 ∧ SortAlike (-9000) (-20000) ∧ SortAlike 12024 20000 := by decide

example : ¬SortAlike 2024 12024 ∧ ¬SortAlike (-2) (-1) ∧ ¬SortAlike 99999 100000 := by decide

theorem SortAlike.symm {x y : Int} (h : SortAlike x y) : SortAlike y x := by
  unfold SortAlike at h ⊢
  simp only [and_comm] at h ⊢
  exact h

/-- Years up to `9999` of which one is not below `0` are in order as texts. -/
theorem sortAlike_of_le {x y : Int} (hx : x ≤ 9999) (hy : y ≤ 9999) (h : 0 ≤ x ∨ 0 ≤ y) :
    SortAlike x y := by
  rw [SortAlike, if_neg (by omega), if_neg (by omega)]
  exact ⟨hx, hy⟩

/-- The earlier year has the smaller text exactly if the two are in order. -/
theorem yearOrder_eq_lt_iff {x y : Int} (h : x < y) : yearOrder x y = .lt ↔ SortAlike x y := by
  rw [yearOrder_eq_lt, SortAlike]
  have hx := yearClass_cases x
  have hy := yearClass_cases y
  by_cases hbig : 9999 < x
  · -- Of the same digits the later year has more.
    have hwidth : yearLead x = yearLead y → yearWidth x < yearWidth y := by
      intro hlead
      refine Nat.lt_of_le_of_ne (yearWidth_mono (by omega)) ?_
      intro hw
      have := natAbs_eq_of_yearLead_eq hw hlead
      omega
    rw [if_pos ⟨hbig, by omega⟩]
    omega
  · by_cases hneg : y < 0
    · -- Of the same digits the earlier year has more.
      have hwidth : yearWidth y ≤ yearWidth x := yearWidth_mono (by omega)
      rw [if_neg (by omega), if_pos ⟨by omega, hneg⟩]
      omega
    · rw [if_neg (by omega), if_neg (by omega)]
      -- Years without a sign have four digits.
      have hplain : 0 ≤ x → y ≤ 9999 → yearLead x < yearLead y := by
        intro hx hy
        have hwidth : yearWidth x = 4 ∧ yearWidth y = 4 :=
          ⟨if_pos (by omega), if_pos (by omega)⟩
        rw [yearLead, yearLead, hwidth.1, hwidth.2]
        omega
      omega

theorem yearOrder_eq_compare_iff (x y : Int) :
    yearOrder x y = Ord.compare x y ↔ SortAlike x y := by
  rcases Int.lt_trichotomy x y with h | rfl | h
  · rw [Int.compare_eq_lt.2 h, yearOrder_eq_lt_iff h]
  · refine iff_of_true ?_ ?_
    · rw [yearOrder_eq_eq.2 rfl, Int.compare_eq_eq.2 rfl]
    · unfold SortAlike
      split
      · exact ⟨fun _ => Nat.le_refl _, fun _ => Nat.le_refl _⟩
      · split <;> omega
  · have hswap : yearOrder x y = .gt ↔ yearOrder y x = .lt := by
      rw [← yearOrder_swap y x]
      cases yearOrder y x <;> decide
    rw [Int.compare_eq_gt.2 h, hswap, yearOrder_eq_lt_iff h]
    exact ⟨SortAlike.symm, SortAlike.symm⟩

/-- **The texts of two dates are in the order of the calendar exactly if those of their years
are.** -/
theorem order_text_eq_compare_iff (a b : Date) :
    Text.order a.text b.text = a.compare b ↔ SortAlike a.year b.year := by
  rw [order_text_eq, textOrder, compare, ← yearOrder_eq_compare_iff]
  by_cases h : a.year = b.year
  · rw [yearOrder_eq_eq.2 h, Int.compare_eq_eq.2 h]
    exact iff_of_true rfl rfl
  · -- The years differ in both orders, so that nothing else is looked at.
    have hyear : yearOrder a.year b.year ≠ .eq := fun he => h (yearOrder_eq_eq.1 he)
    have hcompare : Ord.compare a.year b.year ≠ .eq := fun he => h (Int.compare_eq_eq.1 he)
    have hthen {o : Ordering} (ho : o ≠ .eq) (p : Ordering) : o.then p = o := by
      cases o with
      | eq => exact absurd rfl ho
      | _ => rfl
    rw [hthen hyear, hthen hcompare]

/-- **Plain dates compare as their texts do.** -/
theorem order_text {a b : Date} (ha : a.IsPlain) (hb : b.IsPlain) :
    Text.order a.text b.text = a.compare b :=
  (order_text_eq_compare_iff a b).2 (sortAlike_of_le ha.2 hb.2 (.inl ha.1))

end CoachLedger.Date
