/-
**Digits of a fixed width.**

Dates are written with numbers of a fixed number of digits, so that comparing their texts is
comparing the numbers.  This module has what the dates need: the digits of a padded number denote
it, their number is the width if the number is small enough, and among lists of digits of one
length the order of the lists is the order of the numbers.  A number has only one such list of
digits.  Lists of different lengths compare by the numbers that they denote when they are filled up
at the end.

Main definitions:

* `CoachLedger.Decimal.IsNumeral` — digits that denote a number, filled up to a width;
* `CoachLedger.Decimal.lead` — the number that digits denote at the front of as many places.

Main results:

* `CoachLedger.Decimal.ofDigits_padded` — zeros in front do not change the number;
* `CoachLedger.Decimal.length_padded` — a number that is small enough has the width;
* `CoachLedger.Decimal.append_lt_append` — **the smaller number comes first**, whatever follows;
* `CoachLedger.Decimal.isNumeral_iff` — **padded numbers are the numerals**;
* `CoachLedger.Decimal.append_lt_append_of_lead` — digits compare from the front on.
-/

import CoachLedger.Decimal.Basic
import Mathlib.Algebra.Ring.Nat
import Mathlib.Data.List.Lex

set_option autoImplicit false

namespace CoachLedger.Decimal

/-! ### Padded numbers -/

theorem isDigit_of_mem_digits {n : Nat} {c : Char} (h : c ∈ digits n) : c.isDigit = true :=
  Nat.isDigit_of_mem_toDigits (by decide) (by decide) h

theorem isDigit_of_mem_padded {width n : Nat} {c : Char} (h : c ∈ padded width n) :
    c.isDigit = true := by
  rcases List.mem_append.1 h with h | h
  · rw [List.eq_of_mem_replicate h]
    rfl
  · exact isDigit_of_mem_digits h

theorem digits_ne_nil (n : Nat) : digits n ≠ [] :=
  Nat.toDigits_ne_nil

theorem padded_ne_nil (width n : Nat) : padded width n ≠ [] := by
  simp [padded, digits_ne_nil]

/-- Zeros in front do not change the number. -/
theorem ofDigits_padded (width n : Nat) : ofDigits (padded width n) = n := by
  have h : ofDigits (padded width n) =
      Nat.ofDigitChars 10 (List.replicate (width - (digits n).length) '0' ++ digits n) 0 := rfl
  rw [h, Nat.ofDigitChars_append, Nat.ofDigitChars_replicate_zero, Nat.mul_zero]
  exact ofDigits_digits n

/-- There are at least as many digits as the width. -/
theorem le_length_padded (width n : Nat) : width ≤ (padded width n).length := by
  simp [padded]
  omega

/-- A number that is small enough has exactly the width. -/
theorem length_padded {width n : Nat} (hw : 0 < width) (h : n < 10 ^ width) :
    (padded width n).length = width := by
  have hle : (digits n).length ≤ width := (Nat.length_toDigits_le_iff (by decide) hw).2 h
  simp [padded]
  omega

/-! ### Order of digits -/

theorem ofDigits_cons (c : Char) (cs : List Char) :
    ofDigits (c :: cs) = 10 ^ cs.length * digitValue c + ofDigits cs := by
  have h : ofDigits (c :: cs) = Nat.ofDigitChars 10 (c :: cs) 0 := rfl
  rw [h, Nat.ofDigitChars_cons, Nat.ofDigitChars_eq_ofDigitChars_zero, Nat.mul_zero, Nat.zero_add]
  rfl

theorem toNat_of_isDigit {c : Char} (h : c.isDigit = true) : 48 ≤ c.toNat ∧ c.toNat ≤ 57 := by
  simp only [Char.isDigit, Bool.and_eq_true, decide_eq_true_eq, ge_iff_le] at h
  exact ⟨UInt32.le_iff_toNat_le.1 h.1, UInt32.le_iff_toNat_le.1 h.2⟩

theorem digitValue_lt {c : Char} (h : c.isDigit = true) : digitValue c < 10 := by
  have := toNat_of_isDigit h
  simp only [digitValue]
  have : '0'.toNat = 48 := rfl
  omega

theorem digitValue_inj {c d : Char} (hc : c.isDigit = true) (hd : d.isDigit = true)
    (h : digitValue c = digitValue d) : c = d := by
  have := toNat_of_isDigit hc
  have := toNat_of_isDigit hd
  have hz : '0'.toNat = 48 := rfl
  simp only [digitValue] at h
  exact Char.toNat_inj.1 (by omega)

theorem lt_of_digitValue_lt {c d : Char} (hc : c.isDigit = true) (hd : d.isDigit = true)
    (h : digitValue c < digitValue d) : c < d := by
  have := toNat_of_isDigit hc
  have := toNat_of_isDigit hd
  have hz : '0'.toNat = 48 := rfl
  simp only [digitValue] at h
  have hlt : c.toNat < d.toNat := by omega
  exact UInt32.lt_iff_toNat_lt.2 hlt

theorem ofDigits_lt {cs : List Char} (h : ∀ c ∈ cs, c.isDigit = true) :
    ofDigits cs < 10 ^ cs.length := by
  induction cs with
  | nil => decide
  | cons c cs ih =>
      have hc := digitValue_lt (h c (List.mem_cons_self ..))
      have hcs := ih fun d hd => h d (List.mem_cons_of_mem _ hd)
      have hp : 10 ^ cs.length * digitValue c ≤ 10 ^ cs.length * 9 :=
        Nat.mul_le_mul_left _ (by omega)
      rw [ofDigits_cons, List.length_cons, Nat.pow_succ]
      omega

/-- **The smaller number comes first**, whatever follows the digits. -/
theorem append_lt_append {cs ds : List Char} (hc : ∀ c ∈ cs, c.isDigit = true)
    (hd : ∀ c ∈ ds, c.isDigit = true) (hlen : cs.length = ds.length)
    (h : ofDigits cs < ofDigits ds) (rest rest' : List Char) : cs ++ rest < ds ++ rest' := by
  induction cs generalizing ds with
  | nil =>
      rw [List.length_eq_zero_iff.1 hlen.symm] at h
      exact absurd h (Nat.lt_irrefl _)
  | cons c cs ih =>
      cases ds with
      | nil => simp at hlen
      | cons d ds =>
          obtain ⟨hc, hcs⟩ := List.forall_mem_cons.1 hc
          obtain ⟨hd, hds⟩ := List.forall_mem_cons.1 hd
          have hlen : cs.length = ds.length := Nat.succ.inj hlen
          have hcl := ofDigits_lt hcs
          have hdl := ofDigits_lt hds
          rw [ofDigits_cons, ofDigits_cons, hlen] at h
          rw [hlen] at hcl
          simp only [List.cons_append, List.cons_lt_cons_iff]
          -- A greater first digit outweighs all the digits that follow it.
          rcases Nat.lt_trichotomy (digitValue c) (digitValue d) with hv | hv | hv
          · exact .inl (lt_of_digitValue_lt hc hd hv)
          · exact .inr ⟨digitValue_inj hc hd hv, ih hcs hds hlen (by rw [hv] at h; omega)⟩
          · have := Nat.mul_le_mul_left (10 ^ ds.length) hv
            rw [Nat.mul_succ] at this
            omega

/-- Digits of one number are the same if they are as many. -/
theorem ofDigits_inj {cs ds : List Char} (hc : ∀ c ∈ cs, c.isDigit = true)
    (hd : ∀ c ∈ ds, c.isDigit = true) (hlen : cs.length = ds.length)
    (h : ofDigits cs = ofDigits ds) : cs = ds := by
  induction cs generalizing ds with
  | nil => exact (List.length_eq_zero_iff.1 hlen.symm).symm
  | cons c cs ih =>
      cases ds with
      | nil => cases hlen
      | cons d ds =>
          obtain ⟨hc, hcs⟩ := List.forall_mem_cons.1 hc
          obtain ⟨hd, hds⟩ := List.forall_mem_cons.1 hd
          have hlen : cs.length = ds.length := Nat.succ.inj hlen
          have hlt := ofDigits_lt hcs
          have hlt' := ofDigits_lt hds
          rw [ofDigits_cons, ofDigits_cons, hlen] at h
          rw [hlen] at hlt
          -- The first digit is the number of times that the power of ten is contained.
          have hvalue : digitValue c = digitValue d := by
            have hdiv {x r : Nat} (hr : r < 10 ^ ds.length) :
                (10 ^ ds.length * x + r) / 10 ^ ds.length = x := by
              rw [Nat.mul_add_div (Nat.pow_pos (by decide)), Nat.div_eq_of_lt hr, Nat.add_zero]
            rw [← hdiv (x := digitValue c) hlt, h, hdiv hlt']
          rw [hvalue] at h
          rw [digitValue_inj hc hd hvalue, ih hcs hds hlen (by omega)]

/-! ### Numerals -/

/-- The digits denote the number.  There are at least as many as the width, and no zeros in front
of more than these. -/
structure IsNumeral (width n : Nat) (ds : List Char) : Prop where
  digits : ∀ c ∈ ds, c.isDigit = true
  denotes : ofDigits ds = n
  width_le : width ≤ ds.length
  head_ne : width < ds.length → ds.head? ≠ some '0'

theorem digits_head_ne {n : Nat} (h : 1 < (digits n).length) : (digits n).head? ≠ some '0' := by
  intro hzero
  obtain ⟨ds, hds⟩ := List.head?_eq_some_iff.1 hzero
  have hd : ∀ c ∈ ds, c.isDigit = true := by
    intro c hc
    exact isDigit_of_mem_digits (hds ▸ List.mem_cons_of_mem _ hc)
  -- Without the zero there are digits enough already.
  have hvalue := ofDigits_digits n
  have hlt := ofDigits_lt hd
  rw [hds, ofDigits_cons, show digitValue '0' = 0 from rfl, Nat.mul_zero, Nat.zero_add] at hvalue
  rw [hvalue] at hlt
  rw [hds, List.length_cons] at h
  have hle : (digits n).length ≤ ds.length :=
    (Nat.length_toDigits_le_iff (by decide) (by omega)).2 hlt
  rw [hds, List.length_cons] at hle
  omega

theorem isNumeral_padded {width : Nat} (hw : 0 < width) (n : Nat) :
    IsNumeral width n (padded width n) where
  digits _ := isDigit_of_mem_padded
  denotes := ofDigits_padded width n
  width_le := le_length_padded width n
  head_ne := by
    intro h
    have hlen : (padded width n).length = (width - (digits n).length) + (digits n).length := by
      simp [padded]
    have hfull : width - (digits n).length = 0 := by omega
    have heq : padded width n = digits n := by
      rw [padded, hfull]
      rfl
    rw [heq] at h ⊢
    exact digits_head_ne (by omega)

/-- With more digits than the width a number is large. -/
theorem IsNumeral.pow_le {width n : Nat} {ds : List Char} (h : IsNumeral width n ds)
    (hlen : width < ds.length) : 10 ^ (ds.length - 1) ≤ n := by
  cases ds with
  | nil => cases hlen
  | cons c cs =>
      have hc := h.digits c List.mem_cons_self
      have hne : c ≠ '0' := fun hc => h.head_ne hlen (congrArg some hc)
      have hpos : 1 ≤ digitValue c := by
        have := toNat_of_isDigit hc
        have hz : '0'.toNat = 48 := rfl
        have hnat : c.toNat ≠ 48 := fun h => hne (Char.toNat_inj.1 h)
        simp only [digitValue]
        omega
      have hle := Nat.mul_le_mul_left (10 ^ cs.length) hpos
      rw [← h.denotes, ofDigits_cons, List.length_cons, Nat.add_sub_cancel]
      omega

theorem IsNumeral.lt_pow {width n : Nat} {ds : List Char} (h : IsNumeral width n ds) :
    n < 10 ^ ds.length := by
  rw [← h.denotes]
  exact ofDigits_lt h.digits

theorem IsNumeral.length_le {width n : Nat} {ds es : List Char} (h : IsNumeral width n ds)
    (h' : IsNumeral width n es) : es.length ≤ ds.length := by
  by_contra hlt
  have hwidth := h.width_le
  have hle := h'.pow_le (by omega)
  have hlow := h.lt_pow
  have hmono : 10 ^ ds.length ≤ 10 ^ (es.length - 1) := Nat.pow_le_pow_right (by decide) (by omega)
  omega

/-- **Padded numbers are the numerals.** -/
theorem isNumeral_iff {width n : Nat} (hw : 0 < width) {ds : List Char} :
    IsNumeral width n ds ↔ ds = padded width n := by
  constructor
  · intro h
    have h' := isNumeral_padded hw n
    exact ofDigits_inj h.digits h'.digits (Nat.le_antisymm (h'.length_le h) (h.length_le h'))
      (h.denotes.trans h'.denotes.symm)
  · rintro rfl
    exact isNumeral_padded hw n

/-! ### Digits of different numbers -/

/-- The number that is denoted by the digits at the front of as many places. -/
def lead (places : Nat) (ds : List Char) : Nat :=
  ofDigits ds * 10 ^ (places - ds.length)

theorem lead_cons {places : Nat} (d : Char) {ds : List Char} (h : ds.length ≤ places) :
    lead (places + 1) (d :: ds) = 10 ^ places * digitValue d + lead places ds := by
  have hpow : 10 ^ places = 10 ^ ds.length * 10 ^ (places - ds.length) := by
    rw [← Nat.pow_add, Nat.add_sub_cancel' h]
  rw [lead, lead, ofDigits_cons, List.length_cons, Nat.add_sub_add_right, Nat.add_mul, hpow,
    Nat.mul_right_comm]

theorem lead_lt {places : Nat} {ds : List Char} (hd : ∀ c ∈ ds, c.isDigit = true)
    (h : ds.length ≤ places) : lead places ds < 10 ^ places := by
  have hpow : 10 ^ places = 10 ^ ds.length * 10 ^ (places - ds.length) := by
    rw [← Nat.pow_add, Nat.add_sub_cancel' h]
  rw [lead, hpow]
  exact Nat.mul_lt_mul_of_pos_right (ofDigits_lt hd) (Nat.pow_pos (by decide))

/-- **Digits compare from the front on.**  What counts is the number that they denote at the front
of as many places as it takes.  If it is the same, what follows the digits goes before the zeros at
the end of the longer ones. -/
theorem append_lt_append_of_lead {places : Nat} {ds es : List Char}
    (hd : ∀ c ∈ ds, c.isDigit = true) (he : ∀ c ∈ es, c.isDigit = true)
    (hdl : ds.length ≤ places) (hel : es.length ≤ places) {x : Char} (hx : x < '0')
    (h : lead places ds < lead places es ∨
      lead places ds = lead places es ∧ ds.length < es.length) (rest rest' : List Char) :
    ds ++ x :: rest < es ++ x :: rest' := by
  induction ds generalizing es places with
  | nil =>
      cases es with
      | nil => rcases h with h | ⟨-, h⟩ <;> exact absurd h (Nat.lt_irrefl _)
      | cons e es =>
          have hzero := (toNat_of_isDigit (he e List.mem_cons_self)).1
          have hlt : x.toNat < e.toNat := Nat.lt_of_lt_of_le (UInt32.lt_iff_toNat_lt.1 hx) hzero
          exact List.cons_lt_cons_iff.2 (.inl (UInt32.lt_iff_toNat_lt.2 hlt))
  | cons d ds ih =>
      cases es with
      | nil =>
          have hnil : lead places [] = 0 := Nat.zero_mul _
          rw [hnil, List.length_nil] at h
          omega
      | cons e es =>
          obtain ⟨hd, hds⟩ := List.forall_mem_cons.1 hd
          obtain ⟨he, hes⟩ := List.forall_mem_cons.1 he
          obtain ⟨places, rfl⟩ : ∃ n, places = n + 1 := ⟨places - 1, by
            rw [List.length_cons] at hdl
            omega⟩
          have hdl : ds.length ≤ places := Nat.le_of_succ_le_succ hdl
          have hel : es.length ≤ places := Nat.le_of_succ_le_succ hel
          have hlt := lead_lt hds hdl
          have hlt' := lead_lt hes hel
          rw [lead_cons d hdl, lead_cons e hel, List.length_cons, List.length_cons] at h
          simp only [List.cons_append, List.cons_lt_cons_iff]
          rcases Nat.lt_trichotomy (digitValue d) (digitValue e) with hv | hv | hv
          · exact .inl (lt_of_digitValue_lt hd he hv)
          · refine .inr ⟨digitValue_inj hd he hv, ih hds hes hdl hel ?_⟩
            rw [hv] at h
            omega
          · have := Nat.mul_le_mul_left (10 ^ places) hv
            rw [Nat.mul_succ] at this
            omega

end CoachLedger.Decimal
