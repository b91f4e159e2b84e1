/-
**The number that a decimal denotes.**

A decimal is written positionally or scientifically, with zeros and a point where the layout wants
them.  What is written is a literal in any case: digits, perhaps a point with further digits, and
perhaps an exponent.  Whatever the layout, the literal denotes the number of the decimal, so that
decimals with the same text denote the same number.

Main definitions:

* `CoachLedger.Decimal.value` — the number that a decimal denotes;
* `CoachLedger.Decimal.Literal` — a number as it is written;
* `CoachLedger.Decimal.literal` — what a decimal is written as.

Main results:

* `CoachLedger.Decimal.value_strip` — stripping zeros keeps the number;
* `CoachLedger.Decimal.write_eq` — a decimal is written as its literal;
* `CoachLedger.Decimal.spells_literal` — **the literal denotes the number**.
-/

import CoachLedger.Binary64.Layout
import CoachLedger.Proofs.Calendar.RoundTrip
import Mathlib.Data.Rat.Defs
import Mathlib.Tactic.FieldSimp
import Mathlib.Tactic.Ring

set_option autoImplicit false

namespace CoachLedger.Decimal

/-- The number that a decimal denotes. -/
def value (d : Decimal) : ℚ :=
  d.coefficient * (10 : ℚ) ^ d.exponent

theorem ten_ne_zero : (10 : ℚ) ≠ 0 := by norm_num

theorem powerOfTen_mono {j k : Nat} (h : j ≤ k) : powerOfTen j ≤ powerOfTen k :=
  Nat.pow_le_pow_right (by decide) h

theorem powerOfTen_add (j k : Nat) : powerOfTen (j + k) = powerOfTen j * powerOfTen k :=
  Nat.pow_add 10 j k

/-- Stripping zeros keeps the number. -/
theorem value_strip (d : Decimal) : d.strip.value = d.value := by
  fun_induction strip d with
  | case1 d h ih =>
      have hten : d.coefficient = 10 * (d.coefficient / 10) := by omega
      have hcast : (d.coefficient : ℚ) = 10 * ((d.coefficient / 10 : ℕ) : ℚ) := by exact_mod_cast hten
      rw [ih, value, value, hcast, zpow_add_one₀ ten_ne_zero]
      ring
  | case2 d h => rfl

/-! ### Digits with zeros -/

theorem isDigit_of_mem_replicate {k : Nat} {c : Char} (h : c ∈ List.replicate k '0') :
    c.isDigit = true := by
  rw [List.eq_of_mem_replicate h]
  rfl

theorem ofDigits_eq (cs : List Char) : ofDigits cs = Nat.ofDigitChars 10 cs 0 := rfl

/-- Zeros in front of digits do not count. -/
theorem ofDigits_zeros_append (k : Nat) (cs : List Char) :
    ofDigits (List.replicate k '0' ++ cs) = ofDigits cs := by
  rw [ofDigits_eq, Nat.ofDigitChars_append, Nat.ofDigitChars_replicate_zero, Nat.mul_zero,
    ofDigits_eq]

/-- Each zero behind digits multiplies by ten. -/
theorem ofDigits_append_zeros (cs : List Char) (k : Nat) :
    ofDigits (cs ++ List.replicate k '0') = ofDigits cs * 10 ^ k := by
  rw [ofDigits_eq, Nat.ofDigitChars_append, Nat.ofDigitChars_replicate_zero, ofDigits_eq,
    Nat.mul_comm]

/-! ### Reading what is written -/

/-- A text that starts with a digit has no sign. -/
theorem splitSign_of_isDigit {c : Char} (cs : List Char) (h : c.isDigit = true) :
    splitSign (c :: cs) = (false, c :: cs) := by
  unfold splitSign
  split
  · rename_i heq
    rw [List.cons.injEq] at heq
    rw [heq.1] at h
    cases h
  · rename_i heq
    rw [List.cons.injEq] at heq
    rw [heq.1] at h
    cases h
  · rfl

theorem splitDigits_append {ds rest : List Char} (hd : ∀ c ∈ ds, c.isDigit = true)
    (hr : Date.NoDigitFirst rest) : splitDigits (ds ++ rest) = (ds, rest) := by
  have hdrop : (ds ++ rest).dropWhile Char.isDigit = rest := by
    rw [List.dropWhile_append_of_pos hd]
    cases rest with
    | nil => rfl
    | cons c rest => rw [List.dropWhile_cons_of_neg (by simp [hr c rest rfl])]
  rw [splitDigits, Date.takeWhile_isDigit_append hd hr, hdrop]

/-- An exponent with its sign is read back. -/
theorem readExponent?_padded (width : Nat) (e : Int) :
    readExponent? ('e' :: (if e < 0 then '-' else '+') :: padded width e.natAbs) = some e := by
  have hall : (padded width e.natAbs).all Char.isDigit = true :=
    List.all_eq_true.2 fun c => isDigit_of_mem_padded
  by_cases h : e < 0
  · simp only [readExponent?, if_pos h, splitSign]
    simp only [true_or, if_true, ne_eq, padded_ne_nil, not_false_eq_true, hall, and_self,
      ofDigits_padded, Option.some.injEq]
    omega
  · simp only [readExponent?, if_neg h, splitSign]
    simp only [true_or, if_true, ne_eq, padded_ne_nil, not_false_eq_true, hall, and_self,
      ofDigits_padded, Bool.false_eq_true, if_false, Option.some.injEq]
    omega

/-! ### Literals -/

/-- A number as it is written: digits, further digits if there is a point, and an exponent if there
is one. -/
structure Literal where
  whole : List Char
  fraction : Option (List Char)
  exponent : Option Int

namespace Literal

variable {l : Literal} {width : Nat}

/-- The digits behind the point. -/
def fractionDigits (l : Literal) : List Char :=
  l.fraction.getD []

/-- The point with its digits, and the exponent with its sign. -/
def tail (width : Nat) (l : Literal) : List Char :=
  (l.fraction.elim [] fun f => '.' :: f) ++
    l.exponent.elim [] fun e => 'e' :: (if e < 0 then '-' else '+') :: padded width e.natAbs

/-- The text of a literal, whose exponent has at least `width` digits. -/
def chars (width : Nat) (l : Literal) : List Char :=
  l.whole ++ l.tail width

/-- The number that a literal denotes. -/
def value (l : Literal) : ℚ :=
  (ofDigits (l.whole ++ l.fractionDigits) : ℚ) *
    (10 : ℚ) ^ (l.exponent.getD 0 - l.fractionDigits.length)

/-- There are digits, and nothing else, where digits have to be. -/
structure IsProper (l : Literal) : Prop where
  ne_nil : l.whole ≠ []
  whole : ∀ c ∈ l.whole, c.isDigit = true
  fraction : ∀ f, l.fraction = some f → f ≠ [] ∧ ∀ c ∈ f, c.isDigit = true

/-! ### Reading literals -/

/-- What follows the digits behind the point. -/
theorem noDigitFirst_exponent (width : Nat) (e : Option Int) :
    Date.NoDigitFirst
      (e.elim [] fun e => 'e' :: (if e < 0 then '-' else '+') :: padded width e.natAbs) := by
  cases e with
  | none => exact Date.noDigitFirst_nil
  | some e => exact Date.noDigitFirst_cons rfl

theorem readExponent?_exponent (width : Nat) (e : Option Int) :
    readExponent?
        (e.elim [] fun e => 'e' :: (if e < 0 then '-' else '+') :: padded width e.natAbs) =
      some (e.getD 0) := by
  cases e with
  | none => rfl
  | some e => exact readExponent?_padded width e

/-- The digits of a literal end where its point or its exponent begins. -/
theorem splitDigits_chars (h : l.IsProper) :
    splitDigits (l.chars width) = (l.whole, l.tail width) := by
  refine splitDigits_append h.whole ?_
  unfold tail
  cases l.fraction with
  | none => exact noDigitFirst_exponent width l.exponent
  | some f => exact Date.noDigitFirst_cons rfl

/-- A literal has a digit first. -/
theorem head?_chars (h : l.IsProper) :
    ∃ c, (l.chars width).head? = some c ∧ c.isDigit = true := by
  obtain ⟨c, cs, hc⟩ := List.exists_cons_of_ne_nil h.ne_nil
  refine ⟨c, ?_, h.whole c (hc ▸ List.mem_cons_self ..)⟩
  rw [chars, hc]
  rfl

/-- **A literal is read as the number that it denotes.** -/
theorem read?_chars (h : l.IsProper) :
    ∃ d, read? (l.chars width) = some (false, d) ∧ d.value = l.value := by
  refine ⟨⟨ofDigits (l.whole ++ l.fractionDigits), l.exponent.getD 0 - l.fractionDigits.length⟩, ?_,
    rfl⟩
  have hsign : splitSign (l.chars width) = (false, l.chars width) := by
    obtain ⟨c, cs, hc⟩ := List.exists_cons_of_ne_nil h.ne_nil
    have hdigit := h.whole c (hc ▸ List.mem_cons_self ..)
    rw [chars, hc]
    exact splitSign_of_isDigit _ hdigit
  have hsplit : splitFraction (l.tail width) =
      (l.fractionDigits, l.exponent.elim [] fun e =>
        'e' :: (if e < 0 then '-' else '+') :: padded width e.natAbs) := by
    unfold tail fractionDigits
    cases hf : l.fraction with
    | none => cases l.exponent <;> rfl
    | some f =>
        exact splitDigits_append (h.fraction f hf).2 (noDigitFirst_exponent width l.exponent)
  unfold read?
  simp only [hsign, splitDigits_chars h, hsplit, readExponent?_exponent, h.ne_nil,
    List.isEmpty_iff, Bool.and_eq_true, false_and, if_false, Option.map_some]

/-! ### What is written -/

/-- Digits whose first one stands for the power `lead` of ten, with the point where it belongs. -/
def positional (layout : Layout) (ds : List Char) (lead : Int) : Literal :=
  if lead < 0 then ⟨['0'], some (List.replicate (-lead - 1).toNat '0' ++ ds), none⟩
  else
    let whole := lead.toNat + 1
    if ds.length ≤ whole then
      ⟨ds ++ List.replicate (whole - ds.length) '0',
        if layout.integerPoint then some ['0'] else none, none⟩
    else ⟨ds.take whole, some (ds.drop whole), none⟩

/-- The same digits with the power as the exponent. -/
def scientific (layout : Layout) (ds : List Char) (lead : Int) : Literal :=
  let fraction : Option (List Char) :=
    match ds with
    | [] | [_] => if layout.mantissaPoint then some ['0'] else none
    | _ :: rest => some rest
  ⟨ds.take 1, fraction, some lead⟩

/-- The literal denotes the number with the given digits, of which the first one stands for the
power `lead` of ten, and it has no superfluous zero in front if the digits have none. -/
structure Spells (ds : List Char) (lead : Int) (l : Literal) : Prop where
  proper : l.IsProper
  value : l.value = (ofDigits ds : ℚ) * (10 : ℚ) ^ (lead + 1 - ds.length)
  plain : ds.head? ≠ some '0' → l.whole = ['0'] ∨ l.whole.head? ≠ some '0'

section

variable {ds : List Char}

theorem writePositional_eq (layout : Layout) (ds : List Char) (lead : Int) :
    writePositional layout ds lead = (positional layout ds lead).chars width := by
  unfold writePositional positional chars tail
  by_cases hneg : lead < 0
  · simp [hneg]
  · by_cases hlen : ds.length ≤ lead.toNat + 1
    · cases layout.integerPoint <;> simp [hneg, hlen]
    · simp [hneg, hlen]

variable (hne : ds ≠ []) (hds : ∀ c ∈ ds, c.isDigit = true)
include hne

theorem writeScientific_eq (layout : Layout) (lead : Int) :
    writeScientific layout ds lead = (scientific layout ds lead).chars layout.exponentWidth := by
  unfold writeScientific scientific chars tail
  match ds with
  | [] => exact absurd rfl hne
  | [d] => cases layout.mantissaPoint <;> rfl
  | d :: e :: rest => simp

include hds

/-- The point moves over the digits by the power of the first one. -/
theorem spells_positional (layout : Layout) (lead : Int) :
    Spells ds lead (positional layout ds lead) := by
  have hzeros (k : Nat) : ∀ c ∈ List.replicate k '0', c.isDigit = true := fun c =>
    isDigit_of_mem_replicate
  unfold positional
  by_cases hneg : lead < 0
  · -- Zeros stand between the point and the digits.
    rw [if_pos hneg]
    obtain ⟨k, hk⟩ : ∃ k, (-lead - 1).toNat = k := ⟨_, rfl⟩
    have hdigits : ofDigits (['0'] ++ (List.replicate k '0' ++ ds)) = ofDigits ds :=
      ofDigits_zeros_append (k + 1) ds
    rw [hk]
    refine ⟨⟨by simp, by simp [Char.isDigit], ?_⟩, ?_, fun _ => .inl rfl⟩
    · rintro f ⟨⟩
      exact ⟨by simp [hne], List.forall_mem_append.2 ⟨hzeros k, hds⟩⟩
    · rw [value, fractionDigits, Option.getD_some, hdigits, Option.getD_none, List.length_append,
        List.length_replicate]
      congr 2
      omega
  · rw [if_neg hneg]
    dsimp only
    split
    · rename_i hlen
      -- Zeros follow the digits up to the point, behind which nothing is left.
      obtain ⟨k, hk⟩ : ∃ k, lead.toNat + 1 - ds.length = k := ⟨_, rfl⟩
      have hlead : lead + 1 - ds.length = k := by omega
      rw [hk]
      refine ⟨⟨by simp [hne], List.forall_mem_append.2 ⟨hds, hzeros k⟩, ?_⟩, ?_, fun hplain =>
        .inr (by rwa [List.head?_append_of_ne_nil ds hne])⟩
      · intro f hf
        obtain rfl : ['0'] = f := by
          cases hpoint : layout.integerPoint <;> simp_all
        exact ⟨by simp, hzeros 1⟩
      · rw [hlead, value, fractionDigits, zpow_natCast]
        cases layout.integerPoint with
        | true =>
            have hpow : (10 : ℚ) ^ ((none : Option Int).getD 0 - (['0'].length : Int)) = 10⁻¹ :=
              zpow_neg_one 10
            have htenth : ofDigits (ds ++ List.replicate k '0' ++ ['0']) =
                ofDigits ds * 10 ^ k * 10 ^ 1 := by
              rw [← List.replicate_one, ofDigits_append_zeros, ofDigits_append_zeros]
            rw [if_pos rfl, Option.getD_some, hpow, htenth]
            push_cast
            ring
        | false =>
            have hpow : (10 : ℚ) ^ ((none : Option Int).getD 0 - (([] : List Char).length : Int)) =
                1 := zpow_zero 10
            rw [if_neg Bool.false_ne_true, Option.getD_none, hpow, List.append_nil,
              ofDigits_append_zeros]
            push_cast
            ring
    · rename_i hlen
      -- The point stands between two of the digits.
      refine ⟨⟨by simp [hne], fun c hc => hds c (List.mem_of_mem_take hc), ?_⟩, ?_, fun hplain =>
        .inr (by rwa [List.head?_take, if_neg (Nat.succ_ne_zero _)])⟩
      · rintro f ⟨⟩
        refine ⟨by simpa [List.drop_eq_nil_iff] using hlen, fun c hc =>
          hds c (List.mem_of_mem_drop hc)⟩
      · rw [value, fractionDigits, Option.getD_some, List.take_append_drop, Option.getD_none,
          List.length_drop]
        congr 2
        omega

/-- The exponent is the power of the first digit. -/
theorem spells_scientific (layout : Layout) (lead : Int) :
    Spells ds lead (scientific layout ds lead) := by
  unfold scientific
  match ds with
  | [] => exact absurd rfl hne
  | [d] =>
      have hd : d.isDigit = true := hds d (List.mem_singleton_self d)
      refine ⟨⟨by simp, by simpa using hd, ?_⟩, ?_, fun hplain => .inr hplain⟩
      · intro f hf
        obtain rfl : ['0'] = f := by
          cases hpoint : layout.mantissaPoint <;> simp_all
        exact ⟨by simp, by simp [Char.isDigit]⟩
      · rw [value, fractionDigits]
        cases layout.mantissaPoint with
        | true =>
            have htenth : ofDigits ([d] ++ ['0']) = ofDigits [d] * 10 ^ 1 :=
              ofDigits_append_zeros [d] 1
            dsimp only
            rw [if_pos rfl, Option.getD_some, List.take_succ_cons, List.take_nil, htenth,
              List.length_singleton, List.length_singleton, Nat.cast_one,
              zpow_sub_one₀ ten_ne_zero, add_sub_cancel_right]
            push_cast
            field_simp
            rfl
        | false => simp
  | d :: e :: rest =>
      obtain ⟨hd, hrest⟩ := List.forall_mem_cons.1 hds
      refine ⟨⟨by simp, by simpa using hd, ?_⟩, ?_, fun hplain => .inr (by simpa using hplain)⟩
      · rintro f ⟨⟩
        exact ⟨by simp, hrest⟩
      · rw [value, fractionDigits]
        dsimp only
        rw [Option.getD_some, List.take_succ_cons, List.take_zero, List.singleton_append,
          Option.getD_some]
        congr 2
        simp only [List.length_cons]
        omega

end

end Literal

/-! ### Decimals -/

/-- What a decimal is written as in a layout. -/
def literal (layout : Layout) (d : Decimal) : Literal :=
  let ds := digits d.coefficient
  let lead := d.exponent + ds.length - 1
  match layout.positional with
  | none => .positional layout ds lead
  | some (least, greatest) =>
      if least ≤ lead ∧ lead ≤ greatest then .positional layout ds lead
      else .scientific layout ds lead

/-- A decimal is written as its literal. -/
theorem write_eq (layout : Layout) (d : Decimal) :
    d.write layout = (d.literal layout).chars layout.exponentWidth := by
  unfold write literal
  dsimp only
  cases layout.positional with
  | none => exact Literal.writePositional_eq ..
  | some bounds =>
      dsimp only
      split
      · exact Literal.writePositional_eq ..
      · exact Literal.writeScientific_eq (digits_ne_nil _) ..

theorem spells_literal (layout : Layout) (d : Decimal) :
    (d.literal layout).Spells (digits d.coefficient)
      (d.exponent + (digits d.coefficient).length - 1) := by
  have hne := digits_ne_nil d.coefficient
  have hds : ∀ c ∈ digits d.coefficient, c.isDigit = true := fun c => isDigit_of_mem_digits
  unfold literal
  dsimp only
  split
  · exact Literal.spells_positional hne hds ..
  · split
    · exact Literal.spells_positional hne hds ..
    · exact Literal.spells_scientific hne hds ..

theorem value_literal (layout : Layout) (d : Decimal) : (d.literal layout).value = d.value := by
  rw [(spells_literal layout d).value, ofDigits_digits, value]
  congr 2
  omega

end CoachLedger.Decimal
