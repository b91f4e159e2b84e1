/-
**Texts of one kind are not texts of another.**

Equality of two values that do not compare falls back on their texts, and the storage engine
compares texts where the program compares nothing.  The texts of the kinds differ in a few
characters: a date has a hyphen after its first character, which no number in positional notation
has, a boolean has an `e`, and a number with an exponent has one as well.

Main results:

* `CoachLedger.Value.hyphen_not_mem_tail_numberText` — a number has no hyphen but its sign;
* `CoachLedger.Date.hyphen_mem_tail_text` — a date has one;
* `CoachLedger.Sql.Cell.text?_ne_text` — a number as the engine writes it is no date;
* `CoachLedger.Sql.Cell.readNumber?_text` — a date does not look like a number to the engine.
-/

import CoachLedger.Proofs.Calendar.RoundTrip
import CoachLedger.Sql.Cell

set_option autoImplicit false

namespace CoachLedger.Decimal

/-! ### Layouts -/

/-- In positional notation there are digits and at most a point. -/
theorem mem_writePositional {layout : Layout} {ds : List Char} {lead : Int} {c : Char}
    (hd : ∀ c ∈ ds, c.isDigit = true) (h : c ∈ writePositional layout ds lead) :
    c.isDigit = true ∨ c = '.' := by
  have hzero : ∀ {n : Nat} {x : Char}, x ∈ List.replicate n '0' → x.isDigit = true := by
    intro n x hx
    rw [List.eq_of_mem_replicate hx]
    rfl
  -- The point stands in front of the digits, behind them, or between them.
  unfold writePositional at h
  split at h
  · simp only [List.mem_cons, List.mem_append] at h
    rcases h with rfl | rfl | h | h
    · exact .inl rfl
    · exact .inr rfl
    · exact .inl (hzero h)
    · exact .inl (hd c h)
  · dsimp only at h
    split at h
    · simp only [List.mem_append] at h
      rcases h with (h | h) | h
      · exact .inl (hd c h)
      · exact .inl (hzero h)
      · split at h
        · simp only [List.mem_cons, List.not_mem_nil, or_false] at h
          rcases h with rfl | rfl
          · exact .inr rfl
          · exact .inl rfl
        · simp at h
    · simp only [List.mem_append, List.mem_cons] at h
      rcases h with h | rfl | h
      · exact .inl (hd c (List.mem_of_mem_take h))
      · exact .inr rfl
      · exact .inl (hd c (List.mem_of_mem_drop h))

/-- A number is written with an exponent, or with digits and at most a point. -/
theorem mem_write (layout : Layout) (d : Decimal) :
    layout.positional.isSome = true ∧ 'e' ∈ d.write layout ∨
      ∀ c ∈ d.write layout, c.isDigit = true ∨ c = '.' := by
  unfold write
  split
  · exact .inr fun c hc => mem_writePositional (fun c => isDigit_of_mem_digits) hc
  · rename_i least greatest heq
    dsimp only
    split
    · exact .inr fun c hc => mem_writePositional (fun c => isDigit_of_mem_digits) hc
    · refine .inl ⟨by rw [heq]; rfl, ?_⟩
      simp [writeScientific]

end CoachLedger.Decimal

namespace CoachLedger

/-! ### Integers -/

/-- An integer is written with digits after an optional hyphen. -/
theorem toList_toString_int (i : Int) :
    ∃ ds : List Char, (∀ c ∈ ds, c.isDigit = true) ∧
      ((toString i).toList = ds ∨ (toString i).toList = '-' :: ds) := by
  have hd : ∀ n : Nat, ∀ c ∈ n.repr.toList, c.isDigit = true := by
    intro n c hc
    rw [Nat.toList_repr] at hc
    exact Decimal.isDigit_of_mem_digits hc
  cases i with
  | ofNat n => exact ⟨n.repr.toList, hd n, .inl rfl⟩
  | negSucc n =>
      refine ⟨(n + 1).repr.toList, hd (n + 1), .inr ?_⟩
      have h : toString (Int.negSucc n) = "-" ++ (n + 1).repr := rfl
      rw [h, String.toList_append]
      rfl

theorem hyphen_not_mem_tail {cs ds : List Char} (hd : ∀ c ∈ ds, c.isDigit = true ∨ c = '.')
    (h : cs = ds ∨ cs = '-' :: ds) : '-' ∉ cs.tail := by
  have hds : '-' ∉ ds := by
    intro hm
    rcases hd _ hm with h | h <;> exact absurd h (by decide)
  rcases h with rfl | rfl
  · exact fun hm => hds (List.mem_of_mem_tail hm)
  · exact hds

theorem e_not_mem {cs ds : List Char} (hd : ∀ c ∈ ds, c.isDigit = true ∨ c = '.')
    (h : cs = ds ∨ cs = '-' :: ds) : 'e' ∉ cs := by
  have hds : 'e' ∉ ds := by
    intro hm
    rcases hd _ hm with h | h <;> exact absurd h (by decide)
  rcases h with rfl | rfl
  · exact hds
  · simp [hds]

namespace Value

/-! ### Numbers -/

/-- A number is written with digits and at most a point after an optional hyphen, or it is infinite
or not a number. -/
theorem toList_numberText (x : Binary64) :
    (∃ ds : List Char, (∀ c ∈ ds, c.isDigit = true ∨ c = '.') ∧
      ((numberText x).toList = ds ∨ (numberText x).toList = '-' :: ds)) ∨
      numberText x = "NaN" ∨ numberText x = "inf" ∨ numberText x = "-inf" := by
  unfold numberText
  split
  · rename_i i _
    obtain ⟨ds, hd, h⟩ := toList_toString_int i
    exact .inl ⟨ds, fun c hc => .inl (hd c hc), h⟩
  · exact .inr (.inl rfl)
  · rename_i negative rank _ _
    dsimp only
    split
    · cases negative with
      | true => exact .inr (.inr (.inr rfl))
      | false => exact .inr (.inr (.inl rfl))
    · have hw := (Decimal.mem_write layout (Binary64.shortest tie rank)).resolve_left
        (fun h => absurd h.1 (by decide))
      refine .inl ⟨_, hw, ?_⟩
      cases negative with
      | true => right; simp
      | false => left; simp

/-- A number has no hyphen but its sign. -/
theorem hyphen_not_mem_tail_numberText (x : Binary64) : '-' ∉ (numberText x).toList.tail := by
  rcases toList_numberText x with ⟨ds, hd, h⟩ | h | h | h
  · exact hyphen_not_mem_tail hd h
  all_goals rw [h]; decide

theorem e_not_mem_numberText (x : Binary64) : 'e' ∉ (numberText x).toList := by
  rcases toList_numberText x with ⟨ds, hd, h⟩ | h | h | h
  · exact e_not_mem hd h
  all_goals rw [h]; decide

theorem e_mem_booleanText (b : Bool) : 'e' ∈ (booleanText b).toList := by
  cases b <;> decide

theorem numberText_ne_booleanText (x : Binary64) (b : Bool) : numberText x ≠ booleanText b := by
  intro h
  exact e_not_mem_numberText x (h ▸ e_mem_booleanText b)

end Value

namespace Date

/-! ### Dates -/

/-- A date is written with digits, hyphens and a plus. -/
theorem mem_text {d : Date} {c : Char} (h : c ∈ d.text.toList) :
    c.isDigit = true ∨ c = '-' ∨ c = '+' := by
  have hp : ∀ {w n : Nat}, c ∈ Decimal.padded w n → c.isDigit = true :=
    Decimal.isDigit_of_mem_padded
  rw [toList_text, chars, yearText] at h
  simp only [List.mem_append, List.mem_cons] at h
  rcases h with h | h | h | h | h
  · split at h
    · exact .inl (hp h)
    · rcases List.mem_cons.1 h with h | h
      · split at h
        · exact .inr (.inl h)
        · exact .inr (.inr h)
      · exact .inl (hp h)
  · exact .inr (.inl h)
  · exact .inl (hp h)
  · exact .inr (.inl h)
  · exact .inl (hp h)

theorem e_not_mem_text (d : Date) : 'e' ∉ d.text.toList := by
  intro h
  rcases mem_text h with h | h | h <;> exact absurd h (by decide)

/-- A date has a hyphen after its first character. -/
theorem hyphen_mem_tail_text (d : Date) : '-' ∈ d.text.toList.tail := by
  obtain ⟨c, cs, hc, -⟩ := yearText_eq_cons d.year
  rw [toList_text, chars, hc]
  simp

theorem numberText_ne_text (x : Binary64) (d : Date) : Value.numberText x ≠ d.text := by
  intro h
  exact Value.hyphen_not_mem_tail_numberText x (h ▸ hyphen_mem_tail_text d)

theorem booleanText_ne_text (b : Bool) (d : Date) : Value.booleanText b ≠ d.text := by
  intro h
  exact e_not_mem_text d (h ▸ Value.e_mem_booleanText b)

end Date

namespace Sql

/-! ### Numbers as the engine writes and reads them -/

theorem Numeral.text_ne_text (negative : Bool) (rank : Nat) (d : Date) :
    Numeral.text negative rank ≠ d.text := by
  intro h
  -- A real is infinite, or has an exponent, or is written without a second hyphen.
  have hcases : 'I' ∈ d.text.toList ∨ 'e' ∈ d.text.toList ∨ '-' ∉ d.text.toList.tail := by
    rw [← h, Numeral.text]
    split
    · left
      split <;> decide
    · split
      · exact .inr (.inr (by decide))
      · rcases Decimal.mem_write Numeral.layout (Numeral.decimal rank) with ⟨-, he⟩ | hw
        · right; left
          simp [he]
        · right; right
          refine hyphen_not_mem_tail hw ?_
          split
          · right; simp
          · left; simp
  rcases hcases with hI | he | hm
  · rcases Date.mem_text hI with h | h | h <;> exact absurd h (by decide)
  · exact Date.e_not_mem_text d he
  · exact hm (Date.hyphen_mem_tail_text d)

theorem toString_int_ne_text (i : Int) (d : Date) : toString i ≠ d.text := by
  intro h
  obtain ⟨ds, hd, hi⟩ := toList_toString_int i
  exact hyphen_not_mem_tail (fun c hc => .inl (hd c hc)) hi (h ▸ Date.hyphen_mem_tail_text d)

namespace Cell

/-- A number as the engine writes it is no date. -/
theorem text?_ne_text {c : Cell} (hc : ∀ s, c ≠ .text s) (d : Date) :
    c.text? ≠ some d.text := by
  cases c with
  | null => simp [text?]
  | integer i => simpa [text?] using toString_int_ne_text i d
  | real negative rank => simpa [text?] using Numeral.text_ne_text negative rank d
  | text s => exact absurd rfl (hc s)

/-! ### A date does not look like a number -/

theorem bare_eq_self {cs : List Char} {c d : Char} {ds es : List Char} (hc : cs = c :: ds)
    (hd : cs = es ++ [d]) (hcg : isGap c = false) (hdg : isGap d = false) : bare cs = cs := by
  have hstart : cs.dropWhile isGap = cs := by
    rw [hc, List.dropWhile_cons_of_neg (by simp [hcg])]
  rw [bare, hstart]
  conv => lhs; rw [hd]
  rw [List.reverse_append, List.reverse_singleton, List.singleton_append,
    List.dropWhile_cons_of_neg (by simp [hdg]), hd]
  simp

theorem isGap_of_isDigit {c : Char} (h : c.isDigit = true) : isGap c = false := by
  have hn := Decimal.toNat_of_isDigit h
  have hs : c ≠ ' ' := by
    rintro rfl
    exact absurd h (by decide)
  simp [isGap, hs]
  omega

/-- After the year of a date comes a hyphen, with which no fraction and no exponent starts. -/
theorem read?_digits_hyphen {ds : List Char} (hd : ∀ c ∈ ds, c.isDigit = true) (negative : Bool)
    {cs : List Char} (rest : List Char)
    (hs : Decimal.splitSign cs = (negative, ds ++ '-' :: rest)) : Decimal.read? cs = none := by
  have htake : (ds ++ '-' :: rest).takeWhile Char.isDigit = ds :=
    Date.takeWhile_isDigit_append hd (Date.noDigitFirst_cons rfl)
  have hdrop : (ds ++ '-' :: rest).dropWhile Char.isDigit = '-' :: rest := by
    rw [List.dropWhile_append_of_pos hd, List.dropWhile_cons_of_neg (by decide)]
  simp [Decimal.read?, hs, Decimal.splitDigits, htake, hdrop, Decimal.splitFraction,
    Decimal.readExponent?]

theorem decimalRead?_chars (d : Date) : Decimal.read? d.chars = none := by
  have hdigits : ∀ c ∈ Decimal.padded 4 d.year.natAbs, c.isDigit = true :=
    fun c => Decimal.isDigit_of_mem_padded
  rw [Date.chars, Date.yearText]
  split
  · rename_i h
    have hnat : d.year.toNat = d.year.natAbs := by omega
    obtain ⟨c, cs, hc, hcd⟩ := Date.padded_eq_cons 4 d.year.natAbs
    refine read?_digits_hyphen hdigits false
      (Decimal.padded 2 d.month ++ '-' :: Decimal.padded 2 d.day) ?_
    rw [hnat, hc, List.cons_append]
    unfold Decimal.splitSign
    split
    · rename_i heq
      rw [List.cons.injEq] at heq
      rw [heq.1] at hcd
      exact absurd hcd (by decide)
    · rename_i heq
      rw [List.cons.injEq] at heq
      rw [heq.1] at hcd
      exact absurd hcd (by decide)
    · rfl
  · split
    · exact read?_digits_hyphen hdigits true _ rfl
    · exact read?_digits_hyphen hdigits false _ rfl

theorem isGap_of_isYearFirst {c : Char} (h : Date.IsYearFirst c) : isGap c = false := by
  rcases h with h | rfl | rfl
  · exact isGap_of_isDigit h
  · decide
  · decide

/-- A date does not look like a number. -/
theorem readNumber?_text (d : Date) : readNumber? d.text = none := by
  obtain ⟨c, cs, hc, hcy⟩ := d.chars_eq_cons
  obtain ⟨ds, x, hx, hxd⟩ := d.chars_eq_append
  have hbare : bare d.text.toList = d.chars := by
    rw [Date.toList_text]
    exact bare_eq_self hc hx (isGap_of_isYearFirst hcy) (isGap_of_isDigit hxd)
  simp [readNumber?, hbare, decimalRead?_chars]

end Cell

end Sql

end CoachLedger
