/-
**Dates survive their text form.**

A date is stored and sent as its text, and read back by the reader that takes all formats.  The
text is in the first of these formats, with or without blanks around it, so that it always gives
the date back.  It follows that different dates have different texts.

Main results:

* `CoachLedger.Date.readDigits?_append` — digits are read up to the first other character;
* `CoachLedger.Date.readLooseYear?_yearText` — a year is read back, with its sign;
* `CoachLedger.Date.read?_dashed` — the first of the formats reads the text of a date;
* `CoachLedger.Date.read?_surrounded`, `CoachLedger.Date.read?_text` — **the text of a date denotes
  the date**, with and without blanks around it;
* `CoachLedger.Date.text_inj` — different dates have different texts.
-/

import CoachLedger.Calendar.Reader
import CoachLedger.Proofs.Decimal.Digits

set_option autoImplicit false

namespace CoachLedger.Text

/-! ### Trimming -/

theorem isBlank_of_isDigit {c : Char} (h : c.isDigit = true) : isBlank c = false := by
  have := Decimal.toNat_of_isDigit h
  simp [isBlank, isWithin, blankRanges]
  omega

/-- Blanks around a text that neither starts nor ends with one are taken off. -/
theorem trim_surrounded {before after : String} (hb : isAllBlank before = true)
    (ha : isAllBlank after = true) {s : String} {c d : Char} {cs ds : List Char}
    (hc : s.toList = c :: cs) (hd : s.toList = ds ++ [d]) (hcb : isBlank c = false)
    (hdb : isBlank d = false) : trim (before ++ s ++ after) = s := by
  have hb : ∀ x ∈ before.toList, isBlank x = true := List.all_eq_true.1 hb
  have ha : ∀ x ∈ after.toList, isBlank x = true := List.all_eq_true.1 ha
  have hstart : trimStart (before.toList ++ (s.toList ++ after.toList)) =
      s.toList ++ after.toList := by
    rw [trimStart, List.dropWhile_append_of_pos hb, hc, List.cons_append,
      List.dropWhile_cons_of_neg (by simp [hcb])]
  have hend : trimEnd (s.toList ++ after.toList) = s.toList := by
    rw [trimEnd, List.reverse_append,
      List.dropWhile_append_of_pos fun x hx => ha x (List.mem_reverse.1 hx), hd,
      List.reverse_append, List.reverse_singleton, List.singleton_append,
      List.dropWhile_cons_of_neg (by simp [hdb])]
    simp
  rw [trim, String.toList_append, String.toList_append, List.append_assoc, hstart, hend,
    String.ofList_toList]

end CoachLedger.Text

namespace CoachLedger.Date

/-! ### Digits -/

/-- The text does not start with a digit. -/
def NoDigitFirst (cs : List Char) : Prop :=
  ∀ c rest, cs = c :: rest → c.isDigit = false

theorem noDigitFirst_nil : NoDigitFirst [] := by
  intro c rest h
  cases h

theorem noDigitFirst_cons {c : Char} {cs : List Char} (h : c.isDigit = false) :
    NoDigitFirst (c :: cs) := by
  intro d rest hd
  cases hd
  exact h

theorem takeWhile_isDigit_append {ds rest : List Char} (hd : ∀ c ∈ ds, c.isDigit = true)
    (hr : NoDigitFirst rest) : (ds ++ rest).takeWhile Char.isDigit = ds := by
  rw [List.takeWhile_append_of_pos hd]
  cases rest with
  | nil => simp
  | cons c rest =>
      rw [List.takeWhile_cons_of_neg (by simp [hr c rest rfl])]
      simp

/-- Digits are read up to the first other character, or up to the greatest number of digits. -/
theorem readDigits?_append {least most : Nat} {ds rest : List Char}
    (hd : ∀ c ∈ ds, c.isDigit = true) (hl : least ≤ ds.length) (hm : ds.length ≤ most)
    (hr : ds.length = most ∨ NoDigitFirst rest) :
    readDigits? least most (ds ++ rest) = some (Decimal.ofDigits ds, rest) := by
  have htake : (ds ++ rest).take most = ds ++ rest.take (most - ds.length) := by
    rw [List.take_append, List.take_of_length_le hm]
  -- Either nothing more may be read, or the next character is no digit.
  have hnone : NoDigitFirst (rest.take (most - ds.length)) := by
    rcases hr with hr | hr
    · simp [hr, noDigitFirst_nil]
    · intro c r h
      cases rest with
      | nil => simp at h
      | cons x xs =>
          cases hk : most - ds.length with
          | zero => simp [hk] at h
          | succ k =>
              simp only [hk, List.take_succ_cons, List.cons.injEq] at h
              rw [← h.1]
              exact hr x xs rfl
  simp [readDigits?, htake, takeWhile_isDigit_append hd hnone, hl]

/-! ### Parts -/

theorem padded_eq_cons (width n : Nat) :
    ∃ c cs, Decimal.padded width n = c :: cs ∧ c.isDigit = true := by
  cases h : Decimal.padded width n with
  | nil => exact absurd h (Decimal.padded_ne_nil width n)
  | cons c cs => exact ⟨c, cs, rfl, Decimal.isDigit_of_mem_padded (h ▸ List.mem_cons_self ..)⟩

/-- A year is read back, with its sign. -/
theorem readLooseYear?_yearText (year : Int) (rest : List Char) :
    readLooseYear? (yearText year ++ '-' :: rest) = some (year, '-' :: rest) := by
  have hdash : NoDigitFirst ('-' :: rest) := noDigitFirst_cons rfl
  by_cases h : 0 ≤ year ∧ year ≤ 9999
  · have hlen : (Decimal.padded 4 year.toNat).length = 4 := by
      refine Decimal.length_padded (by decide) ?_
      omega
    obtain ⟨c, cs, hc, hcd⟩ := padded_eq_cons 4 year.toNat
    have hdigits : ∀ c ∈ Decimal.padded 4 year.toNat, c.isDigit = true :=
      fun c => Decimal.isDigit_of_mem_padded
    have hread : readDigits? 1 4 (Decimal.padded 4 year.toNat ++ '-' :: rest) = _ :=
      readDigits?_append hdigits (by omega) (by omega) (.inl hlen)
    rw [Decimal.ofDigits_padded] at hread
    -- Four digits without a sign: the first character is neither of the two signs.
    rw [yearText, if_pos h]
    unfold readLooseYear?
    split
    · rename_i ds heq
      rw [hc, List.cons_append, List.cons.injEq] at heq
      rw [heq.1] at hcd
      exact absurd hcd (by decide)
    · rename_i ds heq
      rw [hc, List.cons_append, List.cons.injEq] at heq
      rw [heq.1] at hcd
      exact absurd hcd (by decide)
    · rw [hread, Option.map_some]
      simp only [Int.toNat_of_nonneg h.1]
  · -- After a sign all digits up to the hyphen are read.
    have hread : readDigits? 1 (Decimal.padded 4 year.natAbs ++ '-' :: rest).length
        (Decimal.padded 4 year.natAbs ++ '-' :: rest) = some (year.natAbs, '-' :: rest) := by
      have hpos := Decimal.le_length_padded 4 year.natAbs
      rw [readDigits?_append (fun c => Decimal.isDigit_of_mem_padded) (by omega)
        (by simp) (.inr hdash), Decimal.ofDigits_padded]
    rw [yearText, if_neg h, List.cons_append]
    by_cases hn : year < 0
    · have hyear : -(year.natAbs : Int) = year := by omega
      rw [if_pos hn, readLooseYear?, hread, Option.map_some]
      dsimp only
      rw [hyear]
    · have hyear : (year.natAbs : Int) = year := by omega
      rw [if_neg hn, readLooseYear?, hread, Option.map_some]
      dsimp only
      rw [hyear]

/-- A month or a day is read back. -/
theorem readDigits?_padded {n : Nat} (h : n < 100) (rest : List Char) :
    readDigits? 1 2 (Decimal.padded 2 n ++ rest) = some (n, rest) := by
  have hlen : (Decimal.padded 2 n).length = 2 := Decimal.length_padded (by decide) h
  rw [readDigits?_append (fun c => Decimal.isDigit_of_mem_padded) (by omega) (by omega)
    (.inl hlen), Decimal.ofDigits_padded]

theorem trimStart_padded (width n : Nat) (rest : List Char) :
    Text.trimStart (Decimal.padded width n ++ rest) = Decimal.padded width n ++ rest := by
  obtain ⟨c, cs, hc, hcd⟩ := padded_eq_cons width n
  rw [hc, List.cons_append, Text.trimStart_eq_self (Text.isBlank_of_isDigit hcd)]

/-- The sign that a year is written with, if any. -/
def yearSign (year : Int) : List Char :=
  if year < 0 then ['-'] else if 9999 < year then ['+'] else []

theorem yearText_eq (year : Int) :
    yearText year = yearSign year ++ Decimal.padded 4 year.natAbs := by
  unfold yearText yearSign
  by_cases hneg : year < 0
  · rw [if_neg (by omega), if_pos hneg, if_pos hneg]
    rfl
  · by_cases hbig : 9999 < year
    · rw [if_neg (by omega), if_neg hneg, if_neg hneg, if_pos hbig]
      rfl
    · have hnat : year.natAbs = year.toNat := by omega
      rw [if_pos (by omega), if_neg hneg, if_neg hbig, hnat]
      rfl

/-- The first character of the text of a year. -/
def IsYearFirst (c : Char) : Prop :=
  c.isDigit = true ∨ c = '-' ∨ c = '+'

theorem yearText_eq_cons (year : Int) :
    ∃ c cs, yearText year = c :: cs ∧ IsYearFirst c := by
  unfold yearText
  split
  · obtain ⟨c, cs, hc, hcd⟩ := padded_eq_cons 4 year.toNat
    exact ⟨c, cs, hc, .inl hcd⟩
  · refine ⟨_, _, rfl, ?_⟩
    split
    · exact .inr (.inl rfl)
    · exact .inr (.inr rfl)

theorem isBlank_of_isYearFirst {c : Char} (h : IsYearFirst c) : Text.isBlank c = false := by
  rcases h with h | rfl | rfl
  · exact Text.isBlank_of_isDigit h
  · decide
  · decide

theorem readLoose?_year (year : Int) (rest : List Char) :
    readLoose? .year (yearText year ++ '-' :: rest) = some (year, '-' :: rest) := by
  obtain ⟨c, cs, hc, hcy⟩ := yearText_eq_cons year
  have htrim : Text.trimStart (yearText year ++ '-' :: rest) = yearText year ++ '-' :: rest := by
    rw [hc, List.cons_append, Text.trimStart_eq_self (isBlank_of_isYearFirst hcy)]
  simp only [readLoose?, htrim, if_true, readLooseYear?_yearText]

theorem readLoose?_padded (part : Part) (hp : part ≠ .year) {n : Nat} (h : n < 100)
    (rest : List Char) :
    readLoose? part (Decimal.padded 2 n ++ rest) = some ((n : Int), rest) := by
  simp only [readLoose?, trimStart_padded, if_neg hp, readDigits?_padded h, Option.map_some]

/-! ### Dates -/

theorem month_lt (d : Date) : d.month < 100 := by
  have := d.isReal.2.1.2
  omega

theorem day_lt (d : Date) : d.day < 100 := by
  have h := d.isReal.2.2.2
  have : monthLength d.year d.month ≤ 31 := by
    unfold monthLength
    split
    · split <;> omega
    · split <;> omega
  omega

theorem readPieces?_cons {piece : Piece} {pieces : List Piece} {d e : Draft}
    {cs rest : List Char} (h : piece.read? d cs = some (e, rest)) :
    readPieces? (piece :: pieces) d cs = readPieces? pieces e rest := by
  rw [readPieces?, h]

/-- A part of the date is filled in as it is read; the parts are checked together at the end. -/
theorem read?_loose {part : Part} (hp : part.limit? = none) (d : Draft) {cs rest : List Char}
    {n : Int} (h : readLoose? part cs = some (n, rest)) :
    (Piece.loose part).read? d cs = some (d.set part n, rest) := by
  simp [Piece.read?, h, Draft.fill?, hp]

theorem read?_separator (c : Char) (d : Draft) (rest : List Char) :
    (Piece.oneOf [c]).read? d (c :: rest) = some (d, rest) := by
  simp [Piece.read?]

theorem readPieces?_chars (d : Date) :
    readPieces? Format.dashed.pieces ⟨0, 0, 0⟩ d.chars = some ⟨d.year, d.month, d.day⟩ := by
  have hday := readLoose?_padded .day (by decide) d.day_lt []
  rw [List.append_nil] at hday
  simp only [Format.pieces, Format.looseDate, chars]
  rw [readPieces?_cons (read?_loose rfl _ (readLoose?_year _ _)),
    readPieces?_cons (read?_separator ..),
    readPieces?_cons (read?_loose rfl _ (readLoose?_padded .month (by decide) d.month_lt _)),
    readPieces?_cons (read?_separator ..), readPieces?_cons (read?_loose rfl _ hday)]
  simp [readPieces?, Draft.set]

/-- The text of a date starts as its year does. -/
theorem chars_eq_cons (d : Date) : ∃ c cs, d.chars = c :: cs ∧ IsYearFirst c := by
  obtain ⟨c, cs, hc, hcy⟩ := yearText_eq_cons d.year
  exact ⟨c, _, by rw [chars, hc, List.cons_append], hcy⟩

/-- The text of a date ends with a digit. -/
theorem chars_eq_append (d : Date) : ∃ cs c, d.chars = cs ++ [c] ∧ c.isDigit = true := by
  obtain ⟨ds, c, hc⟩ := (List.eq_nil_or_concat (Decimal.padded 2 d.day)).resolve_left
    (Decimal.padded_ne_nil 2 d.day)
  have hmem : c ∈ Decimal.padded 2 d.day := by simp [hc]
  refine ⟨yearText d.year ++ '-' :: (Decimal.padded 2 d.month ++ '-' :: ds), c, ?_,
    Decimal.isDigit_of_mem_padded hmem⟩
  simp [chars, hc]

theorem toList_text (d : Date) : d.text.toList = d.chars :=
  String.toList_ofList

/-- Blanks around the text of a date are taken off. -/
theorem trim_text (d : Date) {before after : String} (hb : Text.isAllBlank before = true)
    (ha : Text.isAllBlank after = true) : Text.trim (before ++ d.text ++ after) = d.text := by
  obtain ⟨c, cs, hc, hcy⟩ := d.chars_eq_cons
  obtain ⟨ds, x, hx, hxd⟩ := d.chars_eq_append
  rw [← toList_text] at hc hx
  exact Text.trim_surrounded hb ha hc hx (isBlank_of_isYearFirst hcy)
    (Text.isBlank_of_isDigit hxd)

/-- The first of the formats reads the text of a date. -/
theorem read?_dashed (d : Date) : Format.dashed.read? d.chars = some d := by
  rw [Format.read?, readPieces?_chars]
  exact ofParts?_eq_some_iff.2 ⟨rfl, rfl, rfl⟩

/-- The text of a date denotes the date, also with blanks around it. -/
theorem read?_surrounded (d : Date) {before after : String} (hb : Text.isAllBlank before = true)
    (ha : Text.isAllBlank after = true) : read? (before ++ d.text ++ after) = some d := by
  -- The first of the formats reads the text, so the others are not tried.
  simp only [read?, trim_text d hb ha, toList_text, Format.all, List.findSome?_cons, read?_dashed]

/-- **The text of a date denotes the date.** -/
theorem read?_text (d : Date) : read? d.text = some d := by
  have h : read? ("" ++ d.text ++ "") = some d := d.read?_surrounded rfl rfl
  rwa [String.empty_append, String.append_empty] at h

/-- Different dates have different texts. -/
theorem text_inj {a b : Date} : a.text = b.text ↔ a = b := by
  constructor
  · intro h
    have := read?_text a
    rw [h, read?_text b] at this
    exact (Option.some.inj this).symm
  · intro h
    rw [h]

end CoachLedger.Date
