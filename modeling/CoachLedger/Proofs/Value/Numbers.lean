/-
**Spellings of numbers.**

A number has two texts: the spelling of a numeral in JSON, and the text form of a value.  Both are a
decimal that belongs to the number, with a minus in front if it is negative.  So both are read as
the number, up to the sign of zero; finite numbers have the same text form if they are equal, and
only then; and no spelling is that of a date, since what follows the first digits of a number is a
point or an exponent.

Main definitions:

* `CoachLedger.Binary64.IsSpelledBy` — the characters spell the number.

Main results:

* `CoachLedger.Binary64.IsSpelledBy.readNumber?` — **a spelling is read as the number**;
* `CoachLedger.Binary64.IsSpelledBy.readDate?` — and it is not read as a date;
* `CoachLedger.Json.Numeral.isSpelledBy_text`, `CoachLedger.Value.isSpelledBy_numberText` — both
  texts of a number spell it;
* `CoachLedger.Value.numberText_eq_iff` — **numbers have the same text form if they are equal**;
* `CoachLedger.Value.numberText_eq_spelling_iff` — a spelling is the text form of equal numbers, or
  of none.
-/

import CoachLedger.Proofs.Binary64.Rounding
import CoachLedger.Proofs.Json.Numbers
import CoachLedger.Proofs.Value.Shape
import CoachLedger.Value.Compare

set_option autoImplicit false

namespace CoachLedger

/-! ### Texts without blanks and capitals -/

namespace Text

theorem trim_eq_self_of_forall {s : String} (h : ∀ c ∈ s.toList, isBlank c = false) :
    trim s = s := by
  have hkept {cs : List Char} (hcs : ∀ c ∈ cs, isBlank c = false) : cs.dropWhile isBlank = cs := by
    cases cs with
    | nil => rfl
    | cons c cs => exact trimStart_eq_self (hcs c (List.mem_cons_self ..))
  have hreverse : ∀ c ∈ s.toList.reverse, isBlank c = false := fun c hc =>
    h c (List.mem_reverse.1 hc)
  rw [trim, trimStart, hkept h, trimEnd, hkept hreverse, List.reverse_reverse, String.ofList_toList]

theorem toLower_of_isDigit {c : Char} (h : c.isDigit = true) : c.toLower = c := by
  obtain ⟨-, hle⟩ := Decimal.toNat_of_isDigit h
  refine dif_neg fun hupper => ?_
  have hge : 65 ≤ c.toNat := UInt32.le_iff_toNat_le.1 hupper.1
  omega

theorem fold_eq_self {s : String} (h : ∀ c ∈ s.toList, c.toLower = c) : fold s = s := by
  have hmap : s.toList.map Char.toLower = s.toList :=
    (List.map_congr_left h).trans (List.map_id _)
  rw [fold, hmap, String.ofList_toList]

end Text

/-! ### Texts that are no dates -/

namespace Date

/-- What is left when digits have been read starts with a digit, or it is what follows all of
them. -/
theorem head?_of_readDigits? {least most n : Nat} {ds rest rem : List Char}
    (hd : ∀ c ∈ ds, c.isDigit = true) (hr : NoDigitFirst rest)
    (h : readDigits? least most (ds ++ rest) = some (n, rem)) :
    ∀ c ∈ rem.head?, c.isDigit = true ∨ c ∈ rest.head? := by
  obtain ⟨k, hk, rfl⟩ : ∃ k, k ≤ ds.length ∧ rem = (ds ++ rest).drop k := by
    unfold readDigits? at h
    dsimp only at h
    split at h
    · obtain ⟨-, rfl⟩ := Prod.mk.inj (Option.some.inj h)
      refine ⟨_, ?_, rfl⟩
      -- The digits that are read are the first ones of all digits.
      have hprefix := List.take_prefix most (ds ++ rest)
      obtain ⟨t, ht⟩ := (List.takeWhile_prefix Char.isDigit).trans hprefix
      have hdigits (c : Char) (hc : c ∈ ((ds ++ rest).take most).takeWhile Char.isDigit) :
          c.isDigit = true := List.all_eq_true.1 List.all_takeWhile c hc
      have hall := takeWhile_isDigit_append hd hr
      rw [← ht, List.takeWhile_append_of_pos hdigits] at hall
      have hlen := congrArg List.length hall
      rw [List.length_append] at hlen
      omega
    · cases h
  intro c hc
  rw [List.drop_append_of_le_length hk] at hc
  cases hdrop : ds.drop k with
  | nil =>
      rw [hdrop] at hc
      exact .inr hc
  | cons d ds' =>
      rw [hdrop] at hc
      obtain rfl := Option.some.inj hc
      exact .inl (hd d (List.mem_of_mem_drop (hdrop ▸ List.mem_cons_self ..)))

/-- Every format has a year first, and a hyphen or a slash after it. -/
theorem pieces_eq (f : Format) : ∃ year separator rest,
    f.pieces = year :: .oneOf [separator] :: rest ∧
      (year = .loose .year ∨ year = .fixed .year 4) ∧ (separator = '-' ∨ separator = '/') := by
  cases f with
  | internet => exact ⟨_, _, _, rfl, .inr rfl, .inl rfl⟩
  | slashed => exact ⟨_, _, _, rfl, .inl rfl, .inr rfl⟩
  | _ => exact ⟨_, _, _, rfl, .inl rfl, .inl rfl⟩

/-- A year in a loose format is read from the digits after its sign. -/
theorem readLoose?_signed (negative : Bool) {ds : List Char} (rest : List Char) (hne : ds ≠ [])
    (hd : ∀ c ∈ ds, c.isDigit = true) :
    ∃ most, readLoose? .year (Json.Numeral.signed negative (ds ++ rest)) =
      (readDigits? 1 most (ds ++ rest)).map fun x =>
        (if negative then -(x.1 : Int) else x.1, x.2) := by
  obtain ⟨c, cs, rfl⟩ := List.exists_cons_of_ne_nil hne
  have hc := hd c (List.mem_cons_self ..)
  cases negative with
  | true =>
      have hminus : Text.trimStart ('-' :: (c :: cs ++ rest)) = '-' :: (c :: cs ++ rest) :=
        Text.trimStart_eq_self (by decide)
      refine ⟨(c :: cs ++ rest).length, ?_⟩
      rw [Json.Numeral.signed, if_pos rfl, List.singleton_append, readLoose?, hminus, if_pos rfl]
      rfl
  | false =>
      have hstart : Text.trimStart (c :: cs ++ rest) = c :: cs ++ rest :=
        Text.trimStart_eq_self (Text.isBlank_of_isDigit hc)
      refine ⟨4, ?_⟩
      rw [Json.Numeral.signed, if_neg Bool.false_ne_true, List.nil_append, readLoose?, hstart,
        if_pos rfl, List.cons_append]
      unfold readLooseYear?
      split
      · rename_i heq
        obtain ⟨rfl, -⟩ := List.cons.inj heq
        cases hc
      · rename_i heq
        obtain ⟨rfl, -⟩ := List.cons.inj heq
        cases hc
      · rfl

/-- What is left after the year of a text that starts with digits. -/
theorem head?_of_year {negative : Bool} {ds rest rem : List Char} {d e : Draft} {year : Piece}
    (hyear : year = .loose .year ∨ year = .fixed .year 4) (hne : ds ≠ [])
    (hd : ∀ c ∈ ds, c.isDigit = true) (hr : NoDigitFirst rest)
    (h : year.read? d (Json.Numeral.signed negative (ds ++ rest)) = some (e, rem)) :
    ∀ c ∈ rem.head?, c.isDigit = true ∨ c ∈ rest.head? := by
  rcases hyear with rfl | rfl
  · simp only [Piece.read?, Option.bind_eq_bind, Option.bind_eq_some_iff] at h
    obtain ⟨⟨n, left⟩, hread, e', -, heq⟩ := h
    obtain ⟨-, rfl⟩ := Prod.mk.inj (Option.some.inj heq)
    obtain ⟨most, hloose⟩ := readLoose?_signed negative rest hne hd
    rw [hloose] at hread
    obtain ⟨x, hdigits, heq⟩ := Option.map_eq_some_iff.1 hread
    obtain ⟨-, rfl⟩ := Prod.mk.inj heq
    exact head?_of_readDigits? hd hr hdigits
  · simp only [Piece.read?, Option.bind_eq_bind, Option.bind_eq_some_iff] at h
    obtain ⟨⟨n, left⟩, hread, e', -, heq⟩ := h
    obtain ⟨-, rfl⟩ := Prod.mk.inj (Option.some.inj heq)
    cases negative with
    | true => cases hread
    | false => exact head?_of_readDigits? hd hr hread

/-- **A text with digits that neither a hyphen nor a slash follows is no date.** -/
theorem read?_eq_none {negative : Bool} {ds rest : List Char} {s : String}
    (hs : s.toList = Json.Numeral.signed negative (ds ++ rest)) (htrim : Text.trim s = s)
    (hne : ds ≠ []) (hd : ∀ c ∈ ds, c.isDigit = true) (hr : NoDigitFirst rest)
    (hhyphen : '-' ∉ rest.head?) (hslash : '/' ∉ rest.head?) : read? s = none := by
  rw [read?, htrim, hs]
  refine List.findSome?_eq_none_iff.2 fun f _ => ?_
  obtain ⟨year, separator, pieces, hpieces, hyear, hseparator⟩ := pieces_eq f
  rw [Format.read?, hpieces, readPieces?]
  cases hread : year.read? ⟨0, 0, 0⟩ (Json.Numeral.signed negative (ds ++ rest)) with
  | none => rfl
  | some x =>
      obtain ⟨d, rem⟩ := x
      have hhead := head?_of_year hyear hne hd hr hread
      have hnone : (Piece.oneOf [separator]).read? d rem = none := by
        cases rem with
        | nil => rfl
        | cons c rem =>
            refine if_neg fun hmem => ?_
            obtain rfl := List.mem_singleton.1 hmem
            rcases hseparator with rfl | rfl
            · exact (hhead _ rfl).elim (fun h => by cases h) hhyphen
            · exact (hhead _ rfl).elim (fun h => by cases h) hslash
      dsimp only
      rw [readPieces?, hnone]

end Date

/-! ### Spellings -/

namespace Decimal

/-- The characters of literals. -/
theorem Literal.mem_chars {l : Literal} (hl : l.IsProper) {width : Nat} {c : Char}
    (h : c ∈ l.chars width) : c.isDigit = true ∨ c ∈ ['-', '+', '.', 'e'] := by
  unfold chars tail at h
  rcases List.mem_append.1 h with hc | h
  · exact .inl (hl.whole c hc)
  · rcases List.mem_append.1 h with hc | hc
    · cases hf : l.fraction with
      | none =>
          rw [hf] at hc
          cases hc
      | some f =>
          rw [hf, Option.elim_some, List.mem_cons] at hc
          rcases hc with rfl | hc
          · exact .inr (by decide)
          · exact .inl ((hl.fraction f hf).2 c hc)
    · cases he : l.exponent with
      | none =>
          rw [he] at hc
          cases hc
      | some e =>
          rw [he, Option.elim_some, List.mem_cons, List.mem_cons] at hc
          rcases hc with rfl | rfl | hc
          · exact .inr (by decide)
          · split
            · exact .inr (by decide)
            · exact .inr (by decide)
          · exact .inl (isDigit_of_mem_padded hc)

/-- What follows the first digits of a literal is a point or an exponent. -/
theorem Literal.head?_tail {l : Literal} {width : Nat} {c : Char} (h : c ∈ (l.tail width).head?) :
    c = '.' ∨ c = 'e' := by
  unfold tail at h
  cases hf : l.fraction with
  | some f =>
      rw [hf] at h
      exact .inl (Option.some.inj h).symm
  | none =>
      cases he : l.exponent with
      | some e =>
          rw [hf, he] at h
          exact .inr (Option.some.inj h).symm
      | none =>
          rw [hf, he] at h
          cases h

/-- A minus in front is read as one. -/
theorem read?_signed (negative : Bool) {cs : List Char} {d : Decimal}
    (hhead : ∃ c, cs.head? = some c ∧ c.isDigit = true) (h : read? cs = some (false, d)) :
    read? (Json.Numeral.signed negative cs) = some (negative, d) := by
  cases negative with
  | false => exact h
  | true =>
      obtain ⟨c, hc, hdigit⟩ := hhead
      obtain ⟨rest, rfl⟩ := List.head?_eq_some_iff.1 hc
      unfold read? at h ⊢
      rw [splitSign_of_isDigit rest hdigit] at h
      rw [Json.Numeral.signed, if_pos rfl, List.singleton_append, splitSign]
      dsimp only at h ⊢
      split
      · rename_i hempty
        rw [if_pos hempty] at h
        cases h
      · rename_i hempty
        rw [if_neg hempty] at h
        obtain ⟨e, he, hpair⟩ := Option.map_eq_some_iff.1 h
        obtain ⟨-, rfl⟩ := Prod.mk.inj hpair
        exact Option.map_eq_some_iff.2 ⟨e, he, rfl⟩

end Decimal

namespace Binary64

/-- The characters are a decimal that belongs to the number, with a minus in front if it is
negative. -/
inductive IsSpelledBy : Binary64 → List Char → Prop
  | intro (negative : Bool) (r width : Nat) (l : Decimal.Literal) :
      l.IsProper → ReadsBack r l.value → r < topRank →
        IsSpelledBy (ofRank negative r) (Json.Numeral.signed negative (l.chars width))

namespace IsSpelledBy

variable {x : Binary64} {cs : List Char}

theorem mem (h : IsSpelledBy x cs) {c : Char} (hc : c ∈ cs) :
    c.isDigit = true ∨ c ∈ ['-', '+', '.', 'e'] := by
  obtain ⟨negative, r, width, l, hl, -, -⟩ := h
  rcases List.mem_append.1 hc with hc | hc
  · split at hc
    · obtain rfl := List.mem_singleton.1 hc
      exact .inr (by decide)
    · cases hc
  · exact Decimal.Literal.mem_chars hl hc

/-- What holds of digits and of the other characters of numbers holds of all characters. -/
theorem forall_mem (h : IsSpelledBy x cs) {P : Char → Prop} (hdigit : ∀ c, c.isDigit = true → P c)
    (hother : P '-' ∧ P '+' ∧ P '.' ∧ P 'e') : ∀ c ∈ (String.ofList cs).toList, P c := by
  intro c hc
  rw [String.toList_ofList] at hc
  obtain ⟨hminus, hplus, hpoint, he⟩ := hother
  rcases h.mem hc with hdigit' | hmem
  · exact hdigit c hdigit'
  · simp only [List.mem_cons, List.not_mem_nil, or_false] at hmem
    rcases hmem with rfl | rfl | rfl | rfl
    · exact hminus
    · exact hplus
    · exact hpoint
    · exact he

theorem trim (h : IsSpelledBy x cs) : Text.trim (String.ofList cs) = String.ofList cs :=
  Text.trim_eq_self_of_forall (h.forall_mem (fun _ => Text.isBlank_of_isDigit) (by decide))

theorem fold (h : IsSpelledBy x cs) : Text.fold (String.ofList cs) = String.ofList cs :=
  Text.fold_eq_self (h.forall_mem (fun _ => Text.toLower_of_isDigit) (by decide))

theorem isFinite (h : IsSpelledBy x cs) : x.isFinite = true := by
  obtain ⟨negative, r, width, l, -, -, hr⟩ := h
  exact decide_eq_true (Nat.lt_of_le_of_lt (Nat.min_le_left ..) hr)

/-- **A spelling is read as the number.** -/
theorem readNumber? (h : IsSpelledBy x cs) : Value.readNumber? (String.ofList cs) = some x := by
  have htrim := h.trim
  have hfinite := h.isFinite
  obtain ⟨negative, r, width, l, hl, hback, hr⟩ := h
  obtain ⟨d, hread, hvalue⟩ := Decimal.Literal.read?_chars hl
  have hsigned := Decimal.read?_signed negative (Decimal.Literal.head?_chars hl) hread
  have hdecimal := ofDecimal_eq negative (hvalue ▸ hback) hr
  rw [Value.readNumber?, htrim, String.toList_ofList, hsigned]
  dsimp only
  rw [hdecimal, if_pos hfinite]

/-- **A spelling is not read as a date.** -/
theorem readDate? (h : IsSpelledBy x cs) : Date.read? (String.ofList cs) = none := by
  have htrim := h.trim
  obtain ⟨negative, r, width, l, hl, -, -⟩ := h
  refine Date.read?_eq_none String.toList_ofList htrim hl.ne_nil hl.whole ?_ ?_ ?_
  · intro c rest hc
    rcases Decimal.Literal.head?_tail (congrArg List.head? hc) with rfl | rfl <;> rfl
  · intro hc
    exact absurd (Decimal.Literal.head?_tail hc) (by decide)
  · intro hc
    exact absurd (Decimal.Literal.head?_tail hc) (by decide)

end IsSpelledBy

end Binary64

/-! ### Equal numbers -/

namespace Binary64

variable {x y : Binary64}

theorem ne_nan_of_isFinite (h : x.isFinite = true) : x ≠ nan := by
  rintro rfl
  cases h

theorem same_iff_key : x.same y = true ↔ x ≠ nan ∧ x.key = y.key := by
  cases x with
  | nan => exact iff_of_false (by rintro ⟨⟩) fun h => h.1 rfl
  | signed p r hr =>
      cases y with
      | nan => exact iff_of_false (by rintro ⟨⟩) fun h => by cases h.2
      | signed q r' hr' => simp [same, compare, key]

theorem isZero_iff_key : x.isZero = true ↔ x.key = some 0 := by
  cases x with
  | nan => exact iff_of_false (by rintro ⟨⟩) (by rintro ⟨⟩)
  | signed negative r hr => cases negative <;> simp [isZero, key]

theorem isZero_of_same (h : x.same y = true) (hx : x.isZero = true) : y.isZero = true := by
  rw [isZero_iff_key, ← (same_iff_key.1 h).2]
  exact isZero_iff_key.1 hx

theorem key_unsignedZero (x : Binary64) : x.unsignedZero.key = x.key := by
  unfold unsignedZero
  split
  · rename_i hzero
    rw [isZero_iff_key.1 hzero]
    rfl
  · rfl

end Binary64

/-! ### Numerals -/

namespace Json.Numeral

/-- An integer that fits 64 bits is spelled by its digits. -/
theorem isSpelledBy_integer {i : Int} (h : (integer i).IsInRange) :
    (Binary64.ofInt i).IsSpelledBy (integer i).text := by
  let l : Decimal.Literal := ⟨Decimal.digits i.natAbs, none, none⟩
  have hproper : l.IsProper :=
    ⟨Decimal.digits_ne_nil _, fun c => Decimal.isDigit_of_mem_digits, fun f hf => by cases hf⟩
  have hchars : (integer i).text = signed (i < 0) (l.chars 0) := by
    rw [text_integer, Decimal.Literal.chars, Decimal.Literal.tail]
    exact (List.append_nil _).symm ▸ rfl
  have hvalue : l.value = ((i.natAbs : ℕ) : ℚ) / (1 : ℕ) := by
    have hdigits : Decimal.ofDigits (l.whole ++ l.fractionDigits) = i.natAbs := by
      rw [Decimal.Literal.fractionDigits, Option.getD_none, List.append_nil]
      exact Decimal.ofDigits_digits _
    rw [Decimal.Literal.value, hdigits]
    simp [l, Decimal.Literal.fractionDigits]
  have hrank : Binary64.nearestRank i.natAbs 1 < Binary64.topRank := by
    have hle : i.natAbs ≤ maxNatural := by
      obtain ⟨hlow, hhigh⟩ := h
      unfold maxNegated at hlow
      unfold maxNatural at hhigh ⊢
      omega
    have hfinite := isFinite_ofNat hle
    rw [Binary64.ofNat, Binary64.ofRatio, Binary64.ofRank, Binary64.isFinite,
      decide_eq_true_eq] at hfinite
    exact (min_lt_iff.1 hfinite).resolve_right (Nat.lt_irrefl _)
  rw [hchars]
  refine .intro _ _ 0 l hproper ?_ hrank
  rw [hvalue]
  exact Binary64.readsBack_nearestRank Nat.one_pos hrank

/-- **A numeral is spelled by its text.** -/
theorem isSpelledBy_text {n : Numeral} (h : n.IsInRange) : n.toBinary64.IsSpelledBy n.text := by
  cases n with
  | integer i => exact isSpelledBy_integer h
  | float x =>
      obtain ⟨negative, r, hr, rfl⟩ := Binary64.eq_ofRank_of_isFinite h
      have htext : (float (.ofRank negative r)).text = signed negative (magnitude r) := by
        rw [Binary64.ofRank, text_float, Nat.min_eq_left hr.le]
      rw [htext, magnitude_eq]
      exact .intro _ _ _ _ (isProper_literal r) (readsBack_literal r) hr

end Json.Numeral

/-! ### Text forms -/

namespace Value

open Binary64

variable {x y : Binary64}

theorem toList_toString (i : Int) : (toString i).toList = (Json.Numeral.integer i).text := by
  rw [Json.Numeral.text_integer]
  cases i with
  | ofNat n => exact Nat.toList_repr
  | negSucc n =>
      have h : toString (Int.negSucc n) = "-" ++ (n + 1).repr := rfl
      rw [h, String.toList_append, Nat.toList_repr, decide_eq_true (Int.negSucc_lt_zero n)]
      rfl

theorem numberText_of_exactInteger? {i : Int} (h : x.exactInteger? = some i) :
    numberText x = toString i := by
  simp only [numberText, h]

/-- **The text form of a finite number spells it**, without the sign of zero. -/
theorem isSpelledBy_numberText (hx : x.isFinite = true) :
    x.unsignedZero.IsSpelledBy (numberText x).toList := by
  cases hexact : x.exactInteger? with
  | some i =>
      obtain ⟨hinteger, hle⟩ := Option.filter_eq_some_iff.1 hexact
      rw [decide_eq_true_eq] at hle
      rw [numberText_of_exactInteger? hexact, toList_toString, ← ofInt_eq_unsignedZero hinteger]
      refine Json.Numeral.isSpelledBy_integer ?_
      unfold maxExactInteger at hle
      unfold Json.Numeral.IsInRange Json.Numeral.maxNegated Json.Numeral.maxNatural
      omega
  | none =>
      have hzero : x.isZero = false := by
        by_contra hzero
        rw [exactInteger?, integer?_of_isZero (eq_true_of_ne_false hzero)] at hexact
        cases hexact
      obtain ⟨negative, r, hr, rfl⟩ := eq_ofRank_of_isFinite hx
      have htext : (numberText (ofRank negative r)).toList =
          Json.Numeral.signed negative ((shortest tie r).write layout) := by
        have hmin : min r topRank = r := Nat.min_eq_left hr.le
        unfold numberText
        simp only [hexact]
        unfold ofRank
        simp only [hmin, hr.ne, if_false]
        cases negative with
        | true => exact (String.toList_append ..).trans (by rw [String.toList_ofList]; rfl)
        | false => exact (String.toList_append ..).trans (by rw [String.toList_ofList]; rfl)
      have hback : ReadsBack r ((shortest tie r).literal layout).value := by
        rw [Decimal.value_literal]
        exact readsBack_shortest tie r
      rw [unsignedZero_of_not_isZero hzero, htext, Decimal.write_eq]
      exact .intro _ _ _ _ (Decimal.spells_literal layout _).proper hback hr

/-- What is infinite or not a number has a text that is read as no number. -/
theorem readNumber?_of_not_isFinite (hx : x.isFinite = false) :
    readNumber? (numberText x) = none ∧ readNumber? (Text.fold (numberText x)) = none := by
  have hexact : x.exactInteger? = none := by
    rw [exactInteger?]
    cases hinteger : x.integer? with
    | none => rfl
    | some i =>
        rw [isFinite_of_integer? hinteger] at hx
        cases hx
  unfold numberText
  simp only [hexact]
  cases x with
  | nan => decide
  | signed negative r hr =>
      obtain rfl : r = topRank := by
        rw [isFinite, decide_eq_false_iff_not] at hx
        omega
      simp only [if_true]
      cases negative <;> decide

/-- The text form of a number is read as the number, without the sign of zero. -/
theorem readNumber?_numberText (hx : x.isFinite = true) :
    readNumber? (numberText x) = some x.unsignedZero := by
  rw [← String.ofList_toList (s := numberText x)]
  exact (isSpelledBy_numberText hx).readNumber?

/-- A number is at the place in the order of what its text form is read as. -/
theorem key_of_readNumber? (h : readNumber? (numberText x) = some y) : x ≠ nan ∧ x.key = y.key := by
  cases hx : x.isFinite with
  | true =>
      rw [readNumber?_numberText hx, Option.some.injEq] at h
      exact ⟨ne_nan_of_isFinite hx, h ▸ (key_unsignedZero x).symm⟩
  | false =>
      rw [(readNumber?_of_not_isFinite hx).1] at h
      cases h

/-- **Numbers have the same text form if they are equal**, and only then. -/
theorem numberText_eq_iff (hy : y.isFinite = true) :
    numberText x = numberText y ↔ x.same y = true := by
  constructor
  · intro h
    have hkey := key_of_readNumber? (h.symm ▸ readNumber?_numberText hy)
    rwa [key_unsignedZero, ← same_iff_key] at hkey
  · intro h
    cases hx : x.isZero with
    | true =>
        have hzero := integer?_of_isZero (isZero_of_same h hx)
        simp only [numberText, exactInteger?, integer?_of_isZero hx, hzero]
        rfl
    | false => rw [eq_of_same hx h]

/-- **A spelling is the text form of equal numbers, or of none.** -/
theorem numberText_eq_spelling_iff {cs : List Char} (hcs : y.IsSpelledBy cs) :
    numberText x = String.ofList cs ↔ String.ofList cs = numberText y ∧ x.same y = true := by
  constructor
  · intro h
    have hsame := same_iff_key.2 (key_of_readNumber? (h.symm ▸ hcs.readNumber?))
    exact ⟨h ▸ (numberText_eq_iff hcs.isFinite).2 hsame, hsame⟩
  · rintro ⟨htext, hsame⟩
    rw [htext]
    exact (numberText_eq_iff hcs.isFinite).2 hsame

/-- Nor does folding make the text of a number a spelling. -/
theorem fold_numberText_eq_iff {cs : List Char} (hcs : y.IsSpelledBy cs) :
    Text.fold (numberText x) = Text.fold (String.ofList cs) ↔
      numberText x = String.ofList cs := by
  rw [hcs.fold]
  cases hx : x.isFinite with
  | true =>
      have hfold := (isSpelledBy_numberText hx).fold
      rw [String.ofList_toList] at hfold
      rw [hfold]
  | false =>
      obtain ⟨hplain, hfolded⟩ := readNumber?_of_not_isFinite hx
      have hread := hcs.readNumber?
      refine iff_of_false (fun h => ?_) (fun h => ?_)
      · rw [← h, hfolded] at hread
        cases hread
      · rw [← h, hplain] at hread
        cases hread

end Value

end CoachLedger
