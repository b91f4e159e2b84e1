/-
**What the pieces of a format take.**

A piece of a format takes some characters from the front of a text and leaves the rest.  Which it
takes is said here by rules that look at the characters taken and, where a piece could go on, at
the first character that is left: two digits are taken if there are two, and one only if no second
one follows.  The reader is this relation.  So a text can be cut where one piece ends and the next
one begins, and what comes later may be replaced as long as it starts alike.

Main definitions:

* `CoachLedger.Date.IsWord` — the digits of a part, with the sign of a year;
* `CoachLedger.Date.Piece.Takes` — what a piece takes, and what that makes of a draft;
* `CoachLedger.Date.Take` — the same for pieces one after the other.

Main results:

* `CoachLedger.Date.readDigits?_eq_some_iff`, `CoachLedger.Date.readLoose?_eq_some_iff` — which
  digits are read, and which parts;
* `CoachLedger.Date.Piece.read?_eq_some_iff` — **a piece is read as the rules say**;
* `CoachLedger.Date.readPieces?_eq_some_iff` — **a text is read if the pieces take all of it**;
* `CoachLedger.Date.take_append_iff` — pieces one after the other take one text after the other;
* `CoachLedger.Date.Take.congr` — only the first character of the rest matters;
* `CoachLedger.Date.Take.unique` — what is taken is determined by the text.
-/

import CoachLedger.Proofs.Calendar.RoundTrip
import Mathlib.Data.List.TakeWhile

set_option autoImplicit false

namespace CoachLedger.Date

variable {cs rest more : List Char} {d e : Draft}

/-! ### Digits -/

/-- All characters are digits. -/
def AreDigits (ds : List Char) : Prop :=
  ∀ c ∈ ds, c.isDigit = true

/-- All characters are blanks. -/
def AreBlanks (bs : List Char) : Prop :=
  ∀ c ∈ bs, Text.isBlank c = true

theorem NoDigitFirst.congr (h : NoDigitFirst rest) (hmore : more.head? = rest.head?) :
    NoDigitFirst more := by
  intro c tail hc
  rw [hc, List.head?_cons] at hmore
  obtain ⟨other, hother⟩ := List.head?_eq_some_iff.1 hmore.symm
  exact h c other hother

theorem NoDigitFirst.of_append (h : NoDigitFirst (cs ++ rest)) : NoDigitFirst cs := by
  intro c tail hcs
  exact h c (tail ++ rest) (by rw [hcs, List.cons_append])

theorem noDigitFirst_append {bs : List Char} (hbs : AreBlanks bs) (h : NoDigitFirst cs) :
    NoDigitFirst (bs ++ cs) := by
  cases bs with
  | nil => exact h
  | cons b bs =>
      refine noDigitFirst_cons (Bool.eq_false_iff.2 fun hdigit => ?_)
      have hblank := hbs b (List.mem_cons_self ..)
      rw [Text.isBlank_of_isDigit hdigit] at hblank
      cases hblank

/-- The digits at the front of a text are followed by no digit, unless no more may be taken. -/
theorem exists_digits (most : Nat) (cs : List Char) :
    ∃ rest, cs = (cs.take most).takeWhile Char.isDigit ++ rest ∧
      (((cs.take most).takeWhile Char.isDigit).length = most ∨ NoDigitFirst rest) := by
  induction cs generalizing most with
  | nil => exact ⟨[], by simp, .inr noDigitFirst_nil⟩
  | cons c cs ih =>
      cases most with
      | zero => exact ⟨c :: cs, rfl, .inl rfl⟩
      | succ most =>
          rw [List.take_succ_cons]
          cases hc : c.isDigit with
          | false =>
              rw [List.takeWhile_cons_of_neg (by simp [hc])]
              exact ⟨c :: cs, rfl, .inr (noDigitFirst_cons hc)⟩
          | true =>
              obtain ⟨rest, hcs, hends⟩ := ih most
              rw [List.takeWhile_cons_of_pos hc]
              refine ⟨rest, congrArg (c :: ·) hcs, hends.imp_left fun hlen => ?_⟩
              rw [List.length_cons, hlen]

/-- Which digits are read: as many as may be, and all there are if they are fewer. -/
theorem readDigits?_eq_some_iff {least most n : Nat} :
    readDigits? least most cs = some (n, rest) ↔
      ∃ ds, cs = ds ++ rest ∧ AreDigits ds ∧ least ≤ ds.length ∧ ds.length ≤ most ∧
        Decimal.ofDigits ds = n ∧ (ds.length = most ∨ NoDigitFirst rest) := by
  constructor
  · intro h
    obtain ⟨left, hcs, hends⟩ := exists_digits most cs
    have hdigits : AreDigits ((cs.take most).takeWhile Char.isDigit) :=
      fun c hc => List.mem_takeWhile_imp hc
    have hmost : ((cs.take most).takeWhile Char.isDigit).length ≤ most :=
      (List.takeWhile_prefix _).length_le.trans (List.length_take_le ..)
    simp only [readDigits?, Option.ite_none_right_eq_some, Option.some.injEq, Prod.mk.injEq] at h
    generalize (cs.take most).takeWhile Char.isDigit = ds at h hcs hends hdigits hmost
    obtain ⟨hleast, hn, hrest⟩ := h
    have hleft : left = rest := by rw [← hrest, hcs, List.drop_left]
    rw [hleft] at hcs hends
    exact ⟨ds, hcs, hdigits, hleast, hmost, hn, hends⟩
  · rintro ⟨ds, rfl, hdigits, hleast, hmost, rfl, hends⟩
    exact readDigits?_append hdigits hleast hmost hends

/-- Where any number of digits may be read, all there are are read. -/
theorem readDigits?_length_eq_some_iff {n : Nat} :
    readDigits? 1 cs.length cs = some (n, rest) ↔
      ∃ ds, cs = ds ++ rest ∧ AreDigits ds ∧ 1 ≤ ds.length ∧ Decimal.ofDigits ds = n ∧
        NoDigitFirst rest := by
  rw [readDigits?_eq_some_iff]
  constructor
  · rintro ⟨ds, rfl, hdigits, hleast, -, hn, hends⟩
    refine ⟨ds, rfl, hdigits, hleast, hn, hends.elim (fun hlen => ?_) id⟩
    have hrest : rest = [] := by
      rw [List.length_append] at hlen
      exact List.length_eq_zero_iff.1 (by omega)
    rw [hrest]
    exact noDigitFirst_nil
  · rintro ⟨ds, rfl, hdigits, hleast, hn, hends⟩
    exact ⟨ds, rfl, hdigits, hleast, by simp, hn, .inr hends⟩

/-! ### Parts -/

/-- The greatest number of digits that a part has without a sign. -/
def Part.width (part : Part) : Nat :=
  if part = .year then 4 else 2

/-- The digits of a part, with the sign of a year; what follows is the second text.  Without a sign
the digits end at their greatest number or before another character, with a sign only there. -/
inductive IsWord : Part → List Char → List Char → Int → Prop
  | unsigned {part : Part} {ds rest : List Char} (digits : AreDigits ds) (least : 1 ≤ ds.length)
      (most : ds.length ≤ part.width) (ends : ds.length = part.width ∨ NoDigitFirst rest) :
      IsWord part ds rest (Decimal.ofDigits ds)
  | plus {ds rest : List Char} (digits : AreDigits ds) (least : 1 ≤ ds.length)
      (ends : NoDigitFirst rest) : IsWord .year ('+' :: ds) rest (Decimal.ofDigits ds)
  | minus {ds rest : List Char} (digits : AreDigits ds) (least : 1 ≤ ds.length)
      (ends : NoDigitFirst rest) : IsWord .year ('-' :: ds) rest (-(Decimal.ofDigits ds : Int))

theorem exists_cons_of_digits {ds : List Char} (digits : AreDigits ds) (least : 1 ≤ ds.length) :
    ∃ c tail, ds = c :: tail ∧ c.isDigit = true := by
  cases ds with
  | nil => simp at least
  | cons c tail => exact ⟨c, tail, rfl, digits c (List.mem_cons_self ..)⟩

/-- The word of a part starts with a digit or a sign. -/
theorem IsWord.eq_cons {part : Part} {word : List Char} {n : Int} (h : IsWord part word rest n) :
    ∃ c tail, word = c :: tail ∧ IsYearFirst c := by
  cases h with
  | unsigned digits least most ends =>
      obtain ⟨c, tail, hds, hc⟩ := exists_cons_of_digits digits least
      exact ⟨c, tail, hds, .inl hc⟩
  | plus digits least ends => exact ⟨'+', _, rfl, .inr (.inr rfl)⟩
  | minus digits least ends => exact ⟨'-', _, rfl, .inr (.inl rfl)⟩

/-- A year without a sign is read as up to four digits. -/
theorem readLooseYear?_of_isDigit {c : Char} (hc : c.isDigit = true) (cs : List Char) :
    readLooseYear? (c :: cs) = (readDigits? 1 4 (c :: cs)).map fun (n, rest) => ((n : Int), rest) := by
  unfold readLooseYear?
  split
  · rename_i tail heq
    obtain ⟨rfl, -⟩ := List.cons.inj heq
    exact absurd hc (by decide)
  · rename_i tail heq
    obtain ⟨rfl, -⟩ := List.cons.inj heq
    exact absurd hc (by decide)
  · rfl

theorem readLooseYear?_eq_some_iff {n : Int} :
    readLooseYear? cs = some (n, rest) ↔ ∃ word, cs = word ++ rest ∧ IsWord .year word rest n := by
  constructor
  · intro h
    unfold readLooseYear? at h
    split at h
    all_goals
      obtain ⟨⟨value, left⟩, hread, hvalue⟩ := Option.map_eq_some_iff.1 h
      obtain ⟨rfl, rfl⟩ := Prod.mk.inj hvalue
    · obtain ⟨ds, rfl, digits, least, rfl, ends⟩ := readDigits?_length_eq_some_iff.1 hread
      exact ⟨'-' :: ds, rfl, .minus digits least ends⟩
    · obtain ⟨ds, rfl, digits, least, rfl, ends⟩ := readDigits?_length_eq_some_iff.1 hread
      exact ⟨'+' :: ds, rfl, .plus digits least ends⟩
    · obtain ⟨ds, rfl, digits, least, most, rfl, ends⟩ := readDigits?_eq_some_iff.1 hread
      exact ⟨ds, rfl, .unsigned digits least most ends⟩
  · rintro ⟨word, rfl, hword⟩
    cases hword with
    | unsigned digits least most ends =>
        have hread := readDigits?_append digits least most ends
        obtain ⟨c, tail, rfl, hc⟩ := exists_cons_of_digits digits least
        rw [List.cons_append, readLooseYear?_of_isDigit hc]
        exact congrArg _ hread
    | plus digits least ends =>
        have hread := readDigits?_length_eq_some_iff.2 ⟨_, rfl, digits, least, rfl, ends⟩
        rw [List.cons_append, readLooseYear?, hread]
        rfl
    | minus digits least ends =>
        have hread := readDigits?_length_eq_some_iff.2 ⟨_, rfl, digits, least, rfl, ends⟩
        rw [List.cons_append, readLooseYear?, hread]
        rfl

theorem AreBlanks.trimStart_append {bs : List Char} (h : AreBlanks bs) (cs : List Char) :
    Text.trimStart (bs ++ cs) = Text.trimStart cs :=
  List.dropWhile_append_of_pos h

theorem exists_blanks (cs : List Char) :
    ∃ bs, cs = bs ++ Text.trimStart cs ∧ AreBlanks bs :=
  ⟨cs.takeWhile Text.isBlank, List.takeWhile_append_dropWhile.symm,
    fun _ hc => List.mem_takeWhile_imp hc⟩

/-- Which parts are read: blanks, and the word of the part. -/
theorem readLoose?_eq_some_iff {part : Part} {n : Int} :
    readLoose? part cs = some (n, rest) ↔
      ∃ bs word, cs = bs ++ (word ++ rest) ∧ AreBlanks bs ∧ IsWord part word rest n := by
  have hword (cs : List Char) :
      (if part = .year then readLooseYear? cs
        else (readDigits? 1 2 cs).map fun (n, rest) => ((n : Int), rest)) = some (n, rest) ↔
        ∃ word, cs = word ++ rest ∧ IsWord part word rest n := by
    by_cases hp : part = .year
    · subst hp
      exact readLooseYear?_eq_some_iff
    · have hwidth : part.width = 2 := if_neg hp
      rw [if_neg hp]
      constructor
      · intro h
        obtain ⟨⟨value, left⟩, hread, hvalue⟩ := Option.map_eq_some_iff.1 h
        obtain ⟨rfl, rfl⟩ := Prod.mk.inj hvalue
        obtain ⟨ds, rfl, digits, least, most, rfl, ends⟩ := readDigits?_eq_some_iff.1 hread
        exact ⟨ds, rfl, .unsigned digits least (by omega) (by rwa [hwidth])⟩
      · rintro ⟨word, rfl, hword⟩
        cases hword with
        | unsigned digits least most ends =>
            rw [hwidth] at most ends
            rw [readDigits?_append digits least most ends]
            rfl
        | plus => exact absurd rfl hp
        | minus => exact absurd rfl hp
  constructor
  · intro h
    obtain ⟨bs, hcs, hbs⟩ := exists_blanks cs
    obtain ⟨word, hrest, hw⟩ := (hword _).1 h
    exact ⟨bs, word, by rw [← hrest, ← hcs], hbs, hw⟩
  · rintro ⟨bs, word, rfl, hbs, hw⟩
    obtain ⟨c, tail, rfl, hc⟩ := hw.eq_cons
    unfold readLoose?
    rw [hbs.trimStart_append, List.cons_append,
      Text.trimStart_eq_self (isBlank_of_isYearFirst hc)]
    exact (hword _).2 ⟨_, rfl, hw⟩

/-! ### Pieces -/

/-- What an offset is written with. -/
inductive IsOffset : List Char → Prop
  | universal {c : Char} (h : c = 'Z' ∨ c = 'z') : IsOffset [c]
  | shifted {sign : Char} {hours minutes : List Char} (hsign : sign ∈ offsetSigns)
      (hh : AreDigits hours) (hm : AreDigits minutes) (hhl : hours.length = 2)
      (hml : minutes.length = 2) (hle : Decimal.ofDigits hours ≤ 23)
      (mle : Decimal.ofDigits minutes ≤ 59) : IsOffset (sign :: (hours ++ ':' :: minutes))

/-- The piece takes the first text from the front of both, with which the first draft becomes the
second one. -/
inductive Piece.Takes : Piece → Draft → List Char → List Char → Draft → Prop
  | loose {part : Part} {d e : Draft} {bs word rest : List Char} {n : Int} (blanks : AreBlanks bs)
      (hword : IsWord part word rest n) (filled : d.fill? part n = some e) :
      Takes (.loose part) d (bs ++ word) rest e
  | fixed {part : Part} {width : Nat} {d e : Draft} {ds rest : List Char} (digits : AreDigits ds)
      (length_eq : ds.length = width) (filled : d.fill? part (Decimal.ofDigits ds) = some e) :
      Takes (.fixed part width) d ds rest e
  | oneOf {options : List Char} {c : Char} {d : Draft} {rest : List Char} (mem : c ∈ options) :
      Takes (.oneOf options) d [c] rest d
  | blanks {d : Draft} {bs rest : List Char} (blanks : AreBlanks bs)
      (ends : ∀ c, rest.head? = some c → Text.isBlank c = false) : Takes .blanks d bs rest d
  | noFraction {d : Draft} {rest : List Char} (ends : rest.head? ≠ some '.') :
      Takes .fraction d [] rest d
  | fraction {d : Draft} {ds rest : List Char} (digits : AreDigits ds) (least : 1 ≤ ds.length)
      (ends : NoDigitFirst rest) : Takes .fraction d ('.' :: ds) rest d
  | offset {d : Draft} {cs rest : List Char} (h : IsOffset cs) : Takes .offset d cs rest d

/-- An offset that starts with a sign has hours and minutes. -/
theorem readOffset?_of_sign {sign : Char} (h : sign ∈ offsetSigns) (cs : List Char) :
    readOffset? (sign :: cs) = some rest ↔
      ∃ hours minutes left, readDigits? 2 2 cs = some (hours, ':' :: left) ∧
        readDigits? 2 2 left = some (minutes, rest) ∧ hours ≤ 23 ∧ minutes ≤ 59 := by
  unfold readOffset?
  split
  · rename_i heq
    obtain ⟨rfl, -⟩ := List.cons.inj heq
    exact absurd h (by decide)
  · rename_i heq
    obtain ⟨rfl, -⟩ := List.cons.inj heq
    exact absurd h (by decide)
  · rename_i heq
    obtain ⟨rfl, rfl⟩ := List.cons.inj heq
    rw [if_pos h]
    constructor
    · intro hread
      obtain ⟨⟨hours, left⟩, hhours, hread⟩ := Option.bind_eq_some_iff.1 hread
      dsimp only at hread
      split at hread
      · obtain ⟨⟨minutes, left⟩, hminutes, hread⟩ := Option.bind_eq_some_iff.1 hread
        obtain ⟨⟨hle, mle⟩, hrest⟩ := Option.ite_none_right_eq_some.1 hread
        obtain rfl := Option.some.inj hrest
        exact ⟨hours, minutes, _, hhours, hminutes, hle, mle⟩
      · cases hread
    · rintro ⟨hours, minutes, left, hhours, hminutes, hle, mle⟩
      simp [hhours, hminutes, hle, mle]
  · rename_i heq
    cases heq

theorem readOffset?_eq_some_iff :
    readOffset? cs = some rest ↔ ∃ taken, cs = taken ++ rest ∧ IsOffset taken := by
  constructor
  · intro h
    cases cs with
    | nil => cases h
    | cons c tail =>
        by_cases hsign : c ∈ offsetSigns
        · obtain ⟨hours, minutes, left, hhours, hminutes, hle, mle⟩ :=
            (readOffset?_of_sign hsign tail).1 h
          obtain ⟨hs, rfl, hh, hhl, hhm, rfl, -⟩ := readDigits?_eq_some_iff.1 hhours
          obtain ⟨ms, rfl, hm, hml, hmm, rfl, -⟩ := readDigits?_eq_some_iff.1 hminutes
          exact ⟨c :: (hs ++ ':' :: ms), by simp,
            .shifted hsign hh hm (by omega) (by omega) hle mle⟩
        · unfold readOffset? at h
          split at h
          · obtain rfl := Option.some.inj h
            rename_i heq
            exact ⟨['Z'], heq, .universal (.inl rfl)⟩
          · obtain rfl := Option.some.inj h
            rename_i heq
            exact ⟨['z'], heq, .universal (.inr rfl)⟩
          · rename_i heq
            obtain ⟨rfl, rfl⟩ := List.cons.inj heq
            rw [if_neg hsign] at h
            cases h
          · cases h
  · rintro ⟨taken, rfl, htaken⟩
    cases htaken with
    | universal h => rcases h with rfl | rfl <;> rfl
    | @shifted sign hours minutes hsign hh hm hhl hml hle mle =>
        have hhours : readDigits? 2 2 (hours ++ ':' :: (minutes ++ rest)) = _ :=
          readDigits?_append hh hhl.ge hhl.le (.inl hhl)
        have hminutes : readDigits? 2 2 (minutes ++ rest) = _ :=
          readDigits?_append hm hml.ge hml.le (.inl hml)
        rw [List.cons_append, List.append_assoc]
        exact (readOffset?_of_sign hsign _).2 ⟨_, _, _, hhours, hminutes, hle, mle⟩

theorem readFraction?_eq_some_iff :
    readFraction? cs = some rest ↔
      ∃ taken, cs = taken ++ rest ∧ Piece.fraction.Takes d taken rest d := by
  constructor
  · intro h
    unfold readFraction? at h
    split at h
    · obtain ⟨⟨value, left⟩, hread, hrest⟩ := Option.map_eq_some_iff.1 h
      obtain rfl : left = rest := hrest
      obtain ⟨ds, rfl, digits, least, -, ends⟩ := readDigits?_length_eq_some_iff.1 hread
      exact ⟨'.' :: ds, rfl, .fraction digits least ends⟩
    · rename_i hpoint
      obtain rfl := Option.some.inj h
      refine ⟨[], rfl, .noFraction fun hhead => ?_⟩
      obtain ⟨tail, htail⟩ := List.head?_eq_some_iff.1 hhead
      exact hpoint tail htail
  · rintro ⟨taken, rfl, htaken⟩
    cases htaken with
    | noFraction ends =>
        rw [List.nil_append]
        unfold readFraction?
        split
        · exact absurd rfl ends
        · rfl
    | fraction digits least ends =>
        have hread := readDigits?_length_eq_some_iff.2 ⟨_, rfl, digits, least, rfl, ends⟩
        rw [List.cons_append, readFraction?, hread]
        rfl

/-- A part is read and filled in. -/
theorem Piece.read?_loose_eq_some_iff {part : Part} :
    (loose part).read? d cs = some (e, rest) ↔
      ∃ n, readLoose? part cs = some (n, rest) ∧ d.fill? part n = some e := by
  simp [Piece.read?, Option.bind_eq_some_iff]

theorem Piece.read?_fixed_eq_some_iff {part : Part} {width : Nat} :
    (fixed part width).read? d cs = some (e, rest) ↔
      ∃ n, readDigits? width width cs = some (n, rest) ∧ d.fill? part n = some e := by
  simp [Piece.read?, Option.bind_eq_some_iff]

theorem trimStart_eq_iff :
    Text.trimStart cs = rest ↔
      ∃ bs, cs = bs ++ rest ∧ AreBlanks bs ∧ ∀ c, rest.head? = some c → Text.isBlank c = false := by
  constructor
  · rintro rfl
    obtain ⟨bs, hcs, hbs⟩ := exists_blanks cs
    refine ⟨bs, hcs, hbs, fun c hc => ?_⟩
    have hfirst := List.head?_dropWhile_not Text.isBlank cs
    rw [Text.trimStart] at hc
    rw [hc] at hfirst
    simpa using hfirst
  · rintro ⟨bs, rfl, hbs, ends⟩
    rw [hbs.trimStart_append]
    cases rest with
    | nil => rfl
    | cons c tail => exact Text.trimStart_eq_self (ends c rfl)

/-- **A piece is read as the rules say.** -/
theorem Piece.read?_eq_some_iff {p : Piece} :
    p.read? d cs = some (e, rest) ↔ ∃ taken, cs = taken ++ rest ∧ p.Takes d taken rest e := by
  cases p with
  | loose part =>
      rw [read?_loose_eq_some_iff]
      constructor
      · rintro ⟨n, hread, filled⟩
        obtain ⟨bs, word, rfl, hbs, hword⟩ := readLoose?_eq_some_iff.1 hread
        exact ⟨bs ++ word, by simp, .loose hbs hword filled⟩
      · rintro ⟨taken, rfl, htakes⟩
        cases htakes with
        | loose hbs hword filled =>
            exact ⟨_, readLoose?_eq_some_iff.2 ⟨_, _, by simp, hbs, hword⟩, filled⟩
  | fixed part width =>
      rw [read?_fixed_eq_some_iff]
      constructor
      · rintro ⟨n, hread, filled⟩
        obtain ⟨ds, rfl, digits, least, most, rfl, -⟩ := readDigits?_eq_some_iff.1 hread
        exact ⟨ds, rfl, .fixed digits (by omega) filled⟩
      · rintro ⟨taken, rfl, htakes⟩
        cases htakes with
        | fixed digits length_eq filled =>
            exact ⟨_, readDigits?_append digits length_eq.ge length_eq.le (.inl length_eq), filled⟩
  | oneOf options =>
      constructor
      · intro h
        cases cs with
        | nil => cases h
        | cons c tail =>
            obtain ⟨mem, heq⟩ := Option.ite_none_right_eq_some.1 h
            obtain ⟨rfl, rfl⟩ := Prod.mk.inj (Option.some.inj heq)
            exact ⟨[c], rfl, .oneOf mem⟩
      · rintro ⟨taken, rfl, htakes⟩
        cases htakes with
        | oneOf mem => exact if_pos mem
  | blanks =>
      constructor
      · intro h
        obtain ⟨rfl, heq⟩ := Prod.mk.inj (Option.some.inj h)
        obtain ⟨bs, hcs, hbs, ends⟩ := trimStart_eq_iff.1 heq
        exact ⟨bs, hcs, .blanks hbs ends⟩
      · rintro ⟨taken, rfl, htakes⟩
        cases htakes with
        | blanks hbs ends =>
            exact congrArg (fun left => some (d, left)) (trimStart_eq_iff.2 ⟨_, rfl, hbs, ends⟩)
  | fraction =>
      constructor
      · intro h
        obtain ⟨left, hread, heq⟩ := Option.map_eq_some_iff.1 h
        obtain ⟨rfl, rfl⟩ := Prod.mk.inj heq
        exact readFraction?_eq_some_iff.1 hread
      · rintro ⟨taken, rfl, htakes⟩
        obtain rfl : d = e := by cases htakes <;> rfl
        have hread := readFraction?_eq_some_iff.2 ⟨taken, rfl, htakes⟩
        rw [Piece.read?, hread]
        rfl
  | offset =>
      constructor
      · intro h
        obtain ⟨left, hread, heq⟩ := Option.map_eq_some_iff.1 h
        obtain ⟨rfl, rfl⟩ := Prod.mk.inj heq
        obtain ⟨taken, hcs, htaken⟩ := readOffset?_eq_some_iff.1 hread
        exact ⟨taken, hcs, .offset htaken⟩
      · rintro ⟨taken, rfl, htakes⟩
        cases htakes with
        | offset h =>
            have hread : readOffset? (taken ++ rest) = some rest :=
              readOffset?_eq_some_iff.2 ⟨taken, rfl, h⟩
            rw [Piece.read?, hread]
            rfl

/-- Only the first character of the rest matters. -/
theorem Piece.Takes.congr {p : Piece} {taken : List Char} (h : p.Takes d taken rest e)
    (hmore : more.head? = rest.head?) : p.Takes d taken more e := by
  cases h with
  | loose hbs hword filled =>
      refine .loose hbs ?_ filled
      cases hword with
      | unsigned digits least most ends =>
          exact .unsigned digits least most (ends.imp_right fun h => h.congr hmore)
      | plus digits least ends => exact .plus digits least (ends.congr hmore)
      | minus digits least ends => exact .minus digits least (ends.congr hmore)
  | fixed digits length_eq filled => exact .fixed digits length_eq filled
  | oneOf mem => exact .oneOf mem
  | blanks hbs ends => exact .blanks hbs (hmore ▸ ends)
  | noFraction ends => exact .noFraction (hmore ▸ ends)
  | fraction digits least ends => exact .fraction digits least (ends.congr hmore)
  | offset h => exact .offset h

/-- What is taken is determined by the text. -/
theorem Piece.Takes.unique {p : Piece} {taken other left : List Char} {f : Draft}
    (h : p.Takes d taken rest e) (h' : p.Takes d other left f)
    (htext : taken ++ rest = other ++ left) : taken = other ∧ rest = left ∧ e = f := by
  -- One text is read in one way only.
  have hread := Piece.read?_eq_some_iff.2 ⟨taken, rfl, h⟩
  have hread' := Piece.read?_eq_some_iff.2 ⟨other, rfl, h'⟩
  rw [htext, hread'] at hread
  obtain ⟨rfl, rfl⟩ := Prod.mk.inj (Option.some.inj hread)
  exact ⟨List.append_cancel_right htext, rfl, rfl⟩

/-! ### Pieces one after the other -/

/-- The pieces take the first text from the front of both, one after the other. -/
inductive Take : List Piece → Draft → List Char → List Char → Draft → Prop
  | nil {d : Draft} {rest : List Char} : Take [] d [] rest d
  | cons {p : Piece} {ps : List Piece} {d e f : Draft} {first more rest : List Char}
      (head : p.Takes d first (more ++ rest) e) (tail : Take ps e more rest f) :
      Take (p :: ps) d (first ++ more) rest f

theorem take_cons_iff {p : Piece} {ps : List Piece} {taken : List Char} {f : Draft} :
    Take (p :: ps) d taken rest f ↔ ∃ first more e, taken = first ++ more ∧
      p.Takes d first (more ++ rest) e ∧ Take ps e more rest f := by
  constructor
  · intro h
    cases h with
    | cons head tail => exact ⟨_, _, _, rfl, head, tail⟩
  · rintro ⟨first, more, e, rfl, head, tail⟩
    exact .cons head tail

/-- **A text is read if the pieces take all of it.** -/
theorem readPieces?_eq_some_iff {ps : List Piece} :
    readPieces? ps d cs = some e ↔ Take ps d cs [] e := by
  induction ps generalizing d cs with
  | nil =>
      constructor
      · intro h
        obtain ⟨hnil, heq⟩ := Option.ite_none_right_eq_some.1 h
        obtain rfl := List.isEmpty_iff.1 hnil
        obtain rfl := Option.some.inj heq
        exact .nil
      · rintro ⟨⟩
        rfl
  | cons p ps ih =>
      rw [take_cons_iff]
      constructor
      · intro h
        rw [readPieces?] at h
        split at h
        · rename_i f more hread
          obtain ⟨first, rfl, head⟩ := Piece.read?_eq_some_iff.1 hread
          exact ⟨first, more, f, rfl, by rwa [List.append_nil], ih.1 h⟩
        · cases h
      · rintro ⟨first, more, f, rfl, head, tail⟩
        rw [List.append_nil] at head
        rw [readPieces?_cons (Piece.read?_eq_some_iff.2 ⟨first, rfl, head⟩)]
        exact ih.2 tail

/-- **Pieces one after the other take one text after the other.** -/
theorem take_append_iff {ps qs : List Piece} {taken : List Char} {f : Draft} :
    Take (ps ++ qs) d taken rest f ↔ ∃ first second e, taken = first ++ second ∧
      Take ps d first (second ++ rest) e ∧ Take qs e second rest f := by
  induction ps generalizing d taken with
  | nil =>
      constructor
      · intro h
        exact ⟨[], taken, d, rfl, .nil, h⟩
      · rintro ⟨first, second, e, rfl, hps, hqs⟩
        cases hps
        exact hqs
  | cons p ps ih =>
      rw [List.cons_append, take_cons_iff]
      constructor
      · rintro ⟨first, more, e, rfl, head, tail⟩
        obtain ⟨second, third, g, rfl, hps, hqs⟩ := ih.1 tail
        rw [List.append_assoc] at head
        exact ⟨first ++ second, third, g, by simp, .cons head hps, hqs⟩
      · rintro ⟨front, third, g, rfl, hps, hqs⟩
        obtain ⟨first, second, e, rfl, head, tail⟩ := take_cons_iff.1 hps
        rw [← List.append_assoc] at head
        exact ⟨first, second ++ third, e, by simp, head, ih.2 ⟨second, third, g, rfl, tail, hqs⟩⟩

/-- Only the first character of the rest matters. -/
theorem Take.congr {ps : List Piece} {taken : List Char} (h : Take ps d taken rest e)
    (hmore : more.head? = rest.head?) : Take ps d taken more e := by
  induction h with
  | nil => exact .nil
  | cons head tail ih =>
      refine .cons (head.congr ?_) (ih hmore)
      rw [List.head?_append, List.head?_append, hmore]

/-- What is taken is determined by the text. -/
theorem Take.unique {ps : List Piece} {taken other left : List Char} {f : Draft}
    (h : Take ps d taken rest e) (h' : Take ps d other left f)
    (htext : taken ++ rest = other ++ left) : taken = other ∧ rest = left ∧ e = f := by
  induction ps generalizing d taken other with
  | nil =>
      cases h
      cases h'
      exact ⟨rfl, htext, rfl⟩
  | cons p ps ih =>
      obtain ⟨first, more, g, rfl, head, tail⟩ := take_cons_iff.1 h
      obtain ⟨first', more', g', rfl, head', tail'⟩ := take_cons_iff.1 h'
      rw [List.append_assoc, List.append_assoc] at htext
      obtain ⟨rfl, hmore, rfl⟩ := head.unique head' htext
      obtain ⟨rfl, rfl, rfl⟩ := ih tail tail' hmore
      exact ⟨rfl, rfl, rfl⟩

end CoachLedger.Date
