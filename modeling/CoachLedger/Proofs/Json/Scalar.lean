/-
**Texts of scalars.**

What is escaped in a string can be read back, character by character, and numbers are written so
that different ones look different: an integer has only digits, any other number has a point or an
exponent, and its digits belong to no other number.

Main definitions:

* `CoachLedger.Json.Token.readEscaped?` — reads one character inside a string;
* `CoachLedger.Json.Numeral.IsProper` — the numerals that stand for themselves;
* `CoachLedger.Json.IsScalar` — values without items and members.

Main results:

* `CoachLedger.Json.Token.readEscaped?_escapeChar` — **what was escaped is read back**;
* `CoachLedger.Json.Numeral.text_inj` — **numerals are written differently**.
-/

import CoachLedger.Json.Canonical
import CoachLedger.Proofs.Binary64.Shortest

set_option autoImplicit false

namespace CoachLedger.Json

/-! ### Escaped texts -/

namespace Token

/-- Reads one character inside a string, and what follows it. -/
def readEscaped? : List Char → Option (Char × List Char)
  | [] => none
  | '\\' :: 'u' :: _ :: _ :: a :: b :: cs =>
      (Text.hexValue? a).bind fun m =>
        (Text.hexValue? b).map fun n => (Char.ofNat (16 * m + n), cs)
  | '\\' :: c :: cs => (unescape? c).map fun d => (d, cs)
  | c :: cs => some (c, cs)

theorem readEscaped?_plain {c : Char} (h : c ≠ '\\') (cs : List Char) :
    readEscaped? (c :: cs) = some (c, cs) := by
  unfold readEscaped?
  split
  · rename_i heq
    cases heq
  · rename_i heq
    exact absurd (List.cons.inj heq).1 h
  · rename_i heq
    exact absurd (List.cons.inj heq).1 h
  · rename_i heq
    obtain ⟨rfl, rfl⟩ := List.cons.inj heq
    rfl

/-- A control character is escaped by its two last digits. -/
theorem readEscaped?_control {c : Char} (h : c.toNat < 0x20) (cs : List Char) :
    readEscaped? ('\\' :: 'u' :: '0' :: '0' :: Text.hexDigit (c.toNat / 16) ::
      Text.hexDigit (c.toNat % 16) :: cs) = some (c, cs) := by
  obtain ⟨hhigh, hlow, hsum⟩ := Text.hexValue?_hexDigits (n := c.toNat) (by omega)
  rw [readEscaped?, hhigh, Option.bind_some, hlow, Option.map_some, hsum, Char.ofNat_toNat]

/-- **What was escaped is read back.** -/
theorem readEscaped?_escapeChar (c : Char) (cs : List Char) :
    readEscaped? (escapeChar c ++ cs) = some (c, cs) := by
  unfold escapeChar
  -- Two letters after a backslash stand for one of seven characters.
  split
  · rename_i h
    rw [h]
    rfl
  split
  · rename_i h
    rw [h]
    rfl
  rename_i hbackslash
  split
  · rename_i h
    rw [h]
    rfl
  split
  · rename_i h
    rw [h]
    rfl
  split
  · rename_i h
    rw [h]
    rfl
  split
  · rename_i h
    rw [h]
    rfl
  split
  · rename_i h
    rw [h]
    rfl
  split
  · rename_i h
    exact readEscaped?_control h cs
  · exact readEscaped?_plain hbackslash cs

end Token

/-! ### Numerals -/

namespace Numeral

/-- The numeral is an integer or a finite number, which JSON can write. -/
def IsProper : Numeral → Prop
  | integer _ => True
  | float x => x.isFinite = true

/-- The text of a magnitude. -/
def magnitude (rank : Nat) : List Char :=
  if rank = 0 then ['0', '.', '0'] else (Binary64.shortest tie rank).write layout

/-- What a magnitude is written as. -/
def literal (rank : Nat) : Decimal.Literal :=
  if rank = 0 then ⟨['0'], some ['0'], none⟩ else (Binary64.shortest tie rank).literal layout

theorem magnitude_eq (rank : Nat) :
    magnitude rank = (literal rank).chars layout.exponentWidth := by
  unfold magnitude literal
  split
  · rfl
  · exact Decimal.write_eq layout _

theorem isProper_literal (rank : Nat) : (literal rank).IsProper := by
  unfold literal
  split
  · have hzero : ∀ c ∈ ['0'], c.isDigit = true := List.forall_mem_singleton.2 rfl
    refine ⟨List.cons_ne_nil _ _, hzero, fun f hf => ?_⟩
    obtain rfl := Option.some.inj hf
    exact ⟨List.cons_ne_nil _ _, hzero⟩
  · exact (Decimal.spells_literal layout _).proper

/-- What a magnitude is written as denotes a number that belongs to its rank. -/
theorem readsBack_literal (rank : Nat) : Binary64.ReadsBack rank (literal rank).value := by
  unfold literal
  split
  · rename_i h
    have hdigits : Decimal.ofDigits ['0', '0'] = 0 := rfl
    rw [h]
    refine Binary64.readsBack_exact ?_
    rw [Decimal.Literal.value, Decimal.Literal.fractionDigits, Option.getD_some,
      List.singleton_append, hdigits, Binary64.units_zero]
    simp only [Nat.cast_zero, zero_mul, Nat.mul_zero]
  · rw [Decimal.value_literal]
    exact Binary64.readsBack_shortest tie rank

/-- The text of a magnitude reads as a number that belongs to its rank. -/
theorem read?_magnitude (rank : Nat) :
    ∃ d, Decimal.read? (magnitude rank) = some (false, d) ∧ Binary64.ReadsBack rank d.value := by
  obtain ⟨d, hd, hv⟩ := Decimal.Literal.read?_chars (isProper_literal rank)
  exact ⟨d, magnitude_eq rank ▸ hd, hv ▸ readsBack_literal rank⟩

/-- Different magnitudes are written differently. -/
theorem magnitude_inj {r r' : Nat} (h : magnitude r = magnitude r') : r = r' := by
  obtain ⟨d, hd, hr⟩ := read?_magnitude r
  obtain ⟨d', hd', hr'⟩ := read?_magnitude r'
  rw [h, hd', Option.some.injEq, Prod.mk.injEq] at hd
  obtain ⟨-, rfl⟩ := hd
  exact Binary64.eq_of_readsBack hr hr'

/-- A magnitude is written with a digit first. -/
theorem head?_magnitude (rank : Nat) :
    ∃ c, (magnitude rank).head? = some c ∧ c.isDigit = true := by
  rw [magnitude_eq]
  exact Decimal.Literal.head?_chars (isProper_literal rank)

theorem head?_digits (n : Nat) : ∃ c, (Decimal.digits n).head? = some c ∧ c.isDigit = true := by
  cases h : Decimal.digits n with
  | nil => exact absurd h (Decimal.digits_ne_nil n)
  | cons c cs => exact ⟨c, rfl, Decimal.isDigit_of_mem_digits (h ▸ List.mem_cons_self ..)⟩

theorem ofDigits_inj {m n : Nat} (h : Decimal.digits m = Decimal.digits n) : m = n := by
  rw [← Decimal.ofDigits_digits m, h, Decimal.ofDigits_digits]

/-- A magnitude has a point or an exponent, so that it is not taken for an integer. -/
theorem exponent_ne_none {rank : Nat} (h : (literal rank).fraction = none) :
    (literal rank).exponent ≠ none := by
  have hpositional (ds : List Char) (lead : Int) :
      (Decimal.Literal.positional layout ds lead).fraction ≠ none := by
    unfold Decimal.Literal.positional
    split
    · exact Option.some_ne_none _
    · dsimp only
      split <;> exact Option.some_ne_none _
  unfold literal at h ⊢
  split
  · rename_i h0
    rw [if_pos h0] at h
    cases h
  · rename_i h0
    rw [if_neg h0] at h
    unfold Decimal.literal at h ⊢
    dsimp only [layout] at h ⊢
    split
    · rename_i hlead
      rw [if_pos hlead] at h
      exact absurd h (hpositional _ _)
    · exact Option.some_ne_none _

theorem point_or_exponent_mem_magnitude (rank : Nat) :
    '.' ∈ magnitude rank ∨ 'e' ∈ magnitude rank := by
  rw [magnitude_eq, Decimal.Literal.chars, Decimal.Literal.tail]
  cases hf : (literal rank).fraction with
  | some f => exact .inl (by simp)
  | none =>
      obtain ⟨e, he⟩ := Option.ne_none_iff_exists'.1 (exponent_ne_none hf)
      rw [he]
      exact .inr (by simp)

theorem digits_ne_magnitude (n rank : Nat) : Decimal.digits n ≠ magnitude rank := by
  intro h
  have hall : ∀ c ∈ magnitude rank, c.isDigit = true := fun c hc =>
    Decimal.isDigit_of_mem_digits (h ▸ hc)
  rcases point_or_exponent_mem_magnitude rank with hc | hc
  · exact absurd (hall _ hc) (by decide)
  · exact absurd (hall _ hc) (by decide)

/-- An unsigned text with a minus in front, if the number is negative. -/
def signed (negative : Bool) (cs : List Char) : List Char :=
  (if negative then ['-'] else []) ++ cs

theorem text_integer (i : Int) : (integer i).text = signed (i < 0) (Decimal.digits i.natAbs) := by
  rw [text, signed]
  simp only [decide_eq_true_eq]

theorem text_float (negative : Bool) (rank : Nat) (h : rank ≤ Binary64.topRank) :
    (float (.signed negative rank h)).text = signed negative (magnitude rank) := rfl

theorem head?_signed (negative : Bool) {cs : List Char}
    (h : ∃ c, cs.head? = some c ∧ c.isDigit = true) :
    ∃ c, (signed negative cs).head? = some c ∧ (c = '-' ∨ c.isDigit = true) := by
  cases negative with
  | true => exact ⟨'-', rfl, .inl rfl⟩
  | false =>
      obtain ⟨c, hc, hd⟩ := h
      exact ⟨c, hc, .inr hd⟩

/-- A text with a minus in front differs from one that starts with a digit. -/
theorem signed_inj {p q : Bool} {cs ds : List Char}
    (hc : ∃ c, cs.head? = some c ∧ c.isDigit = true)
    (hd : ∃ c, ds.head? = some c ∧ c.isDigit = true) (h : signed p cs = signed q ds) :
    p = q ∧ cs = ds := by
  have hne {es : List Char} (he : ∃ c, es.head? = some c ∧ c.isDigit = true) (fs : List Char) :
      es ≠ '-' :: fs := by
    rintro rfl
    obtain ⟨c, hc, hdigit⟩ := he
    rw [← Option.some.inj hc] at hdigit
    cases hdigit
  cases p with
  | true =>
      cases q with
      | true => exact ⟨rfl, (List.cons.inj h).2⟩
      | false => exact absurd h.symm (hne hd cs)
  | false =>
      cases q with
      | true => exact absurd h (hne hc ds)
      | false => exact ⟨rfl, h⟩

/-- A numeral is written with a digit first, or with a minus. -/
theorem head?_text {n : Numeral} (hn : n.IsProper) :
    ∃ c, n.text.head? = some c ∧ (c = '-' ∨ c.isDigit = true) := by
  cases n with
  | integer i =>
      rw [text_integer]
      exact head?_signed _ (head?_digits _)
  | float x =>
      cases x with
      | nan => cases hn
      | signed negative rank h =>
          rw [text_float]
          exact head?_signed _ (head?_magnitude _)

/-- **Numerals are written differently.** -/
theorem text_inj {m n : Numeral} (hm : m.IsProper) (hn : n.IsProper) (h : m.text = n.text) :
    m = n := by
  -- An integer and a float are told apart by the point or the exponent.
  cases m with
  | integer i =>
      cases n with
      | integer j =>
          rw [text_integer, text_integer] at h
          obtain ⟨hsign, hdigits⟩ := signed_inj (head?_digits _) (head?_digits _) h
          have habs := ofDigits_inj hdigits
          rw [decide_eq_decide] at hsign
          obtain rfl : i = j := by omega
          rfl
      | float y =>
          cases y with
          | nan => cases hn
          | signed q r' hr' =>
              rw [text_integer, text_float] at h
              have hbody := (signed_inj (head?_digits _) (head?_magnitude _) h).2
              exact absurd hbody (digits_ne_magnitude _ _)
  | float x =>
      cases x with
      | nan => cases hm
      | signed p r hr =>
          cases n with
          | integer j =>
              rw [text_integer, text_float] at h
              have hbody := (signed_inj (head?_magnitude _) (head?_digits _) h).2
              exact absurd hbody.symm (digits_ne_magnitude _ _)
          | float y =>
              cases y with
              | nan => cases hn
              | signed q r' hr' =>
                  rw [text_float, text_float] at h
                  obtain ⟨rfl, hbody⟩ := signed_inj (head?_magnitude _) (head?_magnitude _) h
                  obtain rfl := magnitude_inj hbody
                  rfl

end Numeral

/-! ### Scalars -/

/-- The value has no items and no members, and a number is one that JSON can write. -/
def IsScalar : Json → Prop
  | number n => n.IsProper
  | array _ | object _ => False
  | _ => True

end CoachLedger.Json
