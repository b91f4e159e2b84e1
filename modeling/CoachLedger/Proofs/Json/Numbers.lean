/-
**Numbers that are read again.**

Reading a number yields an integer that fits 64 bits or a finite number, and each of these is read
again when it is written, though perhaps as a neighbour, since reading rounds twice.  What could go
wrong is that the two roundings lead past the greatest number.  They do not: far from infinity the
product that is rounded is below the last midpoint, and the three greatest numbers are computed.

Main definitions:

* `CoachLedger.Json.Numeral.IsInRange` — the numerals that a text may denote;
* `CoachLedger.Json.Numeral.reread` — what a numeral is after it has been written and read.

Main results:

* `CoachLedger.Json.Numeral.isInRange_of_read?` — **what is read is in this range**;
* `CoachLedger.Json.Numeral.read?_text` — **what is in this range is read again**.
-/

import CoachLedger.Proofs.Binary64.Finite
import CoachLedger.Proofs.Json.Inverse
import Mathlib.Tactic.NormNum

set_option autoImplicit false

namespace CoachLedger

/-! ### Shortest decimals -/

theorem Binary64.coefficient_shortest_ne_zero (tie : Tie) {rank : Nat} (h : rank ≠ 0) :
    (shortest tie rank).coefficient ≠ 0 := by
  intro h0
  have hlow := (readsBack_shortest tie rank).low_le
  rw [Decimal.value, h0, Nat.cast_zero, zero_mul, zero_mul] at hlow
  have hpos : 0 < units rank := by
    simpa [units_zero] using units_strictMono (Nat.pos_of_ne_zero h)
  have hsum : units (rank - 1) + units rank ≤ 0 := by exact_mod_cast hlow
  omega

/-- With a bound on what is written positionally there are only so many digits before the point. -/
theorem Decimal.length_whole_le {layout : Layout} {least greatest : Int}
    (h : layout.positional = some (least, greatest)) (d : Decimal) :
    (d.literal layout).whole.length ≤ greatest.toNat + 1 := by
  unfold literal
  rw [h]
  dsimp only
  split
  · rename_i hlead
    unfold Literal.positional
    split
    · exact Nat.le_add_left 1 _
    · dsimp only
      split
      · rename_i hlen
        rw [List.length_append, List.length_replicate]
        omega
      · rw [List.length_take]
        omega
  · exact Nat.le_trans (List.length_take_le 1 _) (Nat.le_add_left 1 _)

namespace Json.Numeral

/-- The numeral is an integer that fits 64 bits, or a finite number. -/
def IsInRange : Numeral → Prop
  | integer i => -(maxNegated : Int) ≤ i ∧ i ≤ maxNatural
  | float x => x.isFinite = true

/-! ### Leading digits -/

/-- The first digit of a list goes to the number before it. -/
theorem mul_add_ofDigits_cons (n : Nat) (d : Char) (ds : List Char) :
    n * 10 ^ (d :: ds).length + Decimal.ofDigits (d :: ds) =
      (10 * n + Decimal.digitValue d) * 10 ^ ds.length + Decimal.ofDigits ds := by
  rw [Decimal.ofDigits_cons, List.length_cons, Nat.pow_succ]
  ring

/-- Leaving out digits does not make the number larger, and it fits 64 bits. -/
theorem leading_le (n : Nat) (ds : List Char) :
    (leading n ds).1 * 10 ^ (leading n ds).2 ≤ n * 10 ^ ds.length + Decimal.ofDigits ds ∧
      (leading n ds).2 ≤ ds.length ∧ (n ≤ maxNatural → (leading n ds).1 ≤ maxNatural) := by
  fun_induction leading n ds with
  | case1 n => exact ⟨by simp, Nat.le_refl _, id⟩
  | case2 n d ds hfits ih =>
      obtain ⟨hvalue, hlen, hmax⟩ := ih
      exact ⟨mul_add_ofDigits_cons n d ds ▸ hvalue, Nat.le_succ_of_le hlen, fun _ => hmax hfits⟩
  | case3 n d ds hfull => exact ⟨Nat.le_add_right _ _, Nat.le_refl _, id⟩

/-- Digits that fit 64 bits are all used. -/
theorem leading_eq {n : Nat} {ds : List Char}
    (h : n * 10 ^ ds.length + Decimal.ofDigits ds ≤ maxNatural) :
    leading n ds = (n * 10 ^ ds.length + Decimal.ofDigits ds, 0) := by
  fun_induction leading n ds with
  | case1 n => simp [Decimal.ofDigits]
  | case2 n d ds hfits ih =>
      rw [mul_add_ofDigits_cons] at h ⊢
      exact ih h
  | case3 n d ds hfull =>
      -- The first digit alone would be too much.
      rw [mul_add_ofDigits_cons] at h
      have hfirst : 10 * n + Decimal.digitValue d ≤
          (10 * n + Decimal.digitValue d) * 10 ^ ds.length :=
        Nat.le_mul_of_pos_right _ (Nat.pow_pos (by decide))
      omega

/-! ### Powers of ten -/

section

open Binary64

theorem powerOfTen_mul (j k : Nat) : Decimal.powerOfTen (j * k) = Decimal.powerOfTen j ^ k :=
  Nat.pow_mul 10 j k

theorem powerOfTen_maxPower : Decimal.powerOfTen maxPower = Decimal.powerOfTen 77 ^ 4 :=
  powerOfTen_mul 77 4

/-- The powers of ten that are used in one step are finite. -/
theorem nearestRank_powerOfTen_lt {k : Nat} (h : k ≤ maxPower) :
    nearestRank (Decimal.powerOfTen k) 1 < topRank := by
  have hmax : Decimal.powerOfTen 77 ^ 4 < lastMidpoint * (1 <<< 970) := by decide
  refine Nat.lt_of_le_of_lt (nearestRank_mono (Decimal.powerOfTen_mono h)) ?_
  refine nearestRank_lt_topRank Nat.one_pos ?_
  rw [Nat.mul_one, halfStep_eq, ← Nat.mul_assoc, powerOfTen_maxPower]
  exact Nat.mul_lt_mul_of_pos_right hmax scale_pos

/-- The next power of ten is larger than all finite numbers. -/
theorem lt_powerOfTen {k : Nat} (h : maxPower < k) :
    (2 ^ 54 - 7) * halfStep < Decimal.powerOfTen k * scale := by
  have hmax : (2 ^ 54 - 7) * (1 <<< 970) < Decimal.powerOfTen 77 ^ 4 * 10 := by decide
  have hle := Decimal.powerOfTen_mono h
  rw [Decimal.powerOfTen_succ, powerOfTen_maxPower] at hle
  rw [halfStep_eq, ← Nat.mul_assoc]
  exact Nat.mul_lt_mul_of_pos_right (Nat.lt_of_lt_of_le hmax hle) scale_pos

/-- **What is scaled stays finite**, or there is no result. -/
theorem isFinite_scaleByTen? {x y : Binary64} {e : Int} (hx : x.isFinite = true)
    (h : scaleByTen? x e = some y) : y.isFinite = true := by
  fun_induction scaleByTen? x e with
  | case1 x e hsmall hpos product hfinite =>
      obtain rfl := Option.some.inj h
      exact hfinite
  | case2 x e hsmall hpos product hinfinite => cases h
  | case3 x e hsmall hneg =>
      obtain rfl := Option.some.inj h
      exact isFinite_div hx (Decimal.powerOfTen_pos _)
  | case4 x e hlarge hzero =>
      obtain rfl := Option.some.inj h
      exact hx
  | case5 x e hlarge hzero hpos => cases h
  | case6 x e hlarge hzero hneg ih => exact ih (isFinite_div hx (Decimal.powerOfTen_pos _)) h

/-- Division always has a result. -/
theorem isSome_scaleByTen?_of_neg {x : Binary64} {e : Int} (h : e < 0) :
    (scaleByTen? x e).isSome = true := by
  fun_induction scaleByTen? x e with
  | case1 x e hsmall hpos product hfinite => rfl
  | case2 x e hsmall hpos product hinfinite => omega
  | case3 x e hsmall hneg => rfl
  | case4 x e hlarge hzero => rfl
  | case5 x e hlarge hzero hpos => omega
  | case6 x e hlarge hzero hneg ih =>
      refine ih ?_
      unfold maxPower at hlarge ⊢
      omega

/-- **What is below the greatest numbers is scaled.** -/
theorem isSome_scaleByTen? {n : Nat} {e : Int}
    (h : ∀ k : Nat, e = k → n * Decimal.powerOfTen k * scale ≤ (2 ^ 54 - 7) * halfStep) :
    (scaleByTen? (.ofNat n) e).isSome = true := by
  rcases Int.lt_or_le e 0 with hneg | hpos
  · exact isSome_scaleByTen?_of_neg hneg
  · obtain ⟨k, rfl⟩ := Int.eq_ofNat_of_zero_le hpos
    rw [scaleByTen?, Int.natAbs_natCast]
    by_cases hk : k ≤ maxPower
    · have hfinite := isFinite_mul (Decimal.powerOfTen_pos k) (nearestRank_powerOfTen_lt hk) (h k rfl)
      rw [if_pos hk, if_pos hpos]
      dsimp only
      rw [if_pos hfinite]
      rfl
    · -- Only zero can be multiplied by so much.
      have hn : n = 0 := by
        by_contra hn
        have hlt := lt_powerOfTen (Nat.lt_of_not_le hk)
        have hle : Decimal.powerOfTen k * scale ≤ n * Decimal.powerOfTen k * scale :=
          Nat.mul_le_mul_right _ (Nat.le_mul_of_pos_left _ (Nat.pos_of_ne_zero hn))
        exact absurd (Nat.le_trans hle (h k rfl)) (Nat.not_le_of_lt hlt)
      have hzero : (Binary64.ofNat n).isZero = true := by
        rw [hn, Binary64.ofNat, ofRatio, nearestRank_of_units Nat.one_pos (Nat.zero_le _)
          (by rw [Nat.zero_mul, units_zero])]
        rfl
      rw [if_neg hk, if_pos hzero]
      rfl

/-- A number of leading digits is finite. -/
theorem isFinite_ofNat {n : Nat} (h : n ≤ maxNatural) : (Binary64.ofNat n).isFinite = true := by
  refine isFinite_ofRatio (nearestRank_lt_topRank Nat.one_pos ?_)
  have hmax : maxNatural < lastMidpoint * (1 <<< 970) := by decide
  rw [Nat.mul_one, halfStep_eq, ← Nat.mul_assoc]
  exact Nat.mul_lt_mul_of_pos_right (Nat.lt_of_le_of_lt h hmax) scale_pos

end

/-! ### What is read -/

theorem isInRange_of_float? {negative : Bool} {whole fraction : List Char} {e : Int} {n : Numeral}
    (h : float? negative whole fraction e = some n) : n.IsInRange := by
  unfold float? at h
  dsimp only at h
  obtain ⟨y, hy, rfl⟩ := Option.map_eq_some_iff.1 h
  have hleading := (leading_le 0 whole).2.2 (Nat.zero_le _)
  have hfinite := isFinite_scaleByTen? (isFinite_ofNat ((leading_le _ fraction).2.2 hleading)) hy
  cases negative with
  | false => exact hfinite
  | true =>
      cases y with
      | nan => cases hfinite
      | signed p r hr => exact hfinite

/-- **What is read is in range.** -/
theorem isInRange_of_read? {word : List Char} {n : Numeral} (h : read? word = some (some n)) :
    n.IsInRange := by
  unfold read? at h
  dsimp only at h
  split at h
  · split at h
    · cases h
    · obtain ⟨e, -, he⟩ := Option.map_eq_some_iff.1 h
      split at he
      · unfold integer? at he
        dsimp only at he
        split at he
        · split at he
          · obtain rfl := Option.some.inj he
            rfl
          · split at he
            · rename_i hle
              obtain rfl := Option.some.inj he
              exact ⟨by omega, by omega⟩
            · exact isInRange_of_float? he
        · split at he
          · rename_i hle
            obtain rfl := Option.some.inj he
            exact ⟨by omega, by omega⟩
          · exact isInRange_of_float? he
      · exact isInRange_of_float? he
  · cases h

/-! ### What is written -/

/-- A literal with a point or an exponent is read as a float. -/
theorem read?_chars {l : Decimal.Literal} (hl : l.IsProper) (hplain : plainWhole l.whole = true)
    (hfloat : l.fraction = none → l.exponent ≠ none) (negative : Bool) (width : Nat) :
    read? (signed negative (l.chars width)) =
      some (float? negative l.whole l.fractionDigits (l.exponent.getD 0)) := by
  have hsplit : splitFraction? (l.tail width) = some (l.fraction, l.exponent.elim [] fun e =>
      'e' :: (if e < 0 then '-' else '+') :: Decimal.padded width e.natAbs) := by
    unfold Decimal.Literal.tail
    cases hf : l.fraction with
    | none => cases l.exponent <;> rfl
    | some f =>
        obtain ⟨hne, hdigits⟩ := hl.fraction f hf
        have hsplit := Decimal.splitDigits_append hdigits
          (Decimal.Literal.noDigitFirst_exponent width l.exponent)
        simp only [Option.elim_some, List.cons_append, splitFraction?, hsplit, List.isEmpty_iff, hne,
          if_false]
  unfold read?
  simp only [splitMinus_signed negative (Decimal.Literal.head?_chars hl),
    Decimal.Literal.splitDigits_chars hl, hplain, if_true, hsplit,
    Decimal.Literal.readExponent?_exponent, Option.map_some, Decimal.Literal.fractionDigits]
  -- Without a point there is an exponent.
  cases hf : l.fraction with
  | some f => rfl
  | none =>
      obtain ⟨e, he⟩ := Option.ne_none_iff_exists'.1 (hfloat hf)
      rw [he]
      rfl

theorem ofDigits_append (cs ds : List Char) :
    Decimal.ofDigits (cs ++ ds) = Decimal.ofDigits cs * 10 ^ ds.length + Decimal.ofDigits ds := by
  rw [Decimal.ofDigits_eq, Nat.ofDigitChars_append, Nat.ofDigitChars_eq_ofDigitChars_zero,
    Nat.mul_comm]
  rfl

/-- **A float that is below the greatest numbers is read.** -/
theorem isSome_float? {l : Decimal.Literal} (hl : l.IsProper) (hwhole : l.whole.length ≤ 16)
    (h : l.value * ((Binary64.scale : ℕ) : ℚ) ≤ (((2 ^ 54 - 7) * Binary64.halfStep : ℕ) : ℚ))
    (negative : Bool) :
    (float? negative l.whole l.fractionDigits (l.exponent.getD 0)).isSome = true := by
  have hfits : 0 * 10 ^ l.whole.length + Decimal.ofDigits l.whole ≤ maxNatural := by
    rw [Nat.zero_mul, Nat.zero_add]
    calc Decimal.ofDigits l.whole ≤ 10 ^ l.whole.length := (Decimal.ofDigits_lt hl.whole).le
      _ ≤ 10 ^ 16 := Nat.pow_le_pow_right (by decide) hwhole
      _ ≤ maxNatural := by decide
  obtain ⟨hle, hlen, -⟩ := leading_le (Decimal.ofDigits l.whole) l.fractionDigits
  rw [← ofDigits_append] at hle
  unfold float?
  rw [leading_eq hfits, Nat.zero_mul, Nat.zero_add]
  dsimp only
  rw [Option.isSome_map]
  obtain ⟨n, hn⟩ : ∃ n, (leading (Decimal.ofDigits l.whole) l.fractionDigits).1 = n := ⟨_, rfl⟩
  obtain ⟨k, hk⟩ : ∃ k, (leading (Decimal.ofDigits l.whole) l.fractionDigits).2 = k := ⟨_, rfl⟩
  rw [hn, hk] at hle
  rw [hk] at hlen
  rw [hn, hk]
  refine isSome_scaleByTen? fun j hj => ?_
  -- The digits that are left out are made up for by the exponent.
  have hexp : (j : Int) = k + (l.exponent.getD 0 - l.fractionDigits.length) := by
    rw [← hj]
    push_cast [hlen]
    ring
  have hvalue : (n : ℚ) * (10 : ℚ) ^ j ≤ l.value := by
    have hcast : (n : ℚ) * (10 : ℚ) ^ k ≤ Decimal.ofDigits (l.whole ++ l.fractionDigits) := by
      exact_mod_cast hle
    have hpow : (0 : ℚ) ≤ (10 : ℚ) ^ (l.exponent.getD 0 - l.fractionDigits.length : Int) :=
      zpow_nonneg (by norm_num) _
    rw [← zpow_natCast, hexp, zpow_add₀ Decimal.ten_ne_zero, zpow_natCast, ← mul_assoc]
    exact mul_le_mul_of_nonneg_right hcast hpow
  have hscaled : (n : ℚ) * (10 : ℚ) ^ j * ((Binary64.scale : ℕ) : ℚ) ≤
      (((2 ^ 54 - 7) * Binary64.halfStep : ℕ) : ℚ) :=
    (mul_le_mul_of_nonneg_right hvalue (Nat.cast_nonneg _)).trans h
  have hten : Decimal.powerOfTen j = 10 ^ j := rfl
  rw [hten]
  exact_mod_cast hscaled

/-! ### Magnitudes -/

theorem plainWhole_literal (rank : Nat) : plainWhole (literal rank).whole = true := by
  have hplain {whole : List Char} (hne : whole ≠ []) (h : whole = ['0'] ∨ whole.head? ≠ some '0') :
      plainWhole whole = true := by
    obtain ⟨c, cs, rfl⟩ := List.exists_cons_of_ne_nil hne
    simpa [plainWhole] using h
  unfold literal
  split
  · rfl
  · rename_i h0
    have hspells := Decimal.spells_literal layout (Binary64.shortest tie rank)
    refine hplain hspells.proper.ne_nil (hspells.plain ?_)
    -- The digits of a number that is not zero do not start with a zero.
    have hcoefficient := Binary64.coefficient_shortest_ne_zero tie h0
    have hdigits := plainWhole_digits (Binary64.shortest tie rank).coefficient
    intro hhead
    simp only [plainWhole, Bool.or_eq_true, beq_iff_eq, hhead, Option.any_some, bne_self_eq_false,
      Bool.false_eq_true, or_false] at hdigits
    have hvalue := Decimal.ofDigits_digits (Binary64.shortest tie rank).coefficient
    rw [hdigits] at hvalue
    exact hcoefficient hvalue.symm

theorem length_whole_literal (rank : Nat) : (literal rank).whole.length ≤ 16 := by
  unfold literal
  split
  · exact Nat.le_add_left 1 15
  · have hbounds : layout.positional = some (-5, 15) := rfl
    exact Decimal.length_whole_le hbounds _

/-- All but the three greatest numbers are below what may be scaled. -/
theorem value_literal_le {rank : Nat} (h : rank + 4 ≤ Binary64.topRank) :
    (literal rank).value * ((Binary64.scale : ℕ) : ℚ) ≤
      (((2 ^ 54 - 7) * Binary64.halfStep : ℕ) : ℚ) := by
  have hrank : Binary64.units rank ≤ 2 * (2 * Binary64.fractions - 4) * Binary64.halfStep := by
    rw [← Binary64.units_last (by decide)]
    exact Binary64.units_strictMono.monotone (by omega)
  have hnext : Binary64.units (rank + 1) ≤
      2 * (2 * Binary64.fractions - 3) * Binary64.halfStep := by
    rw [← Binary64.units_last (by decide)]
    exact Binary64.units_strictMono.monotone (by omega)
  have hsum : Binary64.units rank + Binary64.units (rank + 1) ≤
      2 * ((2 ^ 54 - 7) * Binary64.halfStep) := by
    refine Nat.le_trans (Nat.add_le_add hrank hnext) (Nat.le_of_eq ?_)
    rw [← Nat.add_mul, ← Nat.mul_assoc]
    rfl
  have hcast : ((Binary64.units rank + Binary64.units (rank + 1) : ℕ) : ℚ) ≤
      ((2 * ((2 ^ 54 - 7) * Binary64.halfStep) : ℕ) : ℚ) := by
    exact_mod_cast hsum
  have hhigh := (readsBack_literal rank).le_high.trans hcast
  rw [Nat.cast_mul, Nat.cast_mul 2, mul_left_comm] at hhigh
  exact le_of_mul_le_mul_left hhigh (by norm_num)

/-- The three greatest numbers are read. -/
theorem isSome_float?_greatest :
    ∀ j ∈ [1, 2, 3], (float? false (literal (Binary64.topRank - j)).whole
      (literal (Binary64.topRank - j)).fractionDigits
      ((literal (Binary64.topRank - j)).exponent.getD 0)).isSome = true := by
  decide +kernel

/-- **What is in range is read again.** -/
theorem read?_text {n : Numeral} (h : n.IsInRange) : ∃ m, read? n.text = some (some m) := by
  cases n with
  | integer i => exact ⟨_, read?_integer h.1 h.2⟩
  | float x =>
      cases x with
      | nan => cases h
      | signed negative rank le =>
          have hlt : rank < Binary64.topRank := of_decide_eq_true h
          have hsome : (float? negative (literal rank).whole (literal rank).fractionDigits
              ((literal rank).exponent.getD 0)).isSome = true := by
            by_cases hfar : rank + 4 ≤ Binary64.topRank
            · exact isSome_float? (isProper_literal rank) (length_whole_literal rank)
                (value_literal_le hfar) negative
            · obtain ⟨j, hj, rfl⟩ : ∃ j ∈ [1, 2, 3], rank = Binary64.topRank - j := by
                refine ⟨Binary64.topRank - rank, ?_, by omega⟩
                simp only [List.mem_cons, List.not_mem_nil, or_false]
                omega
              have hgreatest := isSome_float?_greatest j hj
              unfold float? at hgreatest ⊢
              dsimp only at hgreatest ⊢
              rwa [Option.isSome_map] at hgreatest ⊢
          obtain ⟨m, hm⟩ := Option.isSome_iff_exists.1 hsome
          refine ⟨m, ?_⟩
          rw [text_float, magnitude_eq, read?_chars (isProper_literal rank) (plainWhole_literal rank)
            exponent_ne_none, hm]

/-- What a numeral is after it has been written and read. -/
def reread (n : Numeral) : Numeral :=
  ((read? n.text).join).getD n

theorem read?_text_eq {n : Numeral} (h : n.IsInRange) : read? n.text = some (some n.reread) := by
  obtain ⟨m, hm⟩ := read?_text h
  rw [reread, hm]
  rfl

end Json.Numeral

end CoachLedger
