/-
**Texts of numbers tell the numbers apart.**

The decimal that a number is written as lies between the midpoints to its two neighbours.  Such
intervals of two numbers have nothing in common but a midpoint, and a midpoint belongs to the one
with the even rank.  So a text that was written for a number was written for no other one.

Main definitions:

* `CoachLedger.Binary64.ReadsBack` — the rational numbers that belong to a rank.

Main results:

* `CoachLedger.Binary64.eq_of_readsBack` — a rational number belongs to one rank only;
* `CoachLedger.Binary64.readsBack_shortest` — the shortest decimal belongs to its rank.
-/

import CoachLedger.Binary64.Shortest
import CoachLedger.Proofs.Binary64.Exact
import CoachLedger.Proofs.Decimal.Value
import Mathlib.Tactic.Linarith

set_option autoImplicit false

namespace CoachLedger.Binary64

variable {r r' : Nat} {q : ℚ}

/-! ### Intervals -/

/-- The rational number lies between the midpoints of the rank and its neighbours.  The midpoints
themselves belong to the rank if it is even. -/
def ReadsBack (rank : Nat) (q : ℚ) : Prop :=
  if rank % 2 = 0 then
    ((units (rank - 1) + units rank : ℕ) : ℚ) ≤ q * ((2 * scale : ℕ) : ℚ) ∧
      q * ((2 * scale : ℕ) : ℚ) ≤ ((units rank + units (rank + 1) : ℕ) : ℚ)
  else
    ((units (rank - 1) + units rank : ℕ) : ℚ) < q * ((2 * scale : ℕ) : ℚ) ∧
      q * ((2 * scale : ℕ) : ℚ) < ((units rank + units (rank + 1) : ℕ) : ℚ)

theorem ReadsBack.low_le (h : ReadsBack r q) :
    ((units (r - 1) + units r : ℕ) : ℚ) ≤ q * ((2 * scale : ℕ) : ℚ) := by
  unfold ReadsBack at h
  split at h
  · exact h.1
  · exact h.1.le

theorem ReadsBack.le_high (h : ReadsBack r q) :
    q * ((2 * scale : ℕ) : ℚ) ≤ ((units r + units (r + 1) : ℕ) : ℚ) := by
  unfold ReadsBack at h
  split at h
  · exact h.2
  · exact h.2.le

/-- What belongs to a rank belongs to no greater one. -/
theorem not_readsBack_of_lt (hlt : r < r') (h : ReadsBack r q) : ¬ReadsBack r' q := by
  intro h'
  rcases Nat.lt_or_ge (r + 1) r' with hgap | hnext
  · -- A whole number lies between the two intervals.
    have hlow : units r ≤ units (r' - 1) := units_strictMono.monotone (by omega)
    have hhigh : units (r + 1) < units r' := units_strictMono hgap
    have hsum : units r + units (r + 1) < units (r' - 1) + units r' := by omega
    have hcast : ((units r + units (r + 1) : ℕ) : ℚ) < ((units (r' - 1) + units r' : ℕ) : ℚ) := by
      exact_mod_cast hsum
    have := h.le_high
    have := h'.low_le
    linarith
  · -- The intervals share a midpoint, which belongs to the even rank.
    obtain rfl : r' = r + 1 := by omega
    have hhigh := h.le_high
    have hlow := h'.low_le
    rw [Nat.add_sub_cancel] at hlow
    unfold ReadsBack at h h'
    rw [Nat.add_sub_cancel] at h'
    rcases Nat.mod_two_eq_zero_or_one r with hr | hr
    · rw [if_neg (by omega)] at h'
      linarith [h'.1]
    · rw [if_neg (by omega)] at h
      linarith [h.2]

/-- **A rational number belongs to one rank only.** -/
theorem eq_of_readsBack (h : ReadsBack r q) (h' : ReadsBack r' q) : r = r' := by
  rcases Nat.lt_trichotomy r r' with hlt | heq | hgt
  · exact absurd h' (not_readsBack_of_lt hlt h)
  · exact heq
  · exact absurd h (not_readsBack_of_lt hgt h')

/-- The exact value of a rank belongs to it. -/
theorem readsBack_exact (h : q * ((2 * scale : ℕ) : ℚ) = ((2 * units r : ℕ) : ℚ)) :
    ReadsBack r q := by
  have hup := units_lt_succ r
  unfold ReadsBack
  rw [h]
  split
  · have hdown : units (r - 1) ≤ units r := units_strictMono.monotone (Nat.sub_le r 1)
    constructor
    · exact_mod_cast (by omega : units (r - 1) + units r ≤ 2 * units r)
    · exact_mod_cast (by omega : 2 * units r ≤ units r + units (r + 1))
  · have hdown : units (r - 1) < units r := units_strictMono (by omega)
    constructor
    · exact_mod_cast (by omega : units (r - 1) + units r < 2 * units r)
    · exact_mod_cast (by omega : 2 * units r < units r + units (r + 1))

/-! ### Points of a grid -/

theorem cast_powerOfTen (e : Nat) : (Decimal.powerOfTen e : ℚ) = (10 : ℚ) ^ e := by
  have h : Decimal.powerOfTen e = 10 ^ e := rfl
  rw [h]
  push_cast
  rfl

/-- A point of a grid, without its denominator. -/
theorem value_mul (k : Nat) (e : Int) :
    Decimal.value ⟨k, e⟩ * ((2 * scale : ℕ) : ℚ) * (Decimal.powerOfTen (-e).toNat : ℚ) =
      ((k * (2 * scale * Decimal.powerOfTen e.toNat) : ℕ) : ℚ) := by
  have hpow : (10 : ℚ) ^ e * (10 : ℚ) ^ (-e).toNat = (10 : ℚ) ^ e.toNat := by
    rw [← zpow_natCast, ← zpow_natCast, ← zpow_add₀ Decimal.ten_ne_zero]
    congr 1
    omega
  -- The number of units is kept under a name, since `scale` must not be computed.
  obtain ⟨c, hc⟩ : ∃ c, 2 * scale = c := ⟨_, rfl⟩
  rw [hc, Decimal.value, Nat.cast_mul, Nat.cast_mul, cast_powerOfTen, cast_powerOfTen, ← hpow]
  ring

/-- A comparison with a point of a grid is one of natural numbers. -/
theorem le_value_iff (n k : Nat) (e : Int) :
    (n : ℚ) ≤ Decimal.value ⟨k, e⟩ * ((2 * scale : ℕ) : ℚ) ↔
      n * Decimal.powerOfTen (-e).toNat ≤ k * (2 * scale * Decimal.powerOfTen e.toNat) := by
  have hpos : (0 : ℚ) < Decimal.powerOfTen (-e).toNat := by
    exact_mod_cast Decimal.powerOfTen_pos _
  rw [← mul_le_mul_iff_left₀ hpos, value_mul]
  exact_mod_cast Iff.rfl

theorem value_le_iff (n k : Nat) (e : Int) :
    Decimal.value ⟨k, e⟩ * ((2 * scale : ℕ) : ℚ) ≤ (n : ℚ) ↔
      k * (2 * scale * Decimal.powerOfTen e.toNat) ≤ n * Decimal.powerOfTen (-e).toNat := by
  have hpos : (0 : ℚ) < Decimal.powerOfTen (-e).toNat := by
    exact_mod_cast Decimal.powerOfTen_pos _
  rw [← mul_le_mul_iff_left₀ hpos, value_mul]
  exact_mod_cast Iff.rfl

/-- **A point of a grid that is found belongs to the rank.** -/
theorem readsBack_of_onGrid? {tie : Tie} {e : Int} {k : Nat} (h : onGrid? tie r e = some k) :
    ReadsBack r (Decimal.value ⟨k, e⟩) := by
  -- The test of a point is the one of the definition, with the denominators cleared.
  have htest (k : Nat) (ht : (if r % 2 = 0 then
      decide ((units (r - 1) + units r) * Decimal.powerOfTen (-e).toNat ≤
        k * (2 * scale * Decimal.powerOfTen e.toNat)) &&
      decide (k * (2 * scale * Decimal.powerOfTen e.toNat) ≤
        (units r + units (r + 1)) * Decimal.powerOfTen (-e).toNat)
      else
      decide ((units (r - 1) + units r) * Decimal.powerOfTen (-e).toNat <
        k * (2 * scale * Decimal.powerOfTen e.toNat)) &&
      decide (k * (2 * scale * Decimal.powerOfTen e.toNat) <
        (units r + units (r + 1)) * Decimal.powerOfTen (-e).toNat)) = true) :
      ReadsBack r (Decimal.value ⟨k, e⟩) := by
    unfold ReadsBack
    split
    · rename_i hr
      rw [if_pos hr, Bool.and_eq_true, decide_eq_true_eq, decide_eq_true_eq] at ht
      exact ⟨(le_value_iff ..).2 ht.1, (value_le_iff ..).2 ht.2⟩
    · rename_i hr
      rw [if_neg hr, Bool.and_eq_true, decide_eq_true_eq, decide_eq_true_eq] at ht
      exact ⟨not_le.1 fun hle => absurd ((value_le_iff ..).1 hle) (not_le.2 ht.1),
        not_le.1 fun hle => absurd ((le_value_iff ..).1 hle) (not_le.2 ht.2)⟩
  unfold onGrid? interval at h
  dsimp only at h
  split at h
  · rename_i hbelow habove
    obtain ⟨upper, hupper⟩ : ∃ upper : Bool, some (if upper = true then _ else _) = some k := ⟨_, h⟩
    rw [← Option.some.inj hupper]
    cases upper with
    | true => exact htest _ habove
    | false => exact htest _ hbelow
  · rename_i hbelow _
    rw [← Option.some.inj h]
    exact htest _ hbelow
  · rename_i _ habove
    rw [← Option.some.inj h]
    exact htest _ habove
  · cases h

/-! ### Shortest decimals -/

/-- The exact value of a rank as a decimal: a number of halves is a number of tenths. -/
theorem readsBack_halves {n f : Nat} {e : Int} (hf : Nat.pow 5 n = f) (he : e = -n)
    (hs : scale = 1 <<< n) : ReadsBack r (Decimal.value ⟨units r * f, e⟩) := by
  have hpow : f = 5 ^ n := hf.symm
  have hten : (10 : ℚ) ^ n = 2 ^ n * 5 ^ n := by rw [← mul_pow]; norm_num
  have htwo : (2 : ℚ) ^ n ≠ 0 := pow_ne_zero n (by norm_num)
  have hfive : (5 : ℚ) ^ n ≠ 0 := pow_ne_zero n (by norm_num)
  refine readsBack_exact ?_
  rw [Decimal.value, hpow, hs, he, Nat.one_shiftLeft, zpow_neg, zpow_natCast, hten]
  push_cast
  field_simp

/-- **The shortest decimal belongs to its rank.** -/
theorem readsBack_shortest (tie : Tie) (rank : Nat) :
    ReadsBack rank (shortest tie rank).value := by
  unfold shortest
  dsimp only
  rw [Decimal.value_strip]
  cases hfound : (List.range 25).findSome? fun (i : Nat) =>
      (onGrid? tie rank (powerAbove rank - i)).map fun k => Decimal.mk k (powerAbove rank - i) with
  | none =>
      -- The power is kept under a name, since it must not be computed.
      generalize hf : Nat.pow 5 1074 = f
      exact readsBack_halves hf rfl rfl
  | some d =>
      obtain ⟨i, -, hi⟩ := List.exists_of_findSome?_eq_some hfound
      obtain ⟨k, hk, rfl⟩ := Option.map_eq_some_iff.1 hi
      exact readsBack_of_onGrid? hk

end CoachLedger.Binary64
