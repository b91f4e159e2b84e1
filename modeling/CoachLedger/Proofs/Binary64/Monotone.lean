/-
**Rounding keeps the order.**

The number that an integer is read as does not come before the one that a smaller integer is read
as, even where several integers are read as the same number.  Numbers with the same exponent are
rounded to the multiples of the same distance, and where the exponents differ, the greatest fraction
of the smaller one rounds to the least fraction of the next one at most.

Main definitions:

* `CoachLedger.Binary64.roundedRank` — the rank of a number of units, without a bound;
* `CoachLedger.Binary64.placeOfInt` — the place in the order of the number that an integer is read
  as.

Main results:

* `CoachLedger.Binary64.nearestRank_mono`, `CoachLedger.Binary64.placeOfInt_mono` — **rounding keeps
  the order**;
* `CoachLedger.Binary64.compare_ofInt_ofInt` — integers are read in their order.
-/

import CoachLedger.Proofs.Binary64.Exact

set_option autoImplicit false

namespace CoachLedger.Binary64

/-! ### Ranks -/

theorem div_le_halfEven (n d : Nat) : n / d ≤ halfEven n d := by
  unfold halfEven
  dsimp only
  split
  · exact Nat.le_refl _
  · split <;> omega

theorem halfEven_le_div (n d : Nat) : halfEven n d ≤ n / d + 1 := by
  unfold halfEven
  dsimp only
  split
  · exact Nat.le_succ _
  · split <;> omega

theorem halfEven_mono {m n : Nat} (h : m ≤ n) (d : Nat) : halfEven m d ≤ halfEven n d := by
  rcases Nat.lt_or_eq_of_le (Nat.div_le_div_right h (c := d)) with hlt | heq
  · calc halfEven m d ≤ m / d + 1 := halfEven_le_div m d
      _ ≤ n / d := hlt
      _ ≤ halfEven n d := div_le_halfEven n d
  · -- The quotients are the same, so the remainders decide.
    have hmod : m % d ≤ n % d := by
      have hm := Nat.div_add_mod m d
      have hn := Nat.div_add_mod n d
      rw [heq] at hm
      omega
    unfold halfEven
    dsimp only
    rw [heq]
    split <;> split <;> (try split) <;> (try split) <;> omega

/-- The rank of a number of units, without the bound. -/
def roundedRank (v : Nat) : Nat :=
  halfEven v (1 <<< (v.log2 - 52)) + (v.log2 - 52) * fractions

theorem log2_mono {v w : Nat} (h : v ≤ w) : v.log2 ≤ w.log2 := by
  rcases Nat.eq_zero_or_pos v with rfl | hv
  · exact Nat.zero_le _
  · exact (Nat.le_log2 (by omega)).2 (Nat.le_trans (Nat.log2_self_le (by omega)) h)

/-- Within an exponent the fraction decides, and otherwise the exponent does. -/
theorem roundedRank_mono {v w : Nat} (h : v ≤ w) : roundedRank v ≤ roundedRank w := by
  unfold roundedRank
  rcases Nat.lt_or_eq_of_le (Nat.sub_le_sub_right (log2_mono h) 52) with hlt | heq
  · obtain ⟨a, ha⟩ : ∃ a, v.log2 - 52 = a := ⟨_, rfl⟩
    obtain ⟨b, hb⟩ : ∃ b, w.log2 - 52 = b := ⟨_, rfl⟩
    have hlog : w.log2 = 52 + b := by omega
    have hw0 : w ≠ 0 := by
      rintro rfl
      simp at hlog
      omega
    -- The first one rounds to at most twice the fractions, the second one to at least the fractions.
    have hupper : v / 1 <<< a < 2 * fractions := by
      rw [Nat.shiftLeft_eq, Nat.one_mul, Nat.div_lt_iff_lt_mul (Nat.two_pow_pos a)]
      calc v < 2 ^ (v.log2 + 1) := Nat.lt_log2_self
        _ ≤ 2 ^ (53 + a) := Nat.pow_le_pow_right (by decide) (by omega)
        _ = 2 * fractions * 2 ^ a := by rw [Nat.pow_add, show 2 ^ 53 = 2 * fractions from rfl]
    have hlower : fractions ≤ w / 1 <<< b := by
      rw [Nat.shiftLeft_eq, Nat.one_mul, Nat.le_div_iff_mul_le (Nat.two_pow_pos b)]
      calc fractions * 2 ^ b = 2 ^ (52 + b) := by rw [Nat.pow_add]
        _ = 2 ^ w.log2 := by rw [hlog]
        _ ≤ w := Nat.log2_self_le hw0
    have hv := halfEven_le_div v (1 <<< a)
    have hw := div_le_halfEven w (1 <<< b)
    rw [ha, hb] at hlt ⊢
    have hstep : (a + 1) * fractions ≤ b * fractions := Nat.mul_le_mul_right _ hlt
    rw [Nat.succ_mul] at hstep
    omega
  · rw [heq]
    exact Nat.add_le_add_right (halfEven_mono h _) _

/-- **Rounding keeps the order.** -/
theorem nearestRank_mono {m n : Nat} (h : m ≤ n) : nearestRank m 1 ≤ nearestRank n 1 := by
  have hrank (k : Nat) : nearestRank k 1 = min (roundedRank (k <<< 1074)) topRank := by
    simp only [nearestRank, roundedRank, Nat.div_one]
  have hshift : m <<< 1074 ≤ n <<< 1074 := by
    rw [shiftLeft_eq_mul, shiftLeft_eq_mul n]
    exact Nat.mul_le_mul_right _ h
  rw [hrank, hrank]
  have := roundedRank_mono hshift
  omega

/-! ### Integers -/

/-- The place in the order of the number that an integer is read as. -/
def placeOfInt (i : Int) : Int :=
  if i < 0 then -(nearestRank i.natAbs 1 : Int) else nearestRank i.natAbs 1

theorem key_ofInt_eq (i : Int) : (ofInt i).key = some (placeOfInt i) := by
  have hle : nearestRank i.natAbs 1 ≤ topRank := by
    unfold nearestRank
    exact Nat.min_le_right ..
  simp only [ofInt, ofRatio, ofRank, key, decide_eq_true_eq, Nat.min_eq_left hle, placeOfInt]

theorem placeOfInt_mono {i j : Int} (h : i ≤ j) : placeOfInt i ≤ placeOfInt j := by
  unfold placeOfInt
  by_cases hi : i < 0
  · rw [if_pos hi]
    by_cases hj : j < 0
    · -- Below zero the magnitudes are in the opposite order.
      have := nearestRank_mono (show j.natAbs ≤ i.natAbs by omega)
      rw [if_pos hj]
      omega
    · rw [if_neg hj]
      omega
  · have := nearestRank_mono (show i.natAbs ≤ j.natAbs by omega)
    rw [if_neg hi, if_neg (by omega)]
    omega

/-- **Integers are read in their order.** -/
theorem compare_ofInt_ofInt (i j : Int) :
    (ofInt i).compare (ofInt j) = some (Ord.compare (placeOfInt i) (placeOfInt j)) := by
  rw [Binary64.compare, key_ofInt_eq, key_ofInt_eq]

/-- Integers that are read as they are have places of their own. -/
theorem eq_of_placeOfInt_eq {i j : Int} (hi : IsExact i) (hj : IsExact j)
    (h : placeOfInt i = placeOfInt j) : i = j := by
  have hunits : exactInt i = exactInt j := by
    have heq : (ofInt i).inUnits? = (ofInt j).inUnits? := by
      rw [inUnits?_eq_map_key, inUnits?_eq_map_key, key_ofInt_eq, key_ofInt_eq, h]
    rw [inUnits?_ofInt hi, inUnits?_ofInt hj] at heq
    exact Option.some.inj heq
  rcases Int.lt_trichotomy i j with hlt | heq | hlt
  · exact absurd hunits (Int.ne_of_lt (exactInt_lt hlt))
  · exact heq
  · exact absurd hunits (Int.ne_of_gt (exactInt_lt hlt))

end CoachLedger.Binary64
