/-
**Decimals are read as the numbers that they belong to.**

Rounding a quotient takes a nearest integer of units, and of two equally near ones the even one.  So
the quotient lies between the midpoints of the rank that is taken and its neighbours, and on a
midpoint only if the rank is even: it belongs to the rank.  Since a rational number belongs to one
rank only, every decimal that belongs to a rank is read as the number of this rank, and so is the
shortest decimal of a number.

Main definitions:

* `CoachLedger.Binary64.IsNearest` — an integer nearest to a quotient, the even one of two.

Main results:

* `CoachLedger.Binary64.isNearest_halfEven` — rounding takes a nearest integer;
* `CoachLedger.Binary64.isExact_of_natAbs_le` — all integers of 53 binary digits are numbers;
* `CoachLedger.Binary64.readsBack_nearestRank` — a quotient belongs to the rank it is rounded to;
* `CoachLedger.Binary64.ofDecimal_eq` — **a decimal is read as the number that it belongs to**.
-/

import CoachLedger.Proofs.Binary64.Finite
import CoachLedger.Proofs.Binary64.Shortest

set_option autoImplicit false

namespace CoachLedger.Binary64

/-! ### Nearest integers -/

/-- The integer is nearest to the quotient, and if there are two of them it is even. -/
structure IsNearest (m n d : Nat) : Prop where
  low : 2 * (m * d) ≤ 2 * n + d
  high : 2 * n ≤ 2 * (m * d) + d
  odd : m % 2 = 1 → 2 * (m * d) < 2 * n + d ∧ 2 * n < 2 * (m * d) + d

theorem isNearest_halfEven (n : Nat) {d : Nat} (hd : 0 < d) : IsNearest (halfEven n d) n d := by
  have hdiv := Nat.div_add_mod n d
  have hmod := Nat.mod_lt n hd
  rw [Nat.mul_comm d] at hdiv
  have hsucc : (n / d + 1) * d = n / d * d + d := Nat.succ_mul ..
  unfold halfEven
  dsimp only
  split
  · exact ⟨by omega, by omega, fun _ => by omega⟩
  · split
    · exact ⟨by omega, by omega, fun _ => by omega⟩
    · -- On a tie the even one of the two is taken.
      rcases Nat.mod_two_eq_zero_or_one (n / d) with heven | hodd
      · rw [heven, Nat.add_zero]
        exact ⟨by omega, by omega, fun h => by omega⟩
      · rw [hodd]
        exact ⟨by omega, by omega, fun h => by omega⟩

/-! ### The neighbours of a rank -/

/-- The exact value of a rank that is put together from a significand and an exponent; without an
exponent the significand may be that of a subnormal number. -/
theorem units_significand {m s : Nat} (hlow : s = 0 ∨ fractions ≤ m) (hhigh : m ≤ 2 * fractions) :
    units (m + s * fractions) = m * 2 ^ s := by
  rcases Nat.lt_or_ge m fractions with hlt | hge
  · obtain rfl : s = 0 := hlow.resolve_right (Nat.not_le_of_lt hlt)
    rw [Nat.zero_mul, Nat.add_zero, units_of_lt hlt, Nat.pow_zero, Nat.mul_one]
  · exact units_add_mul hge hhigh

/-- The next number is greater by the distance of the numbers of the exponent at least. -/
theorem succ_le_units {m s : Nat} (hlow : s = 0 ∨ fractions ≤ m) (hhigh : m ≤ 2 * fractions) :
    (m + 1) * 2 ^ s ≤ units (m + s * fractions + 1) := by
  rcases Nat.lt_or_eq_of_le hhigh with hlt | rfl
  · rw [Nat.add_right_comm, units_significand (hlow.imp_right Nat.le_succ_of_le) hlt]
  · -- The next number is the second one of the next exponent.
    have hrank : 2 * fractions + s * fractions + 1 = fractions + 1 + (s + 1) * fractions := by
      rw [Nat.succ_mul]
      ring
    rw [hrank, units_significand (.inr (Nat.le_succ _)) (by decide), Nat.pow_succ]
    calc (2 * fractions + 1) * 2 ^ s ≤ (fractions + 1) * 2 * 2 ^ s :=
          Nat.mul_le_mul_right _ (by decide)
      _ = (fractions + 1) * (2 ^ s * 2) := by ring

/-- So is a number than the one before it, unless it is the first one of its exponent. -/
theorem units_pred_le {m s : Nat} (hlow : s = 0 ∨ fractions < m) (hhigh : m ≤ 2 * fractions) :
    units (m + s * fractions - 1) ≤ (m - 1) * 2 ^ s := by
  rcases Nat.eq_zero_or_pos m with rfl | hm
  · obtain rfl : s = 0 := hlow.resolve_right (Nat.not_lt_zero _)
    exact Nat.zero_le _
  · have hrank : m + s * fractions - 1 = m - 1 + s * fractions := by omega
    have hlow' : s = 0 ∨ fractions ≤ m - 1 := hlow.imp_right Nat.le_sub_one_of_lt
    rw [hrank, units_significand hlow' (Nat.le_trans (Nat.sub_le ..) hhigh)]

/-! ### Integers -/

/-- The integers in the range where all integers are exact are numbers. -/
theorem isExact_of_natAbs_le {i : Int} (h : i.natAbs ≤ maxExactInteger) : IsExact i := by
  obtain ⟨n, hn⟩ : ∃ n, i.natAbs = n := ⟨_, rfl⟩
  rw [hn] at h
  rcases Nat.eq_zero_or_pos n with rfl | hpos
  · exact ⟨zero, (Int.natAbs_eq_zero.1 hn).symm ▸ integer?_of_isZero rfl⟩
  · -- The significand has 53 binary digits.
    obtain ⟨k, hk⟩ : ∃ k, n.log2 = k := ⟨_, rfl⟩
    have hlow : 2 ^ k ≤ n := hk ▸ Nat.log2_self_le hpos.ne'
    have hhigh : n < 2 ^ (k + 1) := hk ▸ Nat.lt_log2_self
    have hk52 : k ≤ 52 := by
      have hlt : 2 ^ k < 2 ^ 53 := Nat.lt_of_le_of_lt hlow (Nat.lt_succ_of_le h)
      exact Nat.lt_succ_iff.1 ((Nat.pow_lt_pow_iff_right (by decide)).1 hlt)
    obtain ⟨m, hm⟩ : ∃ m, n * 2 ^ (52 - k) = m := ⟨_, rfl⟩
    have hmlow : fractions ≤ m := by
      calc fractions = 2 ^ k * 2 ^ (52 - k) := by rw [← Nat.pow_add, Nat.add_sub_cancel' hk52]
        _ ≤ m := hm ▸ Nat.mul_le_mul_right _ hlow
    have hmhigh : m ≤ 2 * fractions := by
      calc m ≤ 2 ^ (k + 1) * 2 ^ (52 - k) := hm ▸ Nat.mul_le_mul_right _ hhigh.le
        _ = 2 * fractions := by
            rw [← Nat.pow_add, Nat.add_right_comm, Nat.add_sub_cancel' hk52]
            rfl
    obtain ⟨r, hr⟩ : ∃ r, m + (1022 + k) * fractions = r := ⟨_, rfl⟩
    have hunits : units r = n * scale := by
      have hexponent : 52 - k + (1022 + k) = 1074 := by omega
      rw [← hr, units_significand (.inr hmlow) hmhigh, ← hm, Nat.mul_assoc, ← Nat.pow_add,
        ← Nat.shiftLeft_eq, hexponent, shiftLeft_eq_mul]
    have hlt : r < topRank := by
      have hexponent : (1022 + k) * fractions ≤ 1074 * fractions :=
        Nat.mul_le_mul_right _ (by omega)
      have htop : 2 * fractions + 1074 * fractions < topRank := by decide
      omega
    have hmod : units r % scale = 0 := hunits ▸ Nat.mul_mod_left n scale
    have hdiv : (units r : Int) / (scale : Int) = n := by
      rw [← Int.natCast_ediv, hunits, Nat.mul_div_cancel n scale_pos]
    refine ⟨signed (i < 0) r hlt.le, ?_⟩
    rw [integer?, if_pos ⟨hlt, hmod⟩]
    dsimp only
    rw [hdiv, Option.some.injEq]
    split
    · rename_i hneg
      rw [decide_eq_true_eq] at hneg
      omega
    · rename_i hneg
      rw [decide_eq_true_eq] at hneg
      omega

theorem exactInteger?_ofInt {i : Int} (h : i.natAbs ≤ maxExactInteger) :
    (ofInt i).exactInteger? = some i := by
  rw [exactInteger?, integer?_ofInt_iff.2 (isExact_of_natAbs_le h)]
  exact Option.filter_eq_some_iff.2 ⟨rfl, decide_eq_true h⟩

/-! ### Quotients -/

/-- Whether a quotient belongs to a rank, with the denominator cleared. -/
theorem readsBack_div_iff {r n d : Nat} (hd : 0 < d) :
    ReadsBack r ((n : ℚ) / d) ↔
      if r % 2 = 0 then
        (units (r - 1) + units r) * d ≤ 2 * (n * scale) ∧
          2 * (n * scale) ≤ (units r + units (r + 1)) * d
      else
        (units (r - 1) + units r) * d < 2 * (n * scale) ∧
          2 * (n * scale) < (units r + units (r + 1)) * d := by
  have hpos : (0 : ℚ) < d := by exact_mod_cast hd
  -- The number of units is kept under a name, since `scale` must not be computed.
  obtain ⟨c, hc⟩ : ∃ c, scale = c := ⟨_, rfl⟩
  have hquot : (n : ℚ) / d * ((2 * scale : ℕ) : ℚ) = ((2 * (n * scale) : ℕ) : ℚ) / d := by
    rw [hc]
    push_cast
    ring
  unfold ReadsBack
  rw [hquot]
  generalize 2 * (n * scale) = v
  split
  · rw [le_div_iff₀ hpos, div_le_iff₀ hpos]
    exact_mod_cast Iff.rfl
  · rw [lt_div_iff₀ hpos, div_lt_iff₀ hpos]
    exact_mod_cast Iff.rfl

/-- The midpoint below a nearest significand is not above the quotient.  It lies half a distance
under the number, or nearer to it if the number is the first one of its exponent; but then the
quotient is not below the number. -/
theorem midpoint_le {m s v d : Nat} (hd : 0 < d) (hlow : s = 0 ∨ fractions ≤ m)
    (hhigh : m ≤ 2 * fractions) (hnear : IsNearest m v (d * 2 ^ s))
    (hfirst : s ≠ 0 → m * (d * 2 ^ s) ≤ v ∨ fractions < m) :
    (units (m + s * fractions - 1) + units (m + s * fractions)) * d ≤ 2 * v ∧
      (m % 2 = 1 →
        (units (m + s * fractions - 1) + units (m + s * fractions)) * d < 2 * v) := by
  have hstep : 0 < d * 2 ^ s := Nat.mul_pos hd (Nat.two_pow_pos s)
  have hunits : units (m + s * fractions) * d = m * (d * 2 ^ s) := by
    rw [units_significand hlow hhigh]
    ring
  rw [Nat.add_mul, hunits]
  obtain ⟨hbelow, -, hodd⟩ := hnear
  rcases Nat.eq_zero_or_pos m with rfl | hm
  · obtain rfl : s = 0 := hlow.resolve_right (by decide)
    have hzero : units (0 + 0 * fractions - 1) = 0 := by
      rw [Nat.zero_mul]
      exact units_zero
    rw [hzero, Nat.zero_mul, Nat.zero_mul]
    exact ⟨Nat.zero_le _, fun h => by cases h⟩
  · have hinner (h : s = 0 ∨ fractions < m) :
        units (m + s * fractions - 1) * d + d * 2 ^ s ≤ m * (d * 2 ^ s) := by
      calc units (m + s * fractions - 1) * d + d * 2 ^ s
          ≤ (m - 1) * 2 ^ s * d + d * 2 ^ s :=
            Nat.add_le_add_right (Nat.mul_le_mul_right d (units_pred_le h hhigh)) _
        _ = (m - 1 + 1) * (d * 2 ^ s) := by ring
        _ = m * (d * 2 ^ s) := by rw [Nat.sub_add_cancel hm]
    by_cases hs : s = 0
    · have := hinner (.inl hs)
      exact ⟨by omega, fun h => by have := hodd h; omega⟩
    · rcases hfirst hs with hle | hlt
      · have hpred : units (m + s * fractions - 1) * d < m * (d * 2 ^ s) := by
          rw [← hunits]
          exact Nat.mul_lt_mul_of_pos_right (units_strictMono (by omega)) hd
        exact ⟨by omega, fun _ => by omega⟩
      · have := hinner (.inr hlt)
        exact ⟨by omega, fun h => by have := hodd h; omega⟩

/-- Nor is the midpoint above a nearest significand below the quotient. -/
theorem le_midpoint {m s v d : Nat} (hlow : s = 0 ∨ fractions ≤ m) (hhigh : m ≤ 2 * fractions)
    (hnear : IsNearest m v (d * 2 ^ s)) :
    2 * v ≤ (units (m + s * fractions) + units (m + s * fractions + 1)) * d ∧
      (m % 2 = 1 →
        2 * v < (units (m + s * fractions) + units (m + s * fractions + 1)) * d) := by
  have hunits : units (m + s * fractions) * d = m * (d * 2 ^ s) := by
    rw [units_significand hlow hhigh]
    ring
  have hnext : m * (d * 2 ^ s) + d * 2 ^ s ≤ units (m + s * fractions + 1) * d := by
    calc m * (d * 2 ^ s) + d * 2 ^ s = (m + 1) * 2 ^ s * d := by ring
      _ ≤ units (m + s * fractions + 1) * d := Nat.mul_le_mul_right d (succ_le_units hlow hhigh)
  obtain ⟨-, habove, hodd⟩ := hnear
  rw [Nat.add_mul, hunits]
  exact ⟨by omega, fun h => by have := hodd h; omega⟩

/-- **A quotient belongs to the rank that it is rounded to.** -/
theorem readsBack_nearestRank {n d : Nat} (hd : 0 < d) (h : nearestRank n d < topRank) :
    ReadsBack (nearestRank n d) ((n : ℚ) / d) := by
  obtain ⟨v, hv⟩ : ∃ v, n * scale = v := ⟨_, rfl⟩
  have hshift : n <<< 1074 = v := by rw [shiftLeft_eq_mul, ← hv]
  obtain ⟨s, hs⟩ : ∃ s, (v / d).log2 - 52 = s := ⟨_, rfl⟩
  have hp := Nat.two_pow_pos s
  have hstep : 0 < d * 2 ^ s := Nat.mul_pos hd hp
  obtain ⟨m, hm⟩ : ∃ m, halfEven v (d * 2 ^ s) = m := ⟨_, rfl⟩
  have hrank : nearestRank n d = m + s * fractions := by
    have hmin : nearestRank n d = min (m + s * fractions) topRank := by
      simp only [nearestRank, hshift, hs, Nat.shiftLeft_eq, hm]
    -- The number of units must not be computed.
    clear hv hshift
    omega
  have hnear : IsNearest m v (d * 2 ^ s) := hm ▸ isNearest_halfEven v hstep
  -- The quotient has 53 binary digits before its point, or fewer if it is subnormal.
  have hquot : v / (d * 2 ^ s) < 2 * fractions := by
    rw [← Nat.div_div_eq_div_mul, Nat.div_lt_iff_lt_mul hp, show 2 * fractions = 2 ^ 53 from rfl,
      ← Nat.pow_add]
    exact Nat.lt_of_lt_of_le Nat.lt_log2_self (Nat.pow_le_pow_right (by decide) (by omega))
  have hhigh : m ≤ 2 * fractions := by
    have := halfEven_le_div v (d * 2 ^ s)
    omega
  have hnormal : s ≠ 0 → fractions * (d * 2 ^ s) ≤ v := by
    intro h0
    have hlog : (v / d).log2 = 52 + s := by omega
    have hne : v / d ≠ 0 := by
      intro hzero
      rw [hzero, Nat.log2_zero] at hlog
      omega
    have hle : fractions * 2 ^ s ≤ v / d := by
      rw [show fractions = 2 ^ 52 from rfl, ← Nat.pow_add, ← hlog]
      exact Nat.log2_self_le hne
    calc fractions * (d * 2 ^ s) = fractions * 2 ^ s * d := by ring
      _ ≤ v := (Nat.le_div_iff_mul_le hd).1 hle
  have hlow : s = 0 ∨ fractions ≤ m := by
    by_cases h0 : s = 0
    · exact .inl h0
    · have hle := (Nat.le_div_iff_mul_le hstep).2 (hnormal h0)
      exact .inr (hm ▸ Nat.le_trans hle (div_le_halfEven v _))
  have hfirst : s ≠ 0 → m * (d * 2 ^ s) ≤ v ∨ fractions < m := by
    intro h0
    rcases Nat.lt_or_eq_of_le (hlow.resolve_left h0) with hlt | heq
    · exact .inr hlt
    · exact .inl (heq ▸ hnormal h0)
  have hbelow := midpoint_le hd hlow hhigh hnear hfirst
  have habove := le_midpoint hlow hhigh hnear
  have hparity : (m + s * fractions) % 2 = m % 2 := by
    unfold fractions
    omega
  rw [hrank, readsBack_div_iff hd, hparity, hv]
  split
  · exact ⟨hbelow.1, habove.1⟩
  · have hodd : m % 2 = 1 := by omega
    exact ⟨hbelow.2 hodd, habove.2 hodd⟩

/-! ### Ranks of quotients -/

/-- What belongs to a finite rank is below the last midpoint. -/
theorem ReadsBack.lt_lastMidpoint {r n d : Nat} (hd : 0 < d) (h : ReadsBack r ((n : ℚ) / d))
    (hr : r < topRank) : n * scale < lastMidpoint * halfStep * d := by
  obtain ⟨v, hv⟩ : ∃ v, n * scale = v := ⟨_, rfl⟩
  obtain ⟨t, ht⟩ : ∃ t, lastMidpoint * halfStep = t := ⟨_, rfl⟩
  rw [readsBack_div_iff hd, hv] at h
  rw [hv, ht]
  have hself := units_lt_lastMidpoint hr
  rcases Nat.lt_or_eq_of_le (Nat.succ_le_of_lt hr) with hlt | heq
  · have hnext := units_lt_lastMidpoint hlt
    rw [ht] at hself hnext
    have hhigh : 2 * v ≤ (units r + units (r + 1)) * d := by
      split at h
      · exact h.2
      · exact h.2.le
    have hsum : (units r + units (r + 1)) * d < (t + t) * d :=
      Nat.mul_lt_mul_of_pos_right (Nat.add_lt_add hself hnext) hd
    rw [Nat.add_mul t] at hsum
    omega
  · -- The last midpoint itself belongs to infinity, since the greatest number has an odd rank.
    have hodd : r % 2 ≠ 0 := by
      have htop : topRank % 2 = 0 := by decide
      omega
    have hsum : units r + units (r + 1) = 2 * t := by
      have hrank : r = topRank - 1 := by omega
      have hnext : r + 1 = topRank - 0 := heq
      rw [hnext, hrank, units_last (by decide), units_last (Nat.zero_le _), ← Nat.add_mul, ← ht,
        ← Nat.mul_assoc]
      rfl
    rw [if_neg hodd, hsum, Nat.mul_assoc] at h
    omega

/-- **What belongs to a finite rank is rounded to it.** -/
theorem nearestRank_of_readsBack {r n d : Nat} (hd : 0 < d) (h : ReadsBack r ((n : ℚ) / d))
    (hr : r < topRank) : nearestRank n d = r :=
  eq_of_readsBack (readsBack_nearestRank hd (nearestRank_lt_topRank hd (h.lt_lastMidpoint hd hr))) h

/-! ### Decimals -/

/-- A decimal is a quotient of natural numbers. -/
theorem value_eq_div (d : Decimal) :
    d.value = ((d.coefficient * Decimal.powerOfTen d.exponent.toNat : ℕ) : ℚ) /
      (Decimal.powerOfTen (-d.exponent).toNat : ℕ) := by
  have hpow : (10 : ℚ) ^ d.exponent =
      (10 : ℚ) ^ d.exponent.toNat / (10 : ℚ) ^ (-d.exponent).toNat := by
    rw [← zpow_natCast, ← zpow_natCast, ← zpow_sub₀ Decimal.ten_ne_zero]
    congr 1
    omega
  rw [Decimal.value, hpow, Nat.cast_mul, cast_powerOfTen, cast_powerOfTen]
  ring

/-- Powers of ten past the guard are larger than all finite numbers. -/
theorem lastMidpoint_le_powerOfTen {k : Nat} (h : 400 ≤ k) :
    lastMidpoint * halfStep ≤ Decimal.powerOfTen k * scale := by
  have hguard : lastMidpoint * (1 <<< 970) ≤ Decimal.powerOfTen 400 := by decide +kernel
  rw [halfStep_eq, ← Nat.mul_assoc]
  exact Nat.mul_le_mul_right _ (Nat.le_trans hguard (Decimal.powerOfTen_mono h))

/-- Coefficients so far below one belong to zero. -/
theorem two_mul_le_powerOfTen {c k : Nat} (h : 401 + c.log2 ≤ k) :
    2 * (c * scale) ≤ Decimal.powerOfTen k := by
  have hguard : 2 * scale ≤ Decimal.powerOfTen 400 := by decide +kernel
  have hc : c ≤ Decimal.powerOfTen (1 + c.log2) := by
    calc c ≤ 2 ^ (c.log2 + 1) := Nat.lt_log2_self.le
      _ ≤ 10 ^ (c.log2 + 1) := Nat.pow_le_pow_left (by decide) _
      _ = Decimal.powerOfTen (1 + c.log2) := by rw [Nat.add_comm]; rfl
  calc 2 * (c * scale) = c * (2 * scale) := Nat.mul_left_comm ..
    _ ≤ Decimal.powerOfTen (1 + c.log2) * Decimal.powerOfTen 400 := Nat.mul_le_mul hc hguard
    _ = Decimal.powerOfTen (1 + c.log2 + 400) := (Decimal.powerOfTen_add _ _).symm
    _ ≤ Decimal.powerOfTen k := Decimal.powerOfTen_mono (by omega)

theorem readsBack_zero {d : Decimal} (h0 : d.coefficient = 0) : ReadsBack 0 d.value := by
  refine readsBack_exact ?_
  rw [Decimal.value, h0, Nat.cast_zero, zero_mul, zero_mul, units_zero, Nat.mul_zero, Nat.cast_zero]

/-- What is below the guard belongs to zero. -/
theorem readsBack_zero_of_small {d : Decimal} (h : d.exponent < -400 - d.coefficient.log2) :
    ReadsBack 0 d.value := by
  have hexp : d.exponent.toNat = 0 := by omega
  have hle := two_mul_le_powerOfTen (c := d.coefficient) (k := (-d.exponent).toNat) (by omega)
  have hcoefficient : d.coefficient * Decimal.powerOfTen 0 = d.coefficient := Nat.mul_one _
  have hlow : units (0 - 1) + units 0 = 0 := rfl
  have hhigh : units 0 + units (0 + 1) = 1 := rfl
  rw [value_eq_div, hexp, hcoefficient, readsBack_div_iff (Decimal.powerOfTen_pos _), if_pos rfl,
    hlow, hhigh, Nat.one_mul, Nat.zero_mul]
  exact ⟨Nat.zero_le _, hle⟩

/-- What belongs to a finite rank is not past the guard. -/
theorem exponent_le_of_readsBack {d : Decimal} {r : Nat} (h : ReadsBack r d.value)
    (hr : r < topRank) (h0 : d.coefficient ≠ 0) : d.exponent ≤ 400 := by
  by_contra hlarge
  have hexp : (-d.exponent).toNat = 0 := by omega
  have hone : Decimal.powerOfTen 0 = 1 := rfl
  rw [value_eq_div, hexp, hone] at h
  have hlt := h.lt_lastMidpoint Nat.one_pos hr
  have hle := lastMidpoint_le_powerOfTen (k := d.exponent.toNat) (by omega)
  have hcoefficient : Decimal.powerOfTen d.exponent.toNat * scale ≤
      d.coefficient * Decimal.powerOfTen d.exponent.toNat * scale :=
    Nat.mul_le_mul_right _ (Nat.le_mul_of_pos_left _ (Nat.pos_of_ne_zero h0))
  rw [Nat.mul_one] at hlt
  exact absurd (Nat.le_trans hle hcoefficient) (Nat.not_le_of_lt hlt)

/-- **A decimal is read as the number that it belongs to.** -/
theorem ofDecimal_eq (negative : Bool) {d : Decimal} {r : Nat} (h : ReadsBack r d.value)
    (hr : r < topRank) : ofDecimal negative d = ofRank negative r := by
  have hrank : nearestRank (d.coefficient * Decimal.powerOfTen d.exponent.toNat)
      (Decimal.powerOfTen (-d.exponent).toNat) = r := by
    refine nearestRank_of_readsBack (Decimal.powerOfTen_pos _) ?_ hr
    rw [← value_eq_div]
    exact h
  unfold ofDecimal
  split
  · rename_i h0
    rw [eq_of_readsBack h (readsBack_zero h0)]
  · rename_i h0
    rw [if_neg (Int.not_lt.2 (exponent_le_of_readsBack h hr h0))]
    split
    · rename_i hsmall
      rw [eq_of_readsBack h (readsBack_zero_of_small hsmall)]
    · split
      · rename_i hpos
        have hexp : (-d.exponent).toNat = 0 := by omega
        have hone : Decimal.powerOfTen 0 = 1 := rfl
        rw [hexp, hone] at hrank
        rw [ofRatio, hrank]
      · rename_i hneg
        have hexp : d.exponent.toNat = 0 := by omega
        have hcoefficient : d.coefficient * Decimal.powerOfTen 0 = d.coefficient := Nat.mul_one _
        rw [hexp, hcoefficient] at hrank
        rw [ofRatio, hrank]

end CoachLedger.Binary64
