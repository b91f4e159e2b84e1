/-
**Products and quotients that stay finite.**

A natural number is rounded by at most one part in `2 ^ 53`, so that the rounded product of two
rounded numbers exceeds their product by little more than two parts.  The product is therefore
finite unless it is one of the few numbers next to infinity.  A finite number that is divided by the
rounding of a natural number stays finite in any case.

Main definitions:

* `CoachLedger.Binary64.halfStep`, `CoachLedger.Binary64.lastMidpoint` — the distance of the greatest
  numbers, and the midpoint between the last one and infinity.

Main results:

* `CoachLedger.Binary64.units_nearestRank_le` — how far a natural number is rounded up;
* `CoachLedger.Binary64.nearestRank_lt_topRank` — what is below the last midpoint stays finite;
* `CoachLedger.Binary64.isFinite_mul`, `CoachLedger.Binary64.isFinite_div` — **products and quotients
  that stay finite**.
-/

import CoachLedger.Proofs.Binary64.Monotone
import Mathlib.Tactic.Ring

set_option autoImplicit false

namespace CoachLedger.Binary64

/-! ### How far a number is rounded -/

theorem two_mul_halfEven_le (n d : Nat) : 2 * (halfEven n d * d) ≤ 2 * n + d := by
  have hdiv := Nat.div_add_mod n d
  rw [Nat.mul_comm d] at hdiv
  unfold halfEven
  dsimp only
  split
  · omega
  · rename_i hlow
    have hup : 2 * ((n / d + 1) * d) ≤ 2 * n + d := by
      rw [Nat.add_mul]
      omega
    split
    · exact hup
    · refine Nat.le_trans (Nat.mul_le_mul_left 2 (Nat.mul_le_mul_right d ?_)) hup
      omega

/-- The exact value of a rank that is put together from a significand and an exponent. -/
theorem units_add_mul {m k : Nat} (hlow : fractions ≤ m) (hhigh : m ≤ 2 * fractions) :
    units (m + k * fractions) = m * 2 ^ k := by
  rw [units_of_ge (Nat.le_trans hlow (Nat.le_add_right ..)), Nat.add_mul_mod_self_right,
    Nat.add_mul_div_right _ _ fractions_pos]
  rcases Nat.lt_or_eq_of_le hhigh with hlt | rfl
  · have hdiv : m / fractions = 1 := by
      unfold fractions at *
      omega
    have hmod : m % fractions = m - fractions := by
      unfold fractions at *
      omega
    rw [hdiv, hmod, Nat.add_sub_cancel' hlow, Nat.add_comm 1 k, Nat.add_sub_cancel]
  · -- The significand carries into the next exponent.
    have hexp : 2 * fractions / fractions + k - 1 = k + 1 := by
      unfold fractions
      omega
    rw [Nat.mul_mod_left, hexp, Nat.pow_succ]
    ring

/-- **A natural number is rounded up by at most one part in `2 ^ 53`.** -/
theorem units_nearestRank_le (n : Nat) :
    units (nearestRank n 1) * 2 ^ 53 ≤ n * scale * (2 ^ 53 + 1) := by
  rcases Nat.eq_zero_or_pos n with rfl | hn
  · rw [nearestRank_of_units Nat.one_pos (Nat.zero_le _) (by rw [Nat.zero_mul, units_zero]),
      units_zero]
    exact Nat.zero_le _
  obtain ⟨v, hv⟩ : ∃ v, n * scale = v := ⟨_, rfl⟩
  have hshift : n <<< 1074 = v := by rw [shiftLeft_eq_mul, ← hv]
  obtain ⟨k, hk⟩ : ∃ k, 1074 = k := ⟨_, rfl⟩
  have hv1 : 2 ^ k ≤ v := by
    rw [← hshift, hk, Nat.shiftLeft_eq]
    exact Nat.le_mul_of_pos_left _ hn
  have hv0 : v ≠ 0 := Nat.ne_of_gt (Nat.lt_of_lt_of_le (Nat.two_pow_pos k) hv1)
  obtain ⟨s, hs⟩ : ∃ s, v.log2 = 52 + s := by
    have := (Nat.le_log2 hv0).2 hv1
    exact ⟨v.log2 - 52, by omega⟩
  have hpow : 2 ^ 52 * 2 ^ s ≤ v := by
    rw [← Nat.pow_add, ← hs]
    exact Nat.log2_self_le hv0
  have hhigh : v < 2 ^ 53 * 2 ^ s := by
    rw [← Nat.pow_add, show 53 + s = v.log2 + 1 by omega]
    exact Nat.lt_log2_self
  have hp := Nat.two_pow_pos s
  -- The significand is that of a normal number, or carries into the next exponent.
  have hlow' : fractions ≤ halfEven v (2 ^ s) :=
    Nat.le_trans ((Nat.le_div_iff_mul_le hp).2 hpow) (div_le_halfEven v _)
  have hhigh' : halfEven v (2 ^ s) ≤ 2 * fractions :=
    Nat.le_trans (halfEven_le_div v _) ((Nat.div_lt_iff_lt_mul hp).2 hhigh)
  have hrank : nearestRank n 1 ≤ halfEven v (2 ^ s) + s * fractions := by
    simp only [nearestRank, hshift, Nat.div_one, hs, Nat.add_sub_cancel_left, Nat.shiftLeft_eq,
      Nat.one_mul]
    exact Nat.min_le_left ..
  have herror := two_mul_halfEven_le v (2 ^ s)
  have hunits := units_strictMono.monotone hrank
  rw [units_add_mul hlow' hhigh'] at hunits
  rw [hv]
  omega

/-! ### The last midpoint -/

/-- Half of the distance of the greatest numbers. -/
def halfStep : Nat := 1 <<< 2044

theorem one_shiftLeft_pos (k : Nat) : 0 < 1 <<< k := by
  rw [Nat.one_shiftLeft]
  exact Nat.two_pow_pos k

theorem halfStep_pos : 0 < halfStep := one_shiftLeft_pos 2044

theorem one_shiftLeft_add (j k : Nat) : 1 <<< (j + k) = (1 <<< j) * (1 <<< k) := by
  rw [Nat.one_shiftLeft, Nat.one_shiftLeft, Nat.one_shiftLeft, Nat.pow_add]

/-- The half distance is an integer. -/
theorem halfStep_eq : halfStep = (1 <<< 970) * scale := by
  rw [Nat.mul_comm]
  exact one_shiftLeft_add 1074 970

/-- The midpoint between the greatest number and infinity, in halves of their distance. -/
def lastMidpoint : Nat := 2 ^ 54 - 1

/-- What is below a midpoint is not rounded up. -/
theorem halfEven_lt_of_lt_midpoint {v u m : Nat} (h : v < (2 * m - 1) * u) :
    halfEven v (2 * u) < m := by
  by_contra hle
  have herror := two_mul_halfEven_le v (2 * u)
  have hm := Nat.mul_le_mul_right (2 * u) (Nat.le_of_not_lt hle)
  rw [Nat.sub_mul, Nat.one_mul, Nat.mul_assoc, Nat.mul_left_comm] at h
  omega

/-- **What is below the last midpoint stays finite.** -/
theorem nearestRank_lt_topRank {n d : Nat} (hd : 0 < d)
    (h : n * scale < lastMidpoint * halfStep * d) : nearestRank n d < topRank := by
  -- The power is kept under a name, since it must not be computed.
  obtain ⟨k, hk⟩ : ∃ k, 2044 = k := ⟨_, rfl⟩
  have hhalf : halfStep = 2 ^ k := by rw [halfStep, hk, Nat.one_shiftLeft]
  obtain ⟨v, hv⟩ : ∃ v, n <<< 1074 = v := ⟨_, rfl⟩
  obtain ⟨s, hs⟩ : ∃ s, (v / d).log2 - 52 = s := ⟨_, rfl⟩
  rw [← Nat.one_mul scale, ← Nat.mul_assoc, Nat.mul_one, ← shiftLeft_eq_mul, hv, hhalf] at h
  have hquot : v / d < 2 ^ (54 + k) := by
    rw [Nat.div_lt_iff_lt_mul hd, Nat.pow_add]
    exact Nat.lt_of_lt_of_le h
      (Nat.mul_le_mul_right d (Nat.mul_le_mul_right (2 ^ k) (by decide)))
  have hlog : (v / d).log2 < 54 + k := by
    rcases Nat.eq_zero_or_pos (v / d) with h0 | h0
    · rw [h0, Nat.log2_zero]
      omega
    · exact (Nat.log2_lt (by omega)).2 hquot
  have hp := Nat.two_pow_pos s
  have htop : topRank = 2 * fractions + 2045 * fractions := rfl
  simp only [nearestRank, hv, hs, Nat.shiftLeft_eq]
  refine Nat.lt_of_le_of_lt (Nat.min_le_left ..) ?_
  rcases Nat.lt_or_ge s 2045 with hlt | hge
  · -- Even if the rounding carries, the exponent is not the last one.
    have hsignificand : v / (d * 2 ^ s) < 2 * fractions := by
      rw [← Nat.div_div_eq_div_mul, Nat.div_lt_iff_lt_mul hp, show 2 * fractions = 2 ^ 53 from rfl,
        ← Nat.pow_add]
      exact Nat.lt_of_lt_of_le Nat.lt_log2_self (Nat.pow_le_pow_right (by decide) (by omega))
    have hcarry := halfEven_le_div v (d * 2 ^ s)
    have hexp : s * fractions ≤ 2044 * fractions := Nat.mul_le_mul_right _ (by omega)
    have hpos := fractions_pos
    clear h hquot
    omega
  · -- With the last exponent nothing is rounded up to infinity.
    obtain rfl : s = k + 1 := by omega
    have hstep : d * 2 ^ (k + 1) = 2 * (2 ^ k * d) := by
      rw [Nat.pow_succ]
      ring
    have hlt : halfEven v (d * 2 ^ (k + 1)) < 2 * fractions := by
      rw [hstep]
      refine halfEven_lt_of_lt_midpoint ?_
      rwa [← Nat.mul_assoc]
    have hexp : (k + 1) * fractions = 2045 * fractions := by rw [← hk]
    rw [hexp, htop]
    exact Nat.add_lt_add_right hlt _

/-- The exact values of the greatest numbers. -/
theorem units_last {j : Nat} (hj : j ≤ fractions) :
    units (topRank - j) = 2 * (2 * fractions - j) * halfStep := by
  obtain ⟨k, hk⟩ : ∃ k, 2044 = k := ⟨_, rfl⟩
  have hrank : topRank - j = 2 * fractions - j + (k + 1) * fractions := by
    have htop : topRank = 2 * fractions + 2045 * fractions := rfl
    have hexp : (k + 1) * fractions = 2045 * fractions := by rw [← hk]
    omega
  rw [hrank, units_add_mul (by omega) (Nat.sub_le ..), halfStep, hk, Nat.one_shiftLeft, Nat.pow_succ]
  ring

/-- A finite number is below the last midpoint. -/
theorem units_lt_lastMidpoint {r : Nat} (h : r < topRank) :
    units r < lastMidpoint * halfStep := by
  have hle : units r ≤ units (topRank - 1) := units_strictMono.monotone (by omega)
  rw [units_last (by decide)] at hle
  exact Nat.lt_of_le_of_lt hle (Nat.mul_lt_mul_of_pos_right (by decide) halfStep_pos)

/-! ### Products and quotients -/

theorem nearestRank_le (n d : Nat) : nearestRank n d ≤ topRank := by
  unfold nearestRank
  exact Nat.min_le_right ..

theorem isFinite_ofRatio {negative : Bool} {n d : Nat} (h : nearestRank n d < topRank) :
    (ofRatio negative n d).isFinite = true := by
  rw [ofRatio, ofRank, isFinite]
  exact decide_eq_true (Nat.lt_of_le_of_lt (Nat.min_le_left ..) h)

/-- A finite number is one of a rank below that of infinity. -/
theorem eq_ofRank_of_isFinite {x : Binary64} (h : x.isFinite = true) :
    ∃ p r, r < topRank ∧ x = ofRank p r := by
  cases x with
  | nan => cases h
  | signed p r hr =>
      refine ⟨p, r, of_decide_eq_true h, ?_⟩
      simp only [ofRank, Nat.min_eq_left hr]

theorem mul_of_lt {p q : Bool} {a b : Nat} (ha : a < topRank) (hb : b < topRank) :
    (ofRank p a).mul (ofRank q b) = ofRatio (p != q) (units a * units b) (scale * scale) := by
  have ha' : min a topRank = a := Nat.min_eq_left (Nat.le_of_lt ha)
  have hb' : min b topRank = b := Nat.min_eq_left (Nat.le_of_lt hb)
  rw [ofRank, ofRank, mul, ha', hb', if_pos ⟨ha, hb⟩]

theorem div_of_lt {p q : Bool} {a b : Nat} (ha : a < topRank) (hb : b < topRank) (h0 : 0 < b) :
    (ofRank p a).div (ofRank q b) = ofRatio (p != q) (units a) (units b) := by
  have ha' : min a topRank = a := Nat.min_eq_left (Nat.le_of_lt ha)
  have hb' : min b topRank = b := Nat.min_eq_left (Nat.le_of_lt hb)
  rw [ofRank, ofRank, div, ha', hb', if_pos ⟨ha, hb, h0⟩]

/-- Two roundings together are less than the gap that is left. -/
theorem product_lt_lastMidpoint {a b n p s w : Nat} (ha : a * 2 ^ 53 ≤ n * s * (2 ^ 53 + 1))
    (hb : b * 2 ^ 53 ≤ p * s * (2 ^ 53 + 1)) (h : n * p * s ≤ (2 ^ 54 - 7) * w) (hs : 0 < s)
    (hw : 0 < w) : a * b * s < lastMidpoint * w * (s * s) := by
  have hgap : (2 ^ 54 - 7) * (2 ^ 53 + 1) ^ 2 < lastMidpoint * (2 ^ 53) ^ 2 := by decide
  have hmul := Nat.mul_le_mul ha hb
  have hpos : 0 < w * (s * s) := Nat.mul_pos hw (Nat.mul_pos hs hs)
  have hscaled : a * b * s * (2 ^ 53) ^ 2 < lastMidpoint * w * (s * s) * (2 ^ 53) ^ 2 :=
    calc a * b * s * (2 ^ 53) ^ 2 = a * 2 ^ 53 * (b * 2 ^ 53) * s := by ring
      _ ≤ n * s * (2 ^ 53 + 1) * (p * s * (2 ^ 53 + 1)) * s := Nat.mul_le_mul_right s hmul
      _ = n * p * s * ((2 ^ 53 + 1) ^ 2 * (s * s)) := by ring
      _ ≤ (2 ^ 54 - 7) * w * ((2 ^ 53 + 1) ^ 2 * (s * s)) := Nat.mul_le_mul_right _ h
      _ = (2 ^ 54 - 7) * (2 ^ 53 + 1) ^ 2 * (w * (s * s)) := by ring
      _ < lastMidpoint * (2 ^ 53) ^ 2 * (w * (s * s)) := Nat.mul_lt_mul_of_pos_right hgap hpos
      _ = lastMidpoint * w * (s * s) * (2 ^ 53) ^ 2 := by ring
  exact Nat.lt_of_mul_lt_mul_right hscaled

/-- **Products that stay finite**: those that are less than three and a half of the last distances
below infinity. -/
theorem isFinite_mul {n p : Nat} (hp0 : 0 < p) (hp : nearestRank p 1 < topRank)
    (h : n * p * scale ≤ (2 ^ 54 - 7) * halfStep) : ((ofNat n).mul (ofNat p)).isFinite = true := by
  have hn : nearestRank n 1 < topRank := by
    refine nearestRank_lt_topRank Nat.one_pos ?_
    rw [Nat.mul_one]
    calc n * scale ≤ n * p * scale := Nat.mul_le_mul_right _ (Nat.le_mul_of_pos_right n hp0)
      _ ≤ (2 ^ 54 - 7) * halfStep := h
      _ < lastMidpoint * halfStep := Nat.mul_lt_mul_of_pos_right (by decide) halfStep_pos
  rw [ofNat, ofNat, ofRatio, ofRatio, mul_of_lt hn hp]
  exact isFinite_ofRatio (nearestRank_lt_topRank (Nat.mul_pos scale_pos scale_pos)
    (product_lt_lastMidpoint (units_nearestRank_le n) (units_nearestRank_le p) h scale_pos
      halfStep_pos))

/-- A natural number that is not zero is not rounded below one. -/
theorem scale_le_units_nearestRank {p : Nat} (hp : 0 < p) : scale ≤ units (nearestRank p 1) := by
  obtain ⟨k, hk⟩ : ∃ k, 1022 = k := ⟨_, rfl⟩
  have hscale : scale = units (fractions + k * fractions) := by
    have hshift : scale = 1 <<< (52 + k) := by rw [← hk]
    rw [units_add_mul (Nat.le_refl _) (by decide), hshift, Nat.one_shiftLeft, Nat.pow_add]
  have hone : nearestRank 1 1 = fractions + k * fractions := by
    refine nearestRank_of_units Nat.one_pos ?_ (by rw [← hscale, Nat.mul_one, Nat.one_mul])
    rw [← hk]
    decide
  rw [hscale, ← hone]
  exact units_strictMono.monotone (nearestRank_mono hp)

/-- **Quotients that stay finite**: division by a natural number does not increase a number. -/
theorem isFinite_div {x : Binary64} {p : Nat} (hx : x.isFinite = true) (hp : 0 < p) :
    (x.div (ofNat p)).isFinite = true := by
  obtain ⟨negative, r, hr, rfl⟩ := eq_ofRank_of_isFinite hx
  have hscale := scale_le_units_nearestRank hp
  rcases Nat.lt_or_eq_of_le (nearestRank_le p 1) with hlt | heq
  · have hpos : 0 < nearestRank p 1 := by
      refine Nat.pos_of_ne_zero fun h0 => ?_
      rw [h0, units_zero] at hscale
      exact absurd (Nat.lt_of_lt_of_le scale_pos hscale) (Nat.lt_irrefl 0)
    rw [ofNat, ofRatio, div_of_lt hr hlt hpos]
    refine isFinite_ofRatio (nearestRank_lt_topRank (Nat.lt_of_lt_of_le scale_pos hscale) ?_)
    calc units r * scale < lastMidpoint * halfStep * scale :=
          Nat.mul_lt_mul_of_pos_right (units_lt_lastMidpoint hr) scale_pos
      _ ≤ lastMidpoint * halfStep * units (nearestRank p 1) := Nat.mul_le_mul_left _ hscale
  · -- A number divided by infinity is zero.
    have hzero (q : Bool) : (ofRank negative r).div (ofRank q topRank) = ofRank (negative != q) 0 := by
      rw [ofRank, ofRank, div, Nat.min_eq_left (Nat.le_of_lt hr), Nat.min_self,
        if_neg fun h => Nat.lt_irrefl _ h.2.1, if_pos ⟨hr, rfl⟩]
    rw [ofNat, ofRatio, heq, hzero]
    rfl

end CoachLedger.Binary64
