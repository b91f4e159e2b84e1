/-
**Ranks and exact values.**

A number of the binary64 format is its signed rank, and the storage engine compares numbers by
their exact values.  Both orders are the same, because the exact value of a rank grows with the
rank.  Rounding a quotient whose exact value is that of a rank gives this rank back, so an integer
that was a number is still that number after it has been kept as an integer.

Main definitions:

* `CoachLedger.Binary64.inUnits?` — the exact value of a number with its sign, in units of
  `2 ^ (-1074)`;
* `CoachLedger.Binary64.IsExact` — the integer is the value of a number;
* `CoachLedger.Binary64.unsignedZero` — a number without the sign of zero.

Main results:

* `CoachLedger.Binary64.units_strictMono` — the exact value grows with the rank;
* `CoachLedger.Binary64.compare_eq_exact` — **numbers compare as their exact values do**;
* `CoachLedger.Binary64.nearestRank_of_units` — an exact value is not changed by rounding;
* `CoachLedger.Binary64.ofInt_eq_unsignedZero` — the integer that a number is reads as the number.
-/

import CoachLedger.Binary64.Nearest
import Mathlib.Order.Monotone.Basic
import Mathlib.Tactic.Positivity

set_option autoImplicit false

namespace CoachLedger.Binary64

/-! ### The exact value grows with the rank -/

theorem fractions_pos : 0 < fractions := by decide

theorem units_of_lt {r : Nat} (h : r < fractions) : units r = r := by
  rw [units, if_pos h]

theorem units_of_ge {r : Nat} (h : fractions ≤ r) :
    units r = (fractions + r % fractions) * 2 ^ (r / fractions - 1) := by
  rw [units, if_neg (by omega), Nat.shiftLeft_eq]

/-- The next rank has the next fraction, or the first fraction of the next exponent. -/
theorem split_succ (r : Nat) :
    ((r + 1) / fractions = r / fractions ∧ (r + 1) % fractions = r % fractions + 1) ∨
      ((r + 1) / fractions = r / fractions + 1 ∧ (r + 1) % fractions = 0 ∧
        r % fractions + 1 = fractions) := by
  unfold fractions
  omega

/-- The next rank is greater by the distance of the numbers around it. -/
theorem units_lt_succ (r : Nat) : units r < units (r + 1) := by
  -- Both ranks lie below the first exponent, or only the first one does, or neither.
  rcases Nat.lt_or_ge (r + 1) fractions with h | h
  · rw [units_of_lt h, units_of_lt (by omega)]
    omega
  · rcases Nat.lt_or_ge r fractions with hr | hr
    · have hlast : r + 1 = fractions := by omega
      rw [units_of_lt hr, hlast, units_of_ge (Nat.le_refl _), Nat.mod_self,
        Nat.div_self fractions_pos]
      omega
    · have hq : 1 ≤ r / fractions := (Nat.one_le_div_iff fractions_pos).2 hr
      have hp : 0 < 2 ^ (r / fractions - 1) := Nat.two_pow_pos _
      rw [units_of_ge hr, units_of_ge h]
      -- The last number of an exponent is followed by the first one of the next exponent.
      rcases split_succ r with ⟨hdiv, hmod⟩ | ⟨hdiv, hmod, hlast⟩
      · rw [hdiv, hmod]
        exact Nat.mul_lt_mul_of_pos_right (by omega) hp
      · have he : r / fractions + 1 - 1 = r / fractions - 1 + 1 := by omega
        rw [hdiv, hmod, he, Nat.pow_succ, Nat.mul_comm _ 2, ← Nat.mul_assoc]
        exact Nat.mul_lt_mul_of_pos_right (by omega) hp

/-- The exact value grows with the rank. -/
theorem units_strictMono : StrictMono units :=
  strictMono_nat_of_lt_succ units_lt_succ

theorem units_zero : units 0 = 0 := rfl

/-! ### Numbers compare as their exact values -/

/-- The exact value of a number with its sign, in units of `2 ^ (-1074)`. -/
def inUnits? : Binary64 → Option Int
  | nan => none
  | signed negative rank _ => some (if negative then -(units rank : Int) else units rank)

/-- The exact value of a signed rank. -/
def signedUnits : Int → Int
  | .ofNat r => units r
  | .negSucc r => -(units (r + 1) : Int)

theorem signedUnits_natCast (r : Nat) : signedUnits r = units r := rfl

theorem signedUnits_neg (r : Nat) : signedUnits (-r) = -(units r : Int) := by
  cases r with
  | zero => rfl
  | succ r => rfl

theorem signedUnits_lt {x y : Int} (h : x < y) : signedUnits x < signedUnits y := by
  have hpos : ∀ r : Nat, 0 < units (r + 1) := fun r => by
    simpa [units_zero] using units_strictMono (Nat.succ_pos r)
  match x, y with
  | .ofNat a, .ofNat b =>
      have hab : a < b := by simpa using h
      exact Int.ofNat_lt.2 (units_strictMono hab)
  | .ofNat a, .negSucc b => exact absurd h (by simp; omega)
  | .negSucc a, .ofNat b =>
      have := hpos a
      simp only [signedUnits]
      omega
  | .negSucc a, .negSucc b =>
      have hab : b + 1 < a + 1 := by omega
      have := units_strictMono hab
      simp only [signedUnits]
      omega

theorem compare_signedUnits (x y : Int) :
    Ord.compare (signedUnits x) (signedUnits y) = Ord.compare x y := by
  rcases Int.lt_trichotomy x y with h | h | h
  · rw [Int.compare_eq_lt.2 h, Int.compare_eq_lt.2 (signedUnits_lt h)]
  · rw [h, Int.compare_eq_eq.2 rfl, Int.compare_eq_eq.2 rfl]
  · rw [Int.compare_eq_gt.2 h, Int.compare_eq_gt.2 (signedUnits_lt h)]

theorem inUnits?_eq_map_key (x : Binary64) : x.inUnits? = x.key.map signedUnits := by
  cases x with
  | nan => rfl
  | signed negative rank le =>
      cases negative with
      | true => simp [inUnits?, key, signedUnits_neg]
      | false => simp [inUnits?, key, signedUnits_natCast]

/-- **Numbers compare as their exact values do.** -/
theorem compare_eq_exact (x y : Binary64) :
    x.compare y = x.inUnits?.bind fun a => y.inUnits?.map fun b => Ord.compare a b := by
  rw [inUnits?_eq_map_key, inUnits?_eq_map_key, Binary64.compare]
  cases x.key with
  | none => rfl
  | some a =>
      cases y.key with
      | none => rfl
      | some b => simp [compare_signedUnits]

theorem compare_known {x y : Binary64} (hx : x ≠ nan) (hy : y ≠ nan) :
    ∃ o, x.compare y = some o := by
  cases x with
  | nan => exact absurd rfl hx
  | signed negative rank le =>
      cases y with
      | nan => exact absurd rfl hy
      | signed negative' rank' le' => exact ⟨_, rfl⟩

/-! ### Exact values are not rounded -/

/-- Below the first exponent the distance of two numbers is one unit, and it doubles with each
further exponent. -/
theorem log2_units (r : Nat) : (units r).log2 - 52 = r / fractions - 1 := by
  rcases Nat.lt_or_ge r fractions with h | h
  · rw [units_of_lt h, Nat.div_eq_of_lt h]
    rcases Nat.eq_zero_or_pos r with h0 | h0
    · simp [h0]
    · have : r.log2 < 52 := (Nat.log2_lt (by omega)).2 h
      omega
  · have hm : r % fractions < fractions := Nat.mod_lt _ fractions_pos
    have hp : 0 < 2 ^ (r / fractions - 1) := Nat.two_pow_pos _
    -- The leading bit of the significand is the 53rd, and the exponent moves it up.
    have hlog : (units r).log2 = 52 + (r / fractions - 1) := by
      have hlow : 2 ^ 52 ≤ fractions + r % fractions := Nat.le_add_right _ _
      have hhigh : fractions + r % fractions < 2 ^ 53 := by
        unfold fractions at hm ⊢
        omega
      rw [units_of_ge h, Nat.log2_eq_iff (by positivity)]
      constructor
      · rw [Nat.pow_add]
        exact Nat.mul_le_mul_right _ hlow
      · rw [Nat.add_right_comm, Nat.pow_add]
        exact Nat.mul_lt_mul_of_pos_right hhigh hp
    rw [hlog]
    omega

theorem scale_pos : 0 < scale := by decide +kernel

theorem shiftLeft_eq_mul (n k : Nat) : n <<< k = n * (1 <<< k) := by
  rw [Nat.shiftLeft_eq, Nat.shiftLeft_eq, Nat.one_mul]

/-- **An exact value is not changed by rounding.** -/
theorem nearestRank_of_units {n d r : Nat} (hd : 0 < d) (hr : r ≤ topRank)
    (h : n * scale = units r * d) : nearestRank n d = r := by
  have hv : n <<< 1074 = units r * d := (shiftLeft_eq_mul n 1074).trans h
  have hquot : units r * d / d = units r := Nat.mul_div_cancel _ hd
  simp only [nearestRank, hv, hquot, log2_units]
  -- The quotient by the distance of the numbers is a whole number, so no half is rounded.
  rcases Nat.lt_or_ge r fractions with hlt | hge
  · rw [units_of_lt hlt, Nat.div_eq_of_lt hlt]
    simp [halfEven_mul r d hd, hr]
  · have hpos : 0 < d <<< (r / fractions - 1) := by
      rw [Nat.shiftLeft_eq]
      exact Nat.mul_pos hd (Nat.two_pow_pos _)
    have hprod : units r * d = (fractions + r % fractions) * d <<< (r / fractions - 1) := by
      rw [units_of_ge hge, Nat.shiftLeft_eq, Nat.mul_assoc, Nat.mul_comm _ d]
    have hq : 1 ≤ r / fractions := (Nat.one_le_div_iff fractions_pos).2 hge
    have hdiv := Nat.div_add_mod r fractions
    have hsum : fractions + r % fractions + (r / fractions - 1) * fractions = r := by
      obtain ⟨q, hqe⟩ : ∃ q, r / fractions = q + 1 := ⟨r / fractions - 1, by omega⟩
      rw [hqe, Nat.mul_comm, Nat.succ_mul] at hdiv
      rw [hqe, Nat.add_sub_cancel]
      omega
    rw [hprod, halfEven_mul _ _ hpos, hsum, Nat.min_eq_left hr]

/-! ### Integers that are numbers -/

/-- The integer is the value of a number. -/
def IsExact (i : Int) : Prop :=
  ∃ x : Binary64, x.integer? = some i

/-- The exact value of an integer, in units of `2 ^ (-1074)`. -/
def exactInt (i : Int) : Int := i * (scale : Nat)

theorem isFinite_of_integer? {x : Binary64} {i : Int} (h : x.integer? = some i) :
    x.isFinite = true := by
  cases x with
  | nan => cases h
  | signed negative rank le =>
      by_contra hinfinite
      have hrank : ¬rank < topRank := fun hlt => hinfinite (decide_eq_true hlt)
      rw [integer?, if_neg fun hand => hrank hand.1] at h
      cases h

theorem inUnits?_of_integer? {x : Binary64} {i : Int} (h : x.integer? = some i) :
    x.inUnits? = some (exactInt i) := by
  cases x with
  | nan => simp [integer?] at h
  | signed negative rank le =>
      simp only [integer?] at h
      split at h
      · rename_i hc
        simp only [Option.some.injEq] at h
        -- The quotient is kept under a name, since `scale` must not be computed.
        obtain ⟨n, hn⟩ : ∃ n, n = units rank / scale := ⟨_, rfl⟩
        have hu : exactInt n = units rank := by
          rw [hn, exactInt, ← Int.natCast_mul, Nat.div_mul_cancel (Nat.dvd_of_mod_eq_zero hc.2)]
        subst h
        rw [← Int.natCast_ediv, ← hn, inUnits?, ← hu]
        cases negative with
        | true => rw [if_pos rfl, if_pos rfl, exactInt, exactInt, Int.neg_mul]
        | false => rw [if_neg Bool.false_ne_true, if_neg Bool.false_ne_true]
      · cases h

theorem exactInt_lt {i j : Int} (h : i < j) : exactInt i < exactInt j :=
  Int.mul_lt_mul_of_pos_right h (Int.natCast_pos.2 scale_pos)

theorem natAbs_exactInt (i : Int) : (exactInt i).natAbs = i.natAbs * scale := by
  rw [exactInt, Int.natAbs_mul, Int.natAbs_natCast]

/-- The number that is read for an integer that was a number has the same place in the order. -/
theorem key_ofInt {x : Binary64} {i : Int} (h : x.integer? = some i) : (ofInt i).key = x.key := by
  have he := inUnits?_of_integer? h
  cases x with
  | nan => simp [integer?] at h
  | signed negative rank le =>
      simp only [inUnits?, Option.some.injEq] at he
      have hrank : nearestRank i.natAbs 1 = rank := by
        refine nearestRank_of_units Nat.one_pos le ?_
        rw [← natAbs_exactInt, ← he, Nat.mul_one]
        split <;> simp
      -- The sign of zero is lost, but both zeros have the same place.
      have hneg : rank ≠ 0 → decide (i < 0) = negative := by
        intro h0
        have hpos : 0 < units rank := by
          simpa [units_zero] using units_strictMono (Nat.pos_of_ne_zero h0)
        have hzero : exactInt 0 = 0 := Int.zero_mul _
        rcases Int.lt_trichotomy i 0 with hi | hi | hi
        · have := exactInt_lt hi
          cases negative with
          | true => simpa using hi
          | false => simp at he; omega
        · subst hi
          cases negative <;> simp [hzero] at he <;> omega
        · have := exactInt_lt hi
          cases negative with
          | true => simp at he; omega
          | false => simpa using Int.le_of_lt hi
      simp only [ofInt, ofRatio, ofRank, key, hrank, Nat.min_eq_left le]
      rcases Nat.eq_zero_or_pos rank with h0 | h0
      · simp [h0]
      · rw [hneg (by omega)]

theorem inUnits?_ofInt {i : Int} (h : IsExact i) : (ofInt i).inUnits? = some (exactInt i) := by
  obtain ⟨x, hx⟩ := h
  rw [inUnits?_eq_map_key, key_ofInt hx, ← inUnits?_eq_map_key, inUnits?_of_integer? hx]

/-! ### The sign of zero -/

/-- Numbers at the same place in the order are equal, but for the sign of zero. -/
theorem eq_of_same {x y : Binary64} (hx : x.isZero = false) (h : x.same y = true) :
    x = y := by
  cases x with
  | nan => cases h
  | signed p r hr =>
      cases y with
      | nan => cases h
      | signed q r' hr' =>
          have hr0 : r ≠ 0 := beq_eq_false_iff_ne.1 hx
          have hkey : (if p then -(r : Int) else r) = if q then -(r' : Int) else r' := by
            simpa [same, compare, key, Int.compare_eq_eq] using h
          -- The signs are equal because the ranks are not zero.
          cases p <;> cases q <;> simp at hkey <;> first | omega | (subst hkey; rfl)

/-- The number with zero without a sign. -/
def unsignedZero (x : Binary64) : Binary64 :=
  if x.isZero then zero else x

theorem unsignedZero_of_isZero {x : Binary64} (h : x.isZero = true) : x.unsignedZero = zero :=
  if_pos h

theorem unsignedZero_of_not_isZero {x : Binary64} (h : x.isZero = false) : x.unsignedZero = x := by
  rw [unsignedZero, h, if_neg Bool.false_ne_true]

theorem integer?_of_isZero {x : Binary64} (h : x.isZero = true) : x.integer? = some 0 := by
  cases x with
  | nan => cases h
  | signed negative rank le =>
      obtain rfl : rank = 0 := by simpa [isZero] using h
      cases negative <;> rfl

/-- **The integer that a number is reads as the number**, but for the sign of zero. -/
theorem ofInt_eq_unsignedZero {x : Binary64} {i : Int} (h : x.integer? = some i) :
    ofInt i = x.unsignedZero := by
  cases hz : x.isZero with
  | true =>
      obtain rfl : 0 = i := Option.some.inj ((integer?_of_isZero hz).symm.trans h)
      rw [unsignedZero_of_isZero hz]
      decide +kernel
  | false =>
      rw [unsignedZero_of_not_isZero hz]
      have hne : x ≠ nan := by
        rintro rfl
        cases h
      refine (eq_of_same hz ?_).symm
      rw [same, Binary64.compare, key_ofInt h, ← Binary64.compare, compare_self x hne]
      rfl

/-- An integer reads as itself exactly if it is the value of a number. -/
theorem integer?_ofInt_iff {i : Int} : (ofInt i).integer? = some i ↔ IsExact i := by
  refine ⟨fun h => ⟨_, h⟩, ?_⟩
  rintro ⟨x, hx⟩
  rw [ofInt_eq_unsignedZero hx, unsignedZero]
  split
  · rename_i hz
    exact (integer?_of_isZero hz).symm.trans hx
  · exact hx

end CoachLedger.Binary64
