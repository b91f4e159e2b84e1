/-
**What the columns of a table hold.**

A column of texts holds texts, a column of dates the texts of dates, and a column of booleans the
integers `0` and `1`.  A column of numbers holds integers and reals.  What a field value is stored
as is always of this form, and a value is read back as it was, but for the sign of zero.

An integer may be held that is not a number of the binary64 format.  It is read as the number next
to it, and then it does not compare like the number that was read.

Main definitions:

* `CoachLedger.Sql.Cell.Suits` — a column of a kind may hold the cell;
* `CoachLedger.Sql.Cell.IsExact` — the cell is read as the number that it holds;
* `CoachLedger.Value.unsignedZero` — a value as it is read back.

Main results:

* `CoachLedger.Sql.Cell.suits_cellFor` — a value of a kind is stored as what the column may hold;
* `CoachLedger.Sql.Cell.toValue_cellFor_unsignedZero` — a value is read back;
* `CoachLedger.Sql.Cell.compare_ofNumber` — an exact cell compares with a number as the number that
  is read from it.
-/

import CoachLedger.Proofs.Binary64.Exact
import CoachLedger.Proofs.Calendar.RoundTrip
import CoachLedger.Store.Table

set_option autoImplicit false

namespace CoachLedger

/-- The value with zero without a sign. -/
def Value.unsignedZero : Value → Value
  | number x => number x.unsignedZero
  | v => v

namespace Sql.Cell

/-- A column of the kind may hold the cell. -/
inductive Suits : Kind → Cell → Prop
  | null (k : Kind) : Suits k .null
  | text (s : String) : Suits .text (.text s)
  | integer (i : Int) : Suits .number (.integer i)
  /-- A real that could be held as an integer is not left as a real. -/
  | real (negative : Bool) (rank : Fin (Binary64.topRank + 1))
      (h : settle .numeric (.real negative rank) = .real negative rank) :
      Suits .number (.real negative rank)
  | date (d : Date) : Suits .date (.text d.text)
  | boolean (b : Bool) : Suits .boolean (.integer (if b then 1 else 0))

/-- The cell is read as the number that it holds. -/
def IsExact : Cell → Prop
  | integer i => Binary64.IsExact i
  | _ => True

/-! ### Storing a value -/

theorem ofNumber_ne_text (x : Binary64) (s : String) : ofNumber x ≠ text s := by
  cases x <;> simp [ofNumber]

theorem towards_ofNumber (x : Binary64) : (ofNumber x).towards .numeric = ofNumber x := by
  cases x <;> rfl

/-- A number is stored as null, as an integer that is a number, or as a real that is left alone. -/
theorem settle_ofNumber (x : Binary64) :
    Suits .number (settle .numeric (ofNumber x)) ∧ IsExact (settle .numeric (ofNumber x)) := by
  cases x with
  | nan => exact ⟨.null _, trivial⟩
  | signed negative rank le =>
      obtain ⟨r, hr⟩ : ∃ r : Fin (Binary64.topRank + 1), r = ⟨rank, Nat.lt_succ_of_le le⟩ :=
        ⟨_, rfl⟩
      have hof : ofNumber (.signed negative rank le) = real negative r := by rw [hr]; rfl
      rw [hof]
      cases hi : (Binary64.signed negative r r.is_le).integer? with
      | none =>
          have hs : settle .numeric (real negative r) = real negative r := by
            simp only [settle, hi]
          rw [hs]
          exact ⟨.real _ _ hs, trivial⟩
      | some i =>
          -- A whole number becomes an integer only inside of the range of the engine.
          by_cases hb : minInteger < i ∧ i < maxInteger
          · have hs : settle .numeric (real negative r) = integer i := by
              simp only [settle, hi, if_pos hb]
            rw [hs]
            exact ⟨.integer i, _, hi⟩
          · have hs : settle .numeric (real negative r) = real negative r := by
              simp only [settle, hi, if_neg hb]
            rw [hs]
            exact ⟨.real _ _ hs, trivial⟩

/-- **A value of a kind is stored as what the column may hold.** -/
theorem suits_cellFor {k : Kind} {v : Value} (h : v.Fits k) : Suits k (Store.cellFor k v) := by
  cases v with
  | null =>
      have hnull : Store.cellFor k .null = null := by cases k <;> rfl
      rw [hnull]
      exact .null k
  | text s =>
      obtain rfl : Kind.text = k := h _ rfl
      exact .text s
  | number x =>
      obtain rfl : Kind.number = k := h _ rfl
      unfold Store.cellFor ofValue stored
      dsimp only
      split
      · exact .integer _
      · rw [Affinity.ofKind, towards_ofNumber]
        exact (settle_ofNumber x).1
  | date d =>
      obtain rfl : Kind.date = k := h _ rfl
      exact .date d
  | boolean b =>
      obtain rfl : Kind.boolean = k := h _ rfl
      exact .boolean b

/-! ### Reading a value -/

@[simp] theorem toValue_null (k : Kind) : null.toValue k = .null := by
  cases k <;> rfl

@[simp] theorem toValue_text (s : String) : (text s).toValue .text = .text s := rfl

@[simp] theorem toValue_integer (i : Int) :
    (integer i).toValue .number = .number (.ofInt i) := rfl

@[simp] theorem toValue_real (negative : Bool) (rank : Fin (Binary64.topRank + 1)) :
    (real negative rank).toValue .number = .number (.signed negative rank rank.is_le) := rfl

@[simp] theorem toValue_date (d : Date) : (text d.text).toValue .date = .date d := by
  simp [toValue, Date.read?_text]

@[simp] theorem toValue_boolean (b : Bool) :
    (integer (if b then 1 else 0)).toValue .boolean = .boolean b := by
  cases b <;> rfl

/-- A value that is read from a column is null exactly if the cell is, and else of the kind. -/
theorem kind?_toValue {k : Kind} {c : Cell} (h : Suits k c) (hn : c ≠ null) :
    (c.toValue k).kind? = some k := by
  cases h with
  | null => exact absurd rfl hn
  | text s => rfl
  | integer i => rfl
  | real negative rank h => rfl
  | date d => rw [toValue_date]; rfl
  | boolean b => rw [toValue_boolean]; rfl

/-- A number is kept as the integer that it is, or as the real that it is unless it is zero. -/
theorem cellFor_number (x : Binary64) :
    (∃ i, x.integer? = some i ∧ Store.cellFor .number (.number x) = integer i) ∨
      (x.isZero = false ∧ Store.cellFor .number (.number x) = ofNumber x) := by
  unfold Store.cellFor ofValue stored
  dsimp only
  split
  · rename_i i hi
    exact .inl ⟨i, (Option.filter_eq_some_iff.1 hi).1, rfl⟩
  · rename_i hnone
    -- Zero is an integer in the range where all integers are exact.
    have hz : x.isZero = false := by
      rw [← Bool.not_eq_true]
      intro hz
      rw [Binary64.exactInteger?, Binary64.integer?_of_isZero hz] at hnone
      cases hnone
    rw [Affinity.ofKind, towards_ofNumber]
    cases x with
    | nan => exact .inr ⟨hz, rfl⟩
    | signed negative rank le =>
        cases hi : (Binary64.signed negative rank le).integer? with
        | none =>
            refine .inr ⟨hz, ?_⟩
            simp only [ofNumber, settle, hi]
        | some i =>
            by_cases hb : minInteger < i ∧ i < maxInteger
            · refine .inl ⟨i, rfl, ?_⟩
              simp only [ofNumber, settle, hi, if_pos hb]
            · refine .inr ⟨hz, ?_⟩
              simp only [ofNumber, settle, hi, if_neg hb]

/-- **A value is read back as it was**, but for the sign of zero. -/
theorem toValue_cellFor_unsignedZero {k : Kind} {v : Value} (h : v.Fits k)
    (hv : v ≠ .number .nan) : (Store.cellFor k v).toValue k = v.unsignedZero := by
  cases v with
  | number x =>
      obtain rfl : Kind.number = k := h _ rfl
      rw [Value.unsignedZero]
      rcases cellFor_number x with ⟨i, hi, hcell⟩ | ⟨hz, hcell⟩
      · rw [hcell, toValue_integer, Binary64.ofInt_eq_unsignedZero hi]
      · rw [hcell, Binary64.unsignedZero_of_not_isZero hz]
        cases x with
        | nan => exact absurd rfl hv
        | signed negative rank le => rfl
  | null => cases k <;> rfl
  | text s =>
      obtain rfl : Kind.text = k := h _ rfl
      rfl
  | date d =>
      obtain rfl : Kind.date = k := h _ rfl
      exact toValue_date d
  | boolean b =>
      obtain rfl : Kind.boolean = k := h _ rfl
      exact toValue_boolean b

/-- **A value that is no number is read back as it was.** -/
theorem toValue_cellFor {k : Kind} {v : Value} (h : v.Fits k) (hk : k ≠ .number) :
    (Store.cellFor k v).toValue k = v := by
  have hv : ∀ x, v ≠ .number x := by
    rintro x rfl
    exact hk (h _ rfl).symm
  rw [toValue_cellFor_unsignedZero h (hv _)]
  cases v with
  | number x => exact absurd rfl (hv x)
  | _ => rfl

/-! ### Numbers compare by their exact values -/

/-- The cell is a number. -/
def IsNumber : Cell → Prop
  | integer _ | real .. => True
  | _ => False

theorem scaled_ofNumber (x : Binary64) : (ofNumber x).scaled = x.inUnits? := by
  cases x <;> rfl

theorem scaled_ofValue (x : Binary64) : (ofValue (.number x)).scaled = x.inUnits? := by
  unfold ofValue
  dsimp only
  split
  · rename_i i hi
    exact (Binary64.inUnits?_of_integer? (Option.filter_eq_some_iff.1 hi).1).symm
  · exact scaled_ofNumber x

theorem ofValue_number_ne_text (x : Binary64) (s : String) : ofValue (.number x) ≠ text s := by
  unfold ofValue
  dsimp only
  split
  · exact fun h => by cases h
  · exact ofNumber_ne_text x s

/-- A number compares with what is no text by the exact values. -/
theorem compare_of_isNumber {a b : Cell} (ha : a.IsNumber) (hb : ∀ s, b ≠ text s) :
    a.compare b = a.scaled.bind fun x => b.scaled.map fun y => Ord.compare x y := by
  cases a with
  | null => exact ha.elim
  | text s => exact ha.elim
  | integer i =>
      cases b with
      | text s => exact absurd rfl (hb s)
      | _ => rfl
  | real negative rank =>
      cases b with
      | text s => exact absurd rfl (hb s)
      | _ => rfl

/-- The exact value of an exact cell is that of the number read from it. -/
theorem scaled_of_isExact {c : Cell} {x : Binary64} (he : c.IsExact)
    (hx : c.toValue .number = .number x) : c.scaled = x.inUnits? := by
  cases c with
  | null => cases hx
  | text s => cases hx
  | integer i =>
      obtain rfl : Binary64.ofInt i = x := by simpa using hx
      rw [Binary64.inUnits?_ofInt he]
      rfl
  | real negative rank =>
      obtain rfl : Binary64.signed negative rank rank.is_le = x := by simpa using hx
      rfl

theorem isNumber_of_toValue {c : Cell} {x : Binary64} (hx : c.toValue .number = .number x) :
    c.IsNumber := by
  cases c with
  | null => cases hx
  | text s => cases hx
  | _ => exact trivial

/-- **An exact cell compares with a number as the number that is read from it.** -/
theorem compare_ofNumber {c : Cell} {x : Binary64} (he : c.IsExact)
    (hx : c.toValue .number = .number x) (y : Binary64) :
    c.compare (ofValue (.number y)) = x.compare y := by
  rw [compare_of_isNumber (isNumber_of_toValue hx) (ofValue_number_ne_text y), scaled_ofValue,
    scaled_of_isExact he hx, Binary64.compare_eq_exact]

end Sql.Cell

end CoachLedger
