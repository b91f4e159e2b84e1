/-
**The order of values.**

Two values compare in either direction, and the two answers are the reverse of each other, whatever
the kinds are: a text is read as a number or as a date on whichever side it stands.  Equality is
symmetric too, and says what the order says where there is one.

Values of one kind are in a total order, in which only the two zeros are equal and yet different.
Not-a-number is left out, since it does not even compare with itself.

Main definitions:

* `CoachLedger.Value.IsOrdered` — a value of a kind that has a place in the order of the kind;
* `CoachLedger.Value.IsSame` — equal values, the signs of zeros apart;
* `CoachLedger.Orders` — a comparison is a total order of what has a property.

Main results:

* `CoachLedger.Value.compare_swap` — **swapping the values reverses the order**;
* `CoachLedger.Value.exactEq_comm` — **equality is symmetric**;
* `CoachLedger.Value.orders_compare` — **the values of a kind are in a total order**.
-/

import CoachLedger.Proofs.Calendar.TextOrder
import CoachLedger.Value.Compare

set_option autoImplicit false

namespace CoachLedger

/-! ### Total orders -/

/-- **The comparison is a total order of what has the property**: any two compare, in both
directions alike, only the same ones as equal, and what is at most as great as another is so with
what is at least as great as that one. -/
structure Orders {α : Type} (cmp : α → α → Option Ordering) (p : α → Prop)
    (same : α → α → Prop) : Prop where
  compares {a b : α} : p a → p b → ∃ o, cmp a b = some o
  swaps {a b : α} : p a → p b → cmp b a = (cmp a b).map Ordering.swap
  eq_iff {a b : α} : p a → p b → (cmp a b = some .eq ↔ same a b)
  trans {a b c : α} {o o' : Ordering} : p a → p b → p c → cmp a b = some o → o.isLE = true →
    cmp b c = some o' → o'.isLE = true → ∃ o'', cmp a c = some o'' ∧ o''.isLE = true

namespace Orders

variable {α β : Type} {cmp : α → α → Option Ordering} {p : α → Prop} {same : α → α → Prop}

/-- What is compared by a part that is in a total order is in a total order. -/
theorem comap (h : Orders cmp p same) (f : β → α) :
    Orders (fun a b => cmp (f a) (f b)) (fun a => p (f a)) (fun a b => same (f a) (f b)) where
  compares ha hb := h.compares ha hb
  swaps ha hb := h.swaps ha hb
  eq_iff ha hb := h.eq_iff ha hb
  trans ha hb hc hab ho hbc ho' := h.trans ha hb hc hab ho hbc ho'

end Orders

/-! ### Numbers -/

namespace Binary64

variable {x y : Binary64}

theorem exists_key (h : x ≠ nan) : ∃ i, x.key = some i := by
  cases x with
  | nan => exact absurd rfl h
  | signed negative rank le => exact ⟨_, rfl⟩

/-- Numbers with one place in the order are equal, or both are zero. -/
theorem key_eq_iff (hx : x ≠ nan) : x.key = y.key ↔ x = y ∨ x.isZero = true ∧ y.isZero = true := by
  cases x with
  | nan => exact absurd rfl hx
  | signed negative rank le =>
      cases y with
      | nan => simp [key, isZero]
      | signed negative' rank' le' =>
          cases negative <;> cases negative' <;> simp [key, isZero] <;> omega

/-- Numbers compare as their places do. -/
theorem compare_of_key {i j : Int} (hx : x.key = some i) (hy : y.key = some j) :
    x.compare y = some (Ord.compare i j) := by
  rw [compare, hx, hy]

theorem compare_eq_some_eq (hx : x ≠ nan) (hy : y ≠ nan) :
    x.compare y = some .eq ↔ x = y ∨ x.isZero = true ∧ y.isZero = true := by
  obtain ⟨i, hi⟩ := exists_key hx
  obtain ⟨j, hj⟩ := exists_key hy
  rw [compare_of_key hi hj, ← key_eq_iff hx, hi, hj, Option.some.injEq, Option.some.injEq,
    Int.compare_eq_eq]

end Binary64

/-! ### Dates, texts and booleans -/

instance : Std.TransCmp Date.compare :=
  inferInstanceAs (Std.TransCmp (compareLex (compareOn Date.year)
    (compareLex (compareOn Date.month) (compareOn Date.day))))

instance : Std.TransCmp Text.order :=
  inferInstanceAs (Std.TransCmp (Ord.compare : String → String → Ordering))

namespace Value

/-- Booleans are ordered as they are in the library. -/
theorem orderBooleans_eq (a b : Bool) : orderBooleans a b = Ord.compare a b := by
  cases a <;> cases b <;> rfl

theorem orderBooleans_swap (a b : Bool) : (orderBooleans a b).swap = orderBooleans b a := by
  cases a <;> cases b <;> rfl

theorem orderBooleans_eq_eq {a b : Bool} : orderBooleans a b = .eq ↔ a = b := by
  cases a <;> cases b <;> decide

instance : Std.TransCmp orderBooleans := by
  have h : orderBooleans = Ord.compare := by
    funext a b
    exact orderBooleans_eq a b
  rw [h]
  infer_instance

/-! ### Both directions -/

/-- **Swapping the values reverses the order.** -/
theorem compare_swap (a b : Value) : (a.compare b).map Ordering.swap = b.compare a := by
  cases a with
  | null => cases b <;> rfl
  | text s =>
      cases b with
      | text t => exact congrArg some (Text.order_swap s t)
      | number y =>
          simp only [compare]
          cases readNumber? s with
          | none => rfl
          | some x => exact Binary64.compare_swap x y
      | date d =>
          simp only [compare]
          cases Date.read? s with
          | none => rfl
          | some e => exact congrArg some (Date.compare_swap e d)
      | _ => rfl
  | number x =>
      cases b with
      | text t =>
          simp only [compare]
          cases readNumber? t with
          | none => rfl
          | some y => exact Binary64.compare_swap x y
      | number y => exact Binary64.compare_swap x y
      | _ => rfl
  | date d =>
      cases b with
      | text t =>
          simp only [compare]
          cases Date.read? t with
          | none => rfl
          | some e => exact congrArg some (Date.compare_swap d e)
      | date e => exact congrArg some (Date.compare_swap d e)
      | _ => rfl
  | boolean a =>
      cases b with
      | boolean b => exact congrArg some (orderBooleans_swap a b)
      | _ => rfl

/-- Two values compare in both directions or in none. -/
theorem compare_eq_none_comm (a b : Value) : a.compare b = none ↔ b.compare a = none := by
  rw [← compare_swap a b, Option.map_eq_none_iff]

theorem isNull_iff {v : Value} : v.isNull = true ↔ v = .null := by
  cases v <;> simp [isNull]

/-- Equality is unknown only if one of the values is null. -/
theorem exactEq_eq_none_iff {a b : Value} : a.exactEq b = none ↔ a = .null ∨ b = .null := by
  rw [← Option.isNone_iff_eq_none, ← Option.not_isSome, exactEq_isSome, ← isNull_iff, ← isNull_iff]
  cases a.isNull <;> cases b.isNull <;> simp

/-- Null compares with nothing. -/
theorem ne_null_of_compare {a b : Value} {o : Ordering} (h : a.compare b = some o) :
    a.isNull = false ∧ b.isNull = false := by
  cases a <;> cases b <;> first | exact ⟨rfl, rfl⟩ | cases h

/-- Where there is an order, equality says what it says. -/
theorem exactEq_of_compare {a b : Value} {o : Ordering} (h : a.compare b = some o) :
    a.exactEq b = some (o == .eq) := by
  obtain ⟨ha, hb⟩ := ne_null_of_compare h
  rw [exactEq, ha, hb, h]
  rfl

/-- **Equality is symmetric.** -/
theorem exactEq_comm (a b : Value) : a.exactEq b = b.exactEq a := by
  cases h : a.compare b with
  | some o =>
      have hswap : b.compare a = some o.swap := by rw [← compare_swap a b, h]; rfl
      rw [exactEq_of_compare h, exactEq_of_compare hswap]
      cases o <;> rfl
  | none =>
      rw [exactEq, exactEq, h, (compare_eq_none_comm a b).1 h, Bool.or_comm, BEq.comm (a := a.text?)]

/-! ### The values of a kind -/

/-- The value has a place in the order of the kind. -/
inductive IsOrdered : Kind → Value → Prop
  | text (s : String) : IsOrdered .text (.text s)
  | number {x : Binary64} (h : x ≠ .nan) : IsOrdered .number (.number x)
  | date (d : Date) : IsOrdered .date (.date d)
  | boolean (b : Bool) : IsOrdered .boolean (.boolean b)

/-- These are the values of the kind but not-a-number. -/
theorem isOrdered_iff {k : Kind} {v : Value} :
    IsOrdered k v ↔ v.kind? = some k ∧ v ≠ .number .nan := by
  constructor
  · intro h
    cases h with
    | number h => exact ⟨rfl, fun hv => h (Value.number.inj hv)⟩
    | _ => exact ⟨rfl, by simp⟩
  · rintro ⟨hk, hv⟩
    cases v with
    | null => cases hk
    | number x =>
        obtain rfl := Option.some.inj hk
        exact .number fun hx => hv (congrArg Value.number hx)
    | text s =>
        obtain rfl := Option.some.inj hk
        exact .text s
    | date d =>
        obtain rfl := Option.some.inj hk
        exact .date d
    | boolean b =>
        obtain rfl := Option.some.inj hk
        exact .boolean b

/-- The values are equal, or both are zero. -/
def IsSame : Value → Value → Prop
  | number x, number y => x = y ∨ x.isZero = true ∧ y.isZero = true
  | a, b => a = b

/-- **The values of a kind are in a total order.** -/
theorem orders_compare (k : Kind) : Orders compare (IsOrdered k) IsSame where
  compares ha hb := by
    cases ha with
    | number hx =>
        cases hb with
        | number hy =>
            obtain ⟨i, hi⟩ := Binary64.exists_key hx
            obtain ⟨j, hj⟩ := Binary64.exists_key hy
            exact ⟨_, Binary64.compare_of_key hi hj⟩
    | _ => cases hb; exact ⟨_, rfl⟩
  swaps {a b} _ _ := (compare_swap a b).symm
  eq_iff ha hb := by
    cases ha with
    | text s =>
        cases hb with
        | text t => simp [compare, IsSame]
    | number hx =>
        cases hb with
        | number hy => exact Binary64.compare_eq_some_eq hx hy
    | date d =>
        cases hb with
        | date e =>
            simp only [compare, IsSame, Option.some.injEq, date.injEq]
            exact ⟨Date.eq_of_compare_eq, fun h => h ▸ Date.compare_self d⟩
    | boolean a =>
        cases hb with
        | boolean b => simp [compare, IsSame, orderBooleans_eq_eq]
  trans ha hb hc hab ho hbc ho' := by
    cases ha with
    | text s =>
        cases hb; cases hc
        obtain rfl := Option.some.inj hab
        obtain rfl := Option.some.inj hbc
        exact ⟨_, rfl, Std.TransCmp.isLE_trans ho ho'⟩
    | number hx =>
        cases hb with
        | number hy =>
            cases hc with
            | number hz =>
                obtain ⟨i, hi⟩ := Binary64.exists_key hx
                obtain ⟨j, hj⟩ := Binary64.exists_key hy
                obtain ⟨l, hl⟩ := Binary64.exists_key hz
                obtain rfl := Option.some.inj ((Binary64.compare_of_key hi hj).symm.trans hab)
                obtain rfl := Option.some.inj ((Binary64.compare_of_key hj hl).symm.trans hbc)
                exact ⟨_, Binary64.compare_of_key hi hl, Std.TransCmp.isLE_trans ho ho'⟩
    | date d =>
        cases hb; cases hc
        obtain rfl := Option.some.inj hab
        obtain rfl := Option.some.inj hbc
        exact ⟨_, rfl, Std.TransCmp.isLE_trans ho ho'⟩
    | boolean a =>
        cases hb; cases hc
        obtain rfl := Option.some.inj hab
        obtain rfl := Option.some.inj hbc
        exact ⟨_, rfl, Std.TransCmp.isLE_trans ho ho'⟩

end Value

end CoachLedger
