/-
**Equal values and equal canonical texts.**

There are two ways to compare JSON values: item by item and name by name, numbers being compared as
numbers, and by the values with all members sorted, which is what canonical texts are made of.  The
two agree on everything but the sign of a zero, which the numbers do not show and the texts do.

Main definitions:

* `CoachLedger.Json.WellFormed` — a value whose objects have different names, and all of whose
  numbers are allowed;
* `CoachLedger.Json.IsProper` — a value that can be written;
* `CoachLedger.Json.HasZeroSign` — a value all of whose zeros have one sign.

Main results:

* `CoachLedger.Json.same_object_iff` — objects are compared name by name;
* `CoachLedger.Json.sorted_object_iff` — so are their sorted members;
* `CoachLedger.Json.same_of_sorted_eq` — values with the same sorted members are equal;
* `CoachLedger.Json.sorted_eq_of_same` — **equal values have the same sorted members**, if equal
  numbers in them are the same;
* `CoachLedger.Json.canonical_eq_of_same` — so they have the same canonical text if all zeros in
  them have the same sign.
-/

import CoachLedger.Json.Canonical
import CoachLedger.Proofs.Binary64.Exact
import CoachLedger.Proofs.Json.Scalar
import CoachLedger.Proofs.Text.Order
import Mathlib.Data.List.Perm.Subperm
import Mathlib.Data.Option.Defs

set_option autoImplicit false

namespace CoachLedger

theorem Binary64.same_comm (x y : Binary64) : x.same y = y.same x := by
  rw [same, same, ← compare_swap x y]
  rcases x.compare y with _ | (_ | _ | _) <;> rfl

namespace Json

/-! ### Well-formed values -/

/-- The names in each object of the value differ, and each of its numbers is an allowed one. -/
inductive WellFormed (allowed : Numeral → Prop) : Json → Prop
  | null : WellFormed allowed .null
  | bool (b : Bool) : WellFormed allowed (.bool b)
  | number {n : Numeral} (h : allowed n) : WellFormed allowed (.number n)
  | string (s : String) : WellFormed allowed (.string s)
  | array {items : List Json} (h : ∀ v ∈ items, WellFormed allowed v) :
      WellFormed allowed (.array items)
  | object {members : List (String × Json)} (names : (members.map Prod.fst).Nodup)
      (h : ∀ m ∈ members, WellFormed allowed m.2) : WellFormed allowed (.object members)

/-- The numeral is no zero of the other sign. -/
def Numeral.HasZeroSign (negative : Bool) : Numeral → Prop
  | .float (.signed p rank _) => rank = 0 → p = negative
  | _ => True

/-- The value can be written: the names in each object differ, and the numbers are finite. -/
abbrev IsProper (v : Json) : Prop :=
  v.WellFormed Numeral.IsProper

/-- The value can be written, and all zeros in it have the given sign. -/
abbrev HasZeroSign (negative : Bool) (v : Json) : Prop :=
  v.WellFormed fun n => n.IsProper ∧ n.HasZeroSign negative

section

variable {allowed : Numeral → Prop} {xs : List Json} {ms ns : List (String × Json)}
  {name : String} {v w : Json}

theorem wellFormed_array_iff :
    WellFormed allowed (array xs) ↔ ∀ v ∈ xs, WellFormed allowed v :=
  ⟨fun h => by cases h with | array h => exact h, .array⟩

theorem wellFormed_object_iff :
    WellFormed allowed (object ms) ↔
      (ms.map Prod.fst).Nodup ∧ ∀ m ∈ ms, WellFormed allowed m.2 :=
  ⟨fun h => by cases h with | object names h => exact ⟨names, h⟩, fun h => .object h.1 h.2⟩

theorem WellFormed.mono {other : Numeral → Prop} (hmono : ∀ n, allowed n → other n)
    (h : WellFormed allowed v) : WellFormed other v := by
  induction h with
  | null => exact .null
  | bool b => exact .bool b
  | number h => exact .number (hmono _ h)
  | string s => exact .string s
  | array h ih => exact .array ih
  | object names h ih => exact .object names ih

/-! ### Members by name -/

theorem mem_of_member? (h : member? ms name = some v) : (name, v) ∈ ms := by
  obtain ⟨before, after, rfl, -⟩ := List.lookup_eq_some_iff.1 h
  exact List.mem_append_right before (List.mem_cons_self ..)

/-- If the names differ, a member is found by its name. -/
theorem member?_eq_some (hnames : (ms.map Prod.fst).Nodup) :
    member? ms name = some v ↔ (name, v) ∈ ms := by
  refine ⟨mem_of_member?, fun hmem => ?_⟩
  obtain ⟨before, after, rfl⟩ := List.append_of_mem hmem
  refine List.lookup_eq_some_iff.2 ⟨before, after, rfl, fun m hm => ?_⟩
  rw [List.map_append, List.map_cons, List.nodup_append] at hnames
  exact bne_iff_ne.2 (hnames.2.2 m.1 (List.mem_map_of_mem hm) name (List.mem_cons_self ..)).symm

theorem member?_eq_none : member? ms name = none ↔ name ∉ ms.map Prod.fst := by
  rw [member?, List.lookup_eq_none_iff, List.mem_map, not_exists]
  refine forall_congr' fun m => ?_
  rw [bne_iff_ne, not_and, ne_comm]

/-! ### Equality -/

theorem sameItems_iff {ys : List Json} :
    sameItems xs ys = true ↔ List.Forall₂ (fun x y => same x y = true) xs ys := by
  induction xs generalizing ys with
  | nil => cases ys <;> simp [sameItems]
  | cons x xs ih => cases ys <;> simp [sameItems, ih]

theorem sameMembers_iff :
    sameMembers ms ns = true ↔ ∀ m ∈ ms, ∃ w, member? ns m.1 = some w ∧ m.2.same w = true := by
  induction ms with
  | nil => simp [sameMembers]
  | cons m ms ih =>
      obtain ⟨k, v⟩ := m
      rw [sameMembers, Bool.and_eq_true, ih, List.forall_mem_cons]
      refine and_congr_left fun _ => ?_
      cases member? ns k with
      | none => simp
      | some w => simp

/-- **Objects are equal if they have the same names, with equal values.** -/
theorem same_object_iff (hms : (ms.map Prod.fst).Nodup) (hns : (ns.map Prod.fst).Nodup) :
    same (object ms) (object ns) = true ↔ ∀ name,
      (member? ms name = none → member? ns name = none) ∧
      ∀ v, member? ms name = some v → ∃ w, member? ns name = some w ∧ v.same w = true := by
  rw [same, Bool.and_eq_true, beq_iff_eq, sameMembers_iff]
  constructor
  · rintro ⟨hlength, hmembers⟩ name
    -- Names that differ and are as many as those among which they are found are all of them.
    have hsub : ms.map Prod.fst ⊆ ns.map Prod.fst := by
      intro k hk
      obtain ⟨m, hm, rfl⟩ := List.mem_map.1 hk
      obtain ⟨w, hw, -⟩ := hmembers m hm
      exact List.mem_map.2 ⟨_, mem_of_member? hw, rfl⟩
    have hperm := (List.subperm_of_subset hms hsub).perm_of_length_le
      (by rw [List.length_map, List.length_map, hlength])
    refine ⟨fun hnone => ?_, fun v hv => hmembers _ (mem_of_member? hv)⟩
    exact member?_eq_none.2 fun hmem => member?_eq_none.1 hnone (hperm.symm.subset hmem)
  · intro h
    have hperm : (ms.map Prod.fst).Perm (ns.map Prod.fst) := by
      refine (List.perm_ext_iff_of_nodup hms hns).2 fun name => not_iff_not.1 ?_
      rw [← member?_eq_none, ← member?_eq_none]
      refine ⟨(h name).1, fun hnone => ?_⟩
      by_contra hsome
      obtain ⟨v, hv⟩ := Option.ne_none_iff_exists'.1 hsome
      obtain ⟨w, hw, -⟩ := (h name).2 v hv
      rw [hnone] at hw
      cases hw
    refine ⟨by simpa using hperm.length_eq, fun m hm => ?_⟩
    exact (h m.1).2 m.2 ((member?_eq_some hms).2 hm)

/-! ### Sorted members -/

theorem sortedItems_eq (xs : List Json) : sortedItems xs = xs.map sorted := by
  induction xs with
  | nil => rfl
  | cons x xs ih => rw [sortedItems, ih, List.map_cons]

theorem sortedMembers_eq (ms : List (String × Json)) :
    sortedMembers ms = ms.map fun m => (m.1, m.2.sorted) := by
  induction ms with
  | nil => rfl
  | cons m ms ih => rw [sortedMembers, ih, List.map_cons]

theorem names_sortedMembers (ms : List (String × Json)) :
    (sortedMembers ms).map Prod.fst = ms.map Prod.fst := by
  rw [sortedMembers_eq, List.map_map]
  rfl

theorem member?_sortedMembers (ms : List (String × Json)) (name : String) :
    member? (sortedMembers ms) name = (member? ms name).map sorted := by
  induction ms with
  | nil => rfl
  | cons m ms ih =>
      obtain ⟨k, v⟩ := m
      rw [member?, member?, sortedMembers, List.lookup_cons, List.lookup_cons]
      cases name == k with
      | true => rfl
      | false => exact ih

theorem nameLE_iff {a b : String × Json} : nameLE a b = true ↔ a.1 ≤ b.1 :=
  Text.order_isLE_iff

/-- Members with different names are sorted in one way only. -/
theorem mergeSort_eq_of_perm (hnames : (ms.map Prod.fst).Nodup) (hperm : ms.Perm ns) :
    ms.mergeSort nameLE = ns.mergeSort nameLE := by
  have hpairwise (l : List (String × Json)) :
      (l.mergeSort nameLE).Pairwise fun a b => nameLE a b = true := by
    refine List.pairwise_mergeSort (fun a b c hab hbc => ?_) (fun a b => ?_) l
    · rw [nameLE_iff] at *
      exact String.le_trans hab hbc
    · rw [Bool.or_eq_true, nameLE_iff, nameLE_iff]
      exact String.le_total a.1 b.1
  refine List.Perm.eq_of_pairwise (fun a b ha hb hab hba => ?_) (hpairwise ms) (hpairwise ns)
    ((List.mergeSort_perm ms _).trans (hperm.trans (List.mergeSort_perm ns _).symm))
  have hb' : b ∈ ms := hperm.symm.subset (List.mem_mergeSort.1 hb)
  exact List.inj_on_of_nodup_map hnames (List.mem_mergeSort.1 ha) hb'
    (String.le_antisymm (nameLE_iff.1 hab) (nameLE_iff.1 hba))

/-- Objects have the same sorted members if these are the same up to order. -/
theorem sorted_object_iff_perm (hms : (ms.map Prod.fst).Nodup) :
    sorted (object ms) = sorted (object ns) ↔ (sortedMembers ms).Perm (sortedMembers ns) := by
  have hms' : ((sortedMembers ms).map Prod.fst).Nodup := (names_sortedMembers ms).symm ▸ hms
  rw [sorted, sorted, Json.object.injEq]
  refine ⟨fun h => ?_, mergeSort_eq_of_perm hms'⟩
  have hsorted := List.mergeSort_perm (sortedMembers ms) nameLE
  rw [h] at hsorted
  exact hsorted.symm.trans (List.mergeSort_perm ..)

/-- **Objects have the same sorted members if they have the same names, with values of which this
is true.** -/
theorem sorted_object_iff (hms : (ms.map Prod.fst).Nodup) (hns : (ns.map Prod.fst).Nodup) :
    sorted (object ms) = sorted (object ns) ↔
      ∀ name, (member? ms name).map sorted = (member? ns name).map sorted := by
  have hms' : ((sortedMembers ms).map Prod.fst).Nodup := (names_sortedMembers ms).symm ▸ hms
  have hns' : ((sortedMembers ns).map Prod.fst).Nodup := (names_sortedMembers ns).symm ▸ hns
  rw [sorted_object_iff_perm hms, List.perm_ext_iff_of_nodup (List.Nodup.of_map _ hms')
    (List.Nodup.of_map _ hns')]
  constructor
  · intro h name
    rw [← member?_sortedMembers, ← member?_sortedMembers]
    refine Option.ext fun v => ?_
    exact (member?_eq_some hms').trans ((h (name, v)).trans (member?_eq_some hns').symm)
  · rintro h ⟨name, v⟩
    rw [← member?_eq_some hms', ← member?_eq_some hns', member?_sortedMembers,
      member?_sortedMembers, h name]

theorem sorted_array_iff {ys : List Json} :
    sorted (array xs) = sorted (array ys) ↔
      List.Forall₂ (fun x y => sorted x = sorted y) xs ys := by
  rw [sorted, sorted, Json.array.injEq, sortedItems_eq, sortedItems_eq, ← List.forall₂_eq_eq_eq,
    List.forall₂_map_left_iff, List.forall₂_map_right_iff]

/-! ### The two ways to compare -/

/-- **Values with the same sorted members are equal**, if each number in them equals itself. -/
theorem same_of_sorted_eq (hself : ∀ n, allowed n → n.same n = true) (hv : WellFormed allowed v)
    (hw : WellFormed allowed w) (h : v.sorted = w.sorted) : v.same w = true := by
  induction hv generalizing w with
  | null => cases hw <;> first | rfl | cases h
  | bool b =>
      cases hw with
      | bool c =>
          obtain rfl := Json.bool.inj h
          exact beq_self_eq_true b
      | _ => cases h
  | number hn =>
      cases hw with
      | number _ =>
          obtain rfl := Json.number.inj h
          exact hself _ hn
      | _ => cases h
  | string s =>
      cases hw with
      | string t =>
          obtain rfl := Json.string.inj h
          exact beq_self_eq_true s
      | _ => cases h
  | array hxs ih =>
      cases hw with
      | array hys =>
          rw [sorted_array_iff, List.forall₂_iff_zip] at h
          rw [same, sameItems_iff, List.forall₂_iff_zip]
          refine ⟨h.1, fun {x y} hmem => ?_⟩
          obtain ⟨hx, hy⟩ := List.of_mem_zip hmem
          exact ih x hx (hys y hy) (h.2 hmem)
      | _ => cases h
  | object hms hmembers ih =>
      cases hw with
      | object hns hmembers' =>
          rw [sorted_object_iff hms hns] at h
          rw [same_object_iff hms hns]
          intro name
          have hname := h name
          refine ⟨fun hnone => ?_, fun v hv => ?_⟩
          · rw [hnone, Option.map_none, eq_comm, Option.map_eq_none_iff] at hname
            exact hname
          · rw [hv, Option.map_some, eq_comm, Option.map_eq_some_iff] at hname
            obtain ⟨w, hw, hsorted⟩ := hname
            exact ⟨w, hw, ih _ (mem_of_member? hv) (hmembers' _ (mem_of_member? hw)) hsorted.symm⟩
      | _ => cases h

/-- **Equal values have the same sorted members**, if equal numbers in them are the same. -/
theorem sorted_eq_of_same (hinj : ∀ m n, allowed m → allowed n → m.same n = true → m = n)
    (hv : WellFormed allowed v) (hw : WellFormed allowed w) (h : v.same w = true) :
    v.sorted = w.sorted := by
  induction hv generalizing w with
  | null => cases hw <;> first | rfl | cases h
  | bool b =>
      cases hw with
      | bool c => rw [beq_iff_eq.1 h]
      | _ => cases h
  | number hm =>
      cases hw with
      | number hn => rw [hinj _ _ hm hn h]
      | _ => cases h
  | string s =>
      cases hw with
      | string t => rw [beq_iff_eq.1 h]
      | _ => cases h
  | array hxs ih =>
      cases hw with
      | array hys =>
          rw [same, sameItems_iff, List.forall₂_iff_zip] at h
          rw [sorted_array_iff, List.forall₂_iff_zip]
          refine ⟨h.1, fun {x y} hmem => ?_⟩
          obtain ⟨hx, hy⟩ := List.of_mem_zip hmem
          exact ih x hx (hys y hy) (h.2 hmem)
      | _ => cases h
  | object hms hmembers ih =>
      cases hw with
      | object hns hmembers' =>
          rw [same_object_iff hms hns] at h
          rw [sorted_object_iff hms hns]
          intro name
          obtain ⟨hnone, hsome⟩ := h name
          cases hv : member? _ name with
          | none => rw [hnone hv]
          | some v =>
              obtain ⟨w, hw, hsame⟩ := hsome v hv
              rw [hw, Option.map_some, Option.map_some,
                ih _ (mem_of_member? hv) (hmembers' _ (mem_of_member? hw)) hsame]
      | _ => cases h

/-! ### The sign of a zero -/

theorem Numeral.same_self {n : Numeral} (h : n.IsProper) : n.same n = true := by
  cases n with
  | integer i => exact beq_self_eq_true i
  | float x =>
      cases x with
      | nan => cases h
      | signed negative rank le =>
          rw [Numeral.same, Binary64.same, Binary64.compare_self _ Binary64.noConfusion]
          rfl

/-- Equal numbers are the same, unless they are zeros of different signs. -/
theorem Numeral.eq_of_same {negative : Bool} {m n : Numeral} (hm : m.HasZeroSign negative)
    (hn : n.HasZeroSign negative) (h : m.same n = true) : m = n := by
  cases m with
  | integer i =>
      cases n with
      | integer j => rw [beq_iff_eq.1 h]
      | float y => cases h
  | float x =>
      cases n with
      | integer j => cases h
      | float y =>
          cases hx : x.isZero with
          | false => rw [Binary64.eq_of_same hx h]
          | true =>
              cases hy : y.isZero with
              | false => rw [Binary64.eq_of_same hy ((Binary64.same_comm y x).trans h)]
              | true =>
                  -- Two zeros have the sign that all of them have.
                  cases x with
                  | nan => cases hx
                  | signed p r hr =>
                      cases y with
                      | nan => cases hy
                      | signed q r' hr' =>
                          obtain rfl : r = 0 := beq_iff_eq.1 hx
                          obtain rfl : r' = 0 := beq_iff_eq.1 hy
                          obtain rfl : p = negative := hm rfl
                          obtain rfl : q = p := hn rfl
                          rfl

theorem HasZeroSign.isProper {negative : Bool} (h : v.HasZeroSign negative) : v.IsProper :=
  h.mono fun _ hn => hn.1

/-- Zero, of either sign. -/
def zero (negative : Bool) : Json :=
  .number (.float (.signed negative 0 (Nat.zero_le _)))

theorem hasZeroSign_zero (negative : Bool) : (zero negative).HasZeroSign negative :=
  .number ⟨by simp [Numeral.IsProper, Binary64.isFinite, Binary64.topRank], fun _ => rfl⟩

/-- A value equals itself. -/
theorem same_self (h : v.IsProper) : v.same v = true :=
  same_of_sorted_eq (fun _ => Numeral.same_self) h h rfl

/-- If all zeros in them have the same sign, equal values have the same sorted members. -/
theorem HasZeroSign.sorted_eq {negative : Bool} (hv : v.HasZeroSign negative)
    (hw : w.HasZeroSign negative) (h : v.same w = true) : v.sorted = w.sorted :=
  sorted_eq_of_same (fun _ _ hm hn => Numeral.eq_of_same hm.2 hn.2) hv hw h

/-- **Equal values have the same canonical text**, if all zeros in them have the same sign. -/
theorem canonical_eq_of_same {negative : Bool} (hv : v.HasZeroSign negative)
    (hw : w.HasZeroSign negative) (h : v.same w = true) : v.canonical = w.canonical :=
  congrArg text (hv.sorted_eq hw h)

end

end Json

end CoachLedger
