/-
**The two fragments of a change.**

The fragments of a change stand side by side: of two objects they have the same names in the same
order, and of two arrays the same number of entries, which stand side by side in turn.  They show
exactly what differs.  Two objects show the names under which their values have different texts,
with both values as they are; two arrays have an entry for each pair of entries that has a change;
anything else is shown as a whole.  There are no fragments only if nothing of this kind differs.

Main definitions:

* `CoachLedger.Audit.parallel` — two values stand side by side;
* `CoachLedger.Audit.ShowsMembers` — the members of two objects that differ, with both values;
* `CoachLedger.Audit.IsEntry` — the entry of a pair in the fragments of two arrays;
* `CoachLedger.Audit.IsExact` — the fragments show what differs, and nothing else;
* `CoachLedger.Audit.IsUnchanged` — nothing differs.

Main results:

* `CoachLedger.Audit.parallel_change` — **the fragments of a change stand side by side**;
* `CoachLedger.Audit.isEntry_changeOfPair` — the entry of a pair;
* `CoachLedger.Audit.change?_eq_none_iff` — **when there is no change**;
* `CoachLedger.Audit.fragments_exact` — **there are both fragments or none, and they show what
  differs**.
-/

import CoachLedger.Audit.Change
import CoachLedger.Proofs.Json.Equality
import Mathlib.Data.List.Forall2

set_option autoImplicit false

namespace CoachLedger

/-- A property of all values, once it holds of an array whose items have it, and of anything that
is no array. -/
theorem Json.induct_items {motive : Json → Prop}
    (array : ∀ xs, (∀ x ∈ xs, motive x) → motive (.array xs))
    (other : ∀ j, (∀ xs, j ≠ .array xs) → motive j) (j : Json) : motive j := by
  -- The items of an array are smaller than the array.
  induction hn : sizeOf j using Nat.strongRecOn generalizing j with
  | _ n ih =>
      by_cases h : ∃ xs, j = .array xs
      · obtain ⟨xs, rfl⟩ := h
        refine array xs fun x hx => ih (sizeOf x) ?_ x rfl
        have := List.sizeOf_lt_of_mem hx
        rw [← hn, Json.array.sizeOf_spec]
        omega
      · exact other j fun xs hj => h ⟨xs, hj⟩

namespace Audit

variable {o : Options}

/-! ### Side by side -/

mutual

/-- Two objects have the same names in the same order, and two arrays as many items, which stand
side by side in turn.  Values of different shapes always stand side by side. -/
def parallel : Json → Json → Bool
  | .object ms, .object ns => ms.map Prod.fst == ns.map Prod.fst
  | .array xs, .array ys => parallelItems xs ys
  | _, _ => true
termination_by structural x => x

/-- The items of two arrays stand side by side. -/
def parallelItems : List Json → List Json → Bool
  | [], [] => true
  | x :: xs, y :: ys => parallel x y && parallelItems xs ys
  | _, _ => false
termination_by structural xs => xs

end

theorem parallelItems_iff {xs ys : List Json} :
    parallelItems xs ys = true ↔ List.Forall₂ (fun x y => parallel x y = true) xs ys := by
  induction xs generalizing ys with
  | nil => cases ys <;> simp [parallelItems]
  | cons x xs ih => cases ys <;> simp [parallelItems, ih]

/-- Values that are not both objects or both arrays stand side by side. -/
theorem parallel_of_ne {x y : Json} (ho : ∀ ms ns, ¬(x = .object ms ∧ y = .object ns))
    (ha : ∀ xs ys, ¬(x = .array xs ∧ y = .array ys)) : parallel x y = true := by
  cases x with
  | object ms =>
      cases y with
      | object ns => exact absurd ⟨rfl, rfl⟩ (ho ms ns)
      | _ => rfl
  | array xs =>
      cases y with
      | array ys => exact absurd ⟨rfl, rfl⟩ (ha xs ys)
      | _ => rfl
  | _ => cases y <;> rfl

/-! ### Tags -/

/-- The members of an object without the one that carries the tag. -/
def untagged (members : List (String × Json)) : List (String × Json) :=
  members.filter fun m => m.1 != tagField

theorem names_untagged (members : List (String × Json)) :
    (untagged members).map Prod.fst =
      (members.map Prod.fst).filter fun name => name != tagField := by
  rw [untagged, List.filter_map]
  rfl

theorem withTag_object (tag : Json) (members : List (String × Json)) :
    withTag tag (.object members) = .object ((tagField, tag) :: untagged members) := rfl

/-- Only an object with a tag is an object. -/
theorem eq_object_of_withTag {tag x : Json} {ms : List (String × Json)}
    (h : withTag tag x = .object ms) :
    ∃ members, x = .object members ∧ ms = (tagField, tag) :: untagged members := by
  cases x with
  | object members =>
      rw [withTag_object, Json.object.injEq] at h
      exact ⟨members, rfl, h.symm⟩
  | _ => cases h

theorem withTag_eq_array {tag x : Json} {xs : List Json} (h : withTag tag x = .array xs) :
    x = .array xs := by
  cases x with
  | object members => cases h
  | _ => exact h

/-- Tagging both fragments leaves them side by side. -/
theorem parallel_withTag (tag : Json) {x y : Json} (h : parallel x y = true) :
    parallel (withTag tag x) (withTag tag y) = true := by
  -- Tagging keeps the shape of a fragment, so only two objects get two tags side by side.
  by_cases hobj : ∃ ms ns, x = .object ms ∧ y = .object ns
  · obtain ⟨ms, ns, rfl, rfl⟩ := hobj
    have hnames : ms.map Prod.fst = ns.map Prod.fst := by simpa [parallel] using h
    rw [withTag_object, withTag_object]
    simp only [parallel, List.map_cons, names_untagged, hnames, beq_self_eq_true]
  · by_cases harr : ∃ xs ys, x = .array xs ∧ y = .array ys
    · obtain ⟨xs, ys, rfl, rfl⟩ := harr
      exact h
    · refine parallel_of_ne ?_ ?_
      · rintro ms ns ⟨hx, hy⟩
        obtain ⟨ms', rfl, -⟩ := eq_object_of_withTag hx
        obtain ⟨ns', rfl, -⟩ := eq_object_of_withTag hy
        exact hobj ⟨ms', ns', rfl, rfl⟩
      · rintro xs ys ⟨hx, hy⟩
        exact harr ⟨xs, ys, withTag_eq_array hx, withTag_eq_array hy⟩

/-! ### Members that differ -/

/-- Two lists of members show, of the names that are kept, exactly those under which two objects
differ, each with its values.  A missing value counts as null. -/
structure ShowsMembers (keeps : String → Bool) (olds news ms ns : List (String × Json)) : Prop where
  names : ms.map Prod.fst = ns.map Prod.fst
  /-- The names of the old object come first, then those that only the new one has. -/
  order : (ms.map Prod.fst).Sublist (allNames olds news)
  mem_iff : ∀ name, name ∈ ms.map Prod.fst ↔ keeps name = true ∧
    (name ∈ olds.map Prod.fst ∨ name ∈ news.map Prod.fst) ∧
    (valueOf olds name).canonical ≠ (valueOf news name).canonical
  old : ∀ m ∈ ms, m.2 = valueOf olds m.1
  new : ∀ m ∈ ns, m.2 = valueOf news m.1

theorem mem_allNames {olds news : List (String × Json)} {name : String} :
    name ∈ allNames olds news ↔ name ∈ olds.map Prod.fst ∨ name ∈ news.map Prod.fst := by
  rw [allNames, List.mem_append, List.mem_filter, Bool.not_eq_true', ← Bool.not_eq_true,
    List.contains_iff_mem]
  constructor
  · rintro (h | ⟨h, -⟩)
    · exact .inl h
    · exact .inr h
  · rintro (h | h)
    · exact .inl h
    · by_cases ho : name ∈ olds.map Prod.fst
      · exact .inl ho
      · exact .inr ⟨h, ho⟩

/-- The changed names are those whose values differ in their texts. -/
theorem mem_changedNames {olds news : List (String × Json)} {name : String} :
    name ∈ changedNames olds news ↔
      (valueOf olds name).canonical ≠ (valueOf news name).canonical := by
  rw [changedNames, List.mem_filter, mem_allNames, bne_iff_ne, and_iff_right_iff_imp]
  -- A name that is in neither object has the value null in both.
  intro hne
  by_contra hmem
  rw [not_or] at hmem
  rw [valueOf, valueOf, Json.member?_eq_none.2 hmem.1, Json.member?_eq_none.2 hmem.2] at hne
  exact hne rfl

theorem names_map_valueOf (members : List (String × Json)) (names : List String) :
    (names.map fun name => (name, valueOf members name)).map Prod.fst = names := by
  rw [List.map_map]
  exact List.map_id names

/-- The changed names show what differs. -/
theorem showsMembers_changedNames (olds news : List (String × Json)) :
    ShowsMembers (fun _ => true) olds news
      ((changedNames olds news).map fun name => (name, valueOf olds name))
      ((changedNames olds news).map fun name => (name, valueOf news name)) := by
  refine ⟨?_, ?_, ?_, ?_, ?_⟩
  · rw [names_map_valueOf, names_map_valueOf]
  · rw [names_map_valueOf]
    exact List.filter_sublist
  · intro name
    rw [names_map_valueOf, changedNames, List.mem_filter, mem_allNames, bne_iff_ne]
    simp
  · intro m hm
    obtain ⟨name, -, rfl⟩ := List.mem_map.1 hm
    rfl
  · intro m hm
    obtain ⟨name, -, rfl⟩ := List.mem_map.1 hm
    rfl

/-- Without the member that carries a tag, the others are shown. -/
theorem ShowsMembers.untagged {olds news ms ns : List (String × Json)}
    (h : ShowsMembers (fun _ => true) olds news ms ns) :
    ShowsMembers (fun name => name != tagField) olds news (untagged ms) (untagged ns) := by
  refine ⟨?_, ?_, ?_, ?_, ?_⟩
  · rw [names_untagged, names_untagged, h.names]
  · rw [names_untagged]
    exact List.filter_sublist.trans h.order
  · intro name
    rw [names_untagged, List.mem_filter, h.mem_iff]
    constructor
    · rintro ⟨⟨-, hrest⟩, hkeeps⟩
      exact ⟨hkeeps, hrest⟩
    · rintro ⟨hkeeps, hrest⟩
      exact ⟨⟨rfl, hrest⟩, hkeeps⟩
  · exact fun m hm => h.old m (List.mem_of_mem_filter hm)
  · exact fun m hm => h.new m (List.mem_of_mem_filter hm)

/-- **The change between two objects.** -/
theorem changeOfMembers?_eq_some {olds news : List (String × Json)} {c : Change}
    (h : changeOfMembers? olds news = some c) :
    ∃ ms ns, c = ⟨.object ms, .object ns⟩ ∧ ms ≠ [] ∧
      ShowsMembers (fun _ => true) olds news ms ns := by
  have hshows := showsMembers_changedNames olds news
  unfold changeOfMembers? at h
  split at h
  · cases h
  · rename_i names hne
    refine ⟨_, _, (Option.some.inj h).symm, ?_, hshows⟩
    rw [Ne, List.map_eq_nil_iff]
    exact hne

/-! ### Entries of arrays -/

/-- The old entry of a pair, null if it has none. -/
def Pair.oldIn (p : Pair) (olds : List Json) : Json :=
  (p.old.bind fun i => olds[i]?).getD .null

/-- The old entry of a pair is null, or it is an entry. -/
theorem oldIn_cases (xs : List Json) (p : Pair) : p.oldIn xs = .null ∨ p.oldIn xs ∈ xs := by
  rw [Pair.oldIn]
  cases h : p.old.bind fun i => xs[i]? with
  | none => exact .inl rfl
  | some x =>
      obtain ⟨i, -, hi⟩ := Option.bind_eq_some_iff.1 h
      exact .inr (List.mem_of_getElem? hi)

/-- A property of all values, once it holds of an array of which it holds for the old entry of any
pair, a missing one being null, and of anything that is no array. -/
theorem induct_oldIn {motive : Json → Prop}
    (array : ∀ xs, (∀ p : Pair, motive (p.oldIn xs)) → motive (.array xs))
    (other : ∀ j, (∀ xs, j ≠ .array xs) → motive j) (j : Json) : motive j := by
  induction j using Json.induct_items with
  | array xs ih =>
      refine array xs fun p => ?_
      rcases oldIn_cases xs p with hnull | hmem
      · exact hnull ▸ other .null fun _ => Json.noConfusion
      · exact ih _ hmem
  | other j hne => exact other j hne

/-- The new entry of a pair, null if it has none. -/
def Pair.newIn (p : Pair) (news : List Json) : Json :=
  (p.new.bind fun j => news[j]?).getD .null

/-- The entry that shows a pair of values in the fragments of two arrays: their change, tagged.  Its
sides stand side by side.  If both are objects, they start with the same tag and show, but for the
member that carries the tag, what differs. -/
structure IsEntry (o : Options) (old new : Json) (e : Change) : Prop where
  change : ∃ c tag, change? o old new = some c ∧ e = ⟨withTag tag c.old, withTag tag c.new⟩
  parallel : parallel e.old e.new = true
  tagged : ∀ ms ns, e.old = .object ms → e.new = .object ns →
    ∃ olds news tag ms' ns', old = .object olds ∧ new = .object news ∧
      ms = (tagField, tag) :: ms' ∧ ns = (tagField, tag) :: ns' ∧
      ShowsMembers (fun name => name != tagField) olds news ms' ns'

/-- A pair of entries has a change. -/
def Pair.isChanged (o : Options) (olds news : List Json) (p : Pair) : Bool :=
  (change? o (p.oldIn olds) (p.newIn news)).isSome

theorem map_value_sides (o : Options) (xs : List Json) : (sides o xs).map Side.value = xs := by
  rw [sides_eq, List.map_map]
  exact List.map_id xs

/-- **The entries of two arrays are compared by `change?`, the missing ones as null.** -/
theorem changeOfPair?_sides (o : Options) (xs ys : List Json) (p : Pair) :
    changeOfPair? o (sides o xs) ys p = (change? o (p.oldIn xs) (p.newIn ys)).map fun c =>
      let tag := tagOf o (p.oldIn xs) (p.newIn ys) p.position
      ⟨withTag tag c.old, withTag tag c.new⟩ := by
  -- A missing entry is compared as null is, which is what an absent side does.
  have hside : (p.old.bind fun i => (sides o xs)[i]?).getD Side.absent =
      ⟨p.oldIn xs, change? o (p.oldIn xs)⟩ := by
    have habsent : Side.absent = ⟨.null, change? o .null⟩ := by
      rw [Side.absent, funext (change?_null o)]
    unfold Pair.oldIn
    cases p.old with
    | none => exact habsent
    | some i =>
        rw [Option.bind_some, Option.bind_some, sides_eq, List.getElem?_map]
        cases xs[i]? with
        | none => exact habsent
        | some x => rfl
  unfold changeOfPair?
  dsimp only
  rw [hside]
  rfl

/-! ### Changes -/

/-- **A change is one of two objects, one of two arrays, or shows both values as a whole.** -/
theorem change?_cases {old new : Json} {c : Change} (h : change? o old new = some c) :
    (∃ olds news, old = .object olds ∧ new = .object news ∧ changeOfMembers? olds news = some c) ∨
    (∃ xs ys, old = .array xs ∧ new = .array ys ∧ changeOfItems? o (sides o xs) ys = some c) ∨
    (∀ olds news, ¬(old = .object olds ∧ new = .object news)) ∧
      (∀ xs ys, ¬(old = .array xs ∧ new = .array ys)) ∧ c = ⟨old, new⟩ := by
  unfold change? at h
  split at h
  · cases h
  · split at h
    · exact .inr (.inl ⟨_, _, rfl, rfl, h⟩)
    · exact .inl ⟨_, _, rfl, rfl, h⟩
    · rename_i ha ho
      refine .inr (.inr ⟨?_, ?_, (Option.some.inj h).symm⟩)
      · rintro olds news ⟨rfl, rfl⟩
        exact ho olds news rfl rfl
      · rintro xs ys ⟨rfl, rfl⟩
        exact ha xs ys rfl rfl

/-- The entries of the change between two arrays. -/
theorem changeOfItems?_eq_some {xs ys : List Json} {c : Change}
    (h : changeOfItems? o (sides o xs) ys = some c) :
    ∃ es, (align o xs ys).filterMap (changeOfPair? o (sides o xs) ys) = es ∧ es ≠ [] ∧
      c = ⟨.array (es.map Change.old), .array (es.map Change.new)⟩ := by
  unfold changeOfItems? at h
  rw [map_value_sides] at h
  split at h
  · cases h
  · rename_i es hne
    exact ⟨_, rfl, hne, (Option.some.inj h).symm⟩

/-- If both fragments are objects, so are both values, and the fragments show what differs. -/
theorem change?_eq_objects {old new : Json} {ms ns : List (String × Json)}
    (h : change? o old new = some ⟨.object ms, .object ns⟩) :
    ∃ olds news, old = .object olds ∧ new = .object news ∧
      ShowsMembers (fun _ => true) olds news ms ns := by
  rcases change?_cases h with ⟨olds, news, hold, hnew, hc⟩ | ⟨xs, ys, -, -, hc⟩ | ⟨ho, -, hc⟩
  · obtain ⟨ms', ns', heq, -, hshows⟩ := changeOfMembers?_eq_some hc
    rw [Change.mk.injEq, Json.object.injEq, Json.object.injEq] at heq
    obtain ⟨rfl, rfl⟩ := heq
    exact ⟨olds, news, hold, hnew, hshows⟩
  · obtain ⟨es, -, -, heq⟩ := changeOfItems?_eq_some hc
    cases heq
  · rw [Change.mk.injEq] at hc
    exact absurd ⟨hc.1.symm, hc.2.symm⟩ (ho ms ns)

/-- The entry of a pair, once the change of its values stands side by side. -/
theorem isEntry_of_parallel {old new tag : Json} {c : Change} (h : change? o old new = some c)
    (hp : parallel c.old c.new = true) :
    IsEntry o old new ⟨withTag tag c.old, withTag tag c.new⟩ := by
  refine ⟨⟨c, tag, h, rfl⟩, parallel_withTag tag hp, ?_⟩
  intro ms ns hms hns
  obtain ⟨ms', hold, rfl⟩ := eq_object_of_withTag hms
  obtain ⟨ns', hnew, rfl⟩ := eq_object_of_withTag hns
  have hc : c = ⟨.object ms', .object ns'⟩ := by
    cases c
    rw [Change.mk.injEq]
    exact ⟨hold, hnew⟩
  rw [hc] at h
  obtain ⟨olds, news, rfl, rfl, hshows⟩ := change?_eq_objects h
  exact ⟨olds, news, tag, _, _, rfl, rfl, rfl, rfl, hshows.untagged⟩

/-- The results of a partial function stand for the members at which it is defined. -/
theorem forall₂_filterMap {α β : Type} {R : α → β → Prop} {f : α → Option β} {l : List α}
    (h : ∀ a ∈ l, ∀ b, f a = some b → R a b) :
    List.Forall₂ R (l.filter fun a => (f a).isSome) (l.filterMap f) := by
  induction l with
  | nil => exact .nil
  | cons a l ih =>
      obtain ⟨ha, hl⟩ := List.forall_mem_cons.1 h
      cases hf : f a with
      | none =>
          rw [List.filter_cons_of_neg (by simp [hf]), List.filterMap_cons_none hf]
          exact ih hl
      | some b =>
          rw [List.filter_cons_of_pos (by simp [hf]), List.filterMap_cons_some hf]
          exact .cons (ha b hf) (ih hl)

theorem isChanged_eq (o : Options) (xs ys : List Json) (p : Pair) :
    (changeOfPair? o (sides o xs) ys p).isSome = p.isChanged o xs ys := by
  rw [changeOfPair?_sides, Option.isSome_map, Pair.isChanged]

/-- The entry of a pair, once its change stands side by side. -/
theorem isEntry_changeOfPair {xs ys : List Json} {p : Pair} {e : Change}
    (hp : ∀ c, change? o (p.oldIn xs) (p.newIn ys) = some c → parallel c.old c.new = true)
    (h : changeOfPair? o (sides o xs) ys p = some e) : IsEntry o (p.oldIn xs) (p.newIn ys) e := by
  rw [changeOfPair?_sides, Option.map_eq_some_iff] at h
  obtain ⟨c, hc, rfl⟩ := h
  exact isEntry_of_parallel hc (hp c hc)

/-- **The fragments of a change stand side by side.** -/
theorem parallel_change {old new : Json} {c : Change} (h : change? o old new = some c) :
    parallel c.old c.new = true := by
  induction old using induct_oldIn generalizing new c with
  | array xs ih =>
      rcases change?_cases h with ⟨olds, news, hold, -, -⟩ | ⟨xs', ys, hold, -, hc⟩ | ⟨ho, ha, rfl⟩
      · cases hold
      · obtain rfl := Json.array.inj hold
        obtain ⟨es, rfl, -, rfl⟩ := changeOfItems?_eq_some hc
        dsimp only
        rw [parallel, parallelItems_iff, List.forall₂_map_left_iff, List.forall₂_map_right_iff,
          List.forall₂_same]
        intro e he
        obtain ⟨p, -, hp⟩ := List.mem_filterMap.1 he
        exact (isEntry_changeOfPair (fun c hc => ih p hc) hp).parallel
      · exact parallel_of_ne ho ha
  | other old hne =>
      rcases change?_cases h with ⟨olds, news, -, -, hc⟩ | ⟨xs, ys, hold, -, -⟩ | ⟨ho, ha, rfl⟩
      · obtain ⟨ms, ns, rfl, -, hshows⟩ := changeOfMembers?_eq_some hc
        dsimp only
        rw [parallel, hshows.names, beq_self_eq_true]
      · exact absurd hold (hne xs)
      · exact parallel_of_ne ho ha

/-- The fragments show what differs between two values, and nothing else: of two objects the members
that differ, of two arrays an entry for each pair that has a change, in the order of the pairs, and
of other values both as a whole. -/
def IsExact (o : Options) (old new : Json) (c : Change) : Prop :=
  match old, new with
  | .object olds, .object news =>
      ∃ ms ns, c = ⟨.object ms, .object ns⟩ ∧ ms ≠ [] ∧
        ShowsMembers (fun _ => true) olds news ms ns
  | .array xs, .array ys =>
      ∃ es, c = ⟨.array (es.map Change.old), .array (es.map Change.new)⟩ ∧ es ≠ [] ∧
        List.Forall₂ (fun p e => IsEntry o (p.oldIn xs) (p.newIn ys) e)
          ((align o xs ys).filter (Pair.isChanged o xs ys)) es
  | old, new => c = ⟨old, new⟩

theorem isExact_change {old new : Json} {c : Change} (h : change? o old new = some c) :
    IsExact o old new c := by
  rcases change?_cases h with ⟨olds, news, rfl, rfl, hc⟩ | ⟨xs, ys, rfl, rfl, hc⟩ | ⟨ho, ha, rfl⟩
  · exact changeOfMembers?_eq_some hc
  · obtain ⟨es, rfl, hne, rfl⟩ := changeOfItems?_eq_some hc
    refine ⟨_, rfl, hne, ?_⟩
    rw [← funext (isChanged_eq o xs ys)]
    refine forall₂_filterMap ?_
    intro p _ e he
    exact isEntry_changeOfPair (fun c hc => parallel_change hc) he
  · unfold IsExact
    split
    · exact absurd ⟨rfl, rfl⟩ (ho _ _)
    · exact absurd ⟨rfl, rfl⟩ (ha _ _)
    · rfl

/-! ### No change -/

/-- Nothing differs between two values: they are the same, or they are objects whose values have the
same text under each name, or arrays no pair of whose entries has a change. -/
def IsUnchanged (o : Options) (old new : Json) : Prop :=
  old.same new = true ∨
    match old, new with
    | .object olds, .object news =>
        ∀ name, name ∈ olds.map Prod.fst ∨ name ∈ news.map Prod.fst →
          (valueOf olds name).canonical = (valueOf news name).canonical
    | .array xs, .array ys => ∀ p ∈ align o xs ys, p.isChanged o xs ys = false
    | _, _ => False

theorem changeOfMembers?_eq_none_iff {olds news : List (String × Json)} :
    changeOfMembers? olds news = none ↔
      ∀ name, name ∈ olds.map Prod.fst ∨ name ∈ news.map Prod.fst →
        (valueOf olds name).canonical = (valueOf news name).canonical := by
  have hnames : changeOfMembers? olds news = none ↔ changedNames olds news = [] := by
    unfold changeOfMembers?
    split
    · rename_i hnil
      exact iff_of_true rfl hnil
    · rename_i hne
      exact iff_of_false (fun h => by cases h) hne
  rw [hnames, changedNames, List.filter_eq_nil_iff]
  refine forall_congr' ?_
  intro name
  rw [mem_allNames, bne_iff_ne, not_not]

theorem changeOfItems?_eq_none_iff {xs ys : List Json} :
    changeOfItems? o (sides o xs) ys = none ↔
      ∀ p ∈ align o xs ys, p.isChanged o xs ys = false := by
  have hentries : changeOfItems? o (sides o xs) ys = none ↔
      (align o xs ys).filterMap (changeOfPair? o (sides o xs) ys) = [] := by
    unfold changeOfItems?
    rw [map_value_sides]
    split
    · rename_i hnil
      exact iff_of_true rfl hnil
    · rename_i hne
      exact iff_of_false (fun h => by cases h) hne
  rw [hentries, List.filterMap_eq_nil_iff]
  refine forall₂_congr ?_
  intro p _
  rw [← isChanged_eq, Option.isSome_eq_false_iff, Option.isNone_iff_eq_none]

/-- **There is no change exactly if nothing differs.** -/
theorem change?_eq_none_iff {old new : Json} :
    change? o old new = none ↔ IsUnchanged o old new := by
  unfold change? IsUnchanged
  by_cases hs : old.same new = true
  · rw [if_pos hs]
    exact iff_of_true rfl (.inl hs)
  · rw [if_neg hs, or_iff_right hs]
    cases old with
    | array xs =>
        cases new with
        | array ys => exact changeOfItems?_eq_none_iff
        | _ => exact iff_of_false (fun h => by cases h) id
    | object olds =>
        cases new with
        | object news => exact changeOfMembers?_eq_none_iff
        | _ => exact iff_of_false (fun h => by cases h) id
    | _ => exact iff_of_false (fun h => by cases h) id

/-- **Two values have both fragments or none.**  They have none exactly if nothing differs; and else
the fragments stand side by side and show what differs. -/
theorem fragments_exact (o : Options) (old new : Json) :
    (IsUnchanged o old new ∧ (change? o old new).map Change.old = none ∧
      (change? o old new).map Change.new = none) ∨
    ¬IsUnchanged o old new ∧ ∃ fragments,
      (change? o old new).map Change.old = some fragments.old ∧
      (change? o old new).map Change.new = some fragments.new ∧
      parallel fragments.old fragments.new = true ∧ IsExact o old new fragments := by
  rw [← change?_eq_none_iff]
  cases h : change? o old new with
  | none => exact .inl ⟨rfl, rfl, rfl⟩
  | some c =>
      exact .inr ⟨Option.some_ne_none c, c, rfl, rfl, parallel_change h, isExact_change h⟩

end Audit

end CoachLedger
