/-
**What a change shows.**

A change is recorded to be looked at, so its two fragments should differ, and so should the two
sides of each entry.  They do, with one exception.  The name of the tag is reserved: an entry that
is an object has the tag in place of a member of its own with that name.  A pair of objects that
differ in no other member has a change all the same, and its entry shows nothing but the tag, on
both sides; and so an array shows no difference if all its entries are of this kind.

Numbers are compared as numbers here, so that the two zeros count as equal.  What is stated is
about values all of whose zeros have the same sign.

Main definitions:

* `CoachLedger.Audit.DiffersInTag` — two values differ only in members that a tag replaces.

Main results:

* `CoachLedger.Audit.same_withTag_iff` — **the entry of a pair shows a difference, unless its values
  differ only in members that a tag replaces**;
* `CoachLedger.Audit.change_isVisible` — **what the fragments of a change show**.
-/

import CoachLedger.Proofs.Audit.Parallel

set_option autoImplicit false

namespace CoachLedger.Audit

variable {o : Options} {allowed : Json.Numeral → Prop}

/-! ### Well-formed parts -/

/-- What is present in an entry is a member of it. -/
theorem mem_of_present? {entry v : Json} {name : String} (h : present? entry name = some v) :
    ∃ members, entry = .object members ∧ (name, v) ∈ members := by
  cases entry with
  | object members =>
      obtain ⟨h, -⟩ := Option.filter_eq_some_iff.1 h
      exact ⟨members, rfl, Json.mem_of_member? h⟩
  | _ => cases h

/-- The value of a member is null, or it is that of a member. -/
theorem valueOf_cases (members : List (String × Json)) (name : String) :
    valueOf members name = .null ∨ (name, valueOf members name) ∈ members := by
  rw [valueOf]
  cases h : Json.member? members name with
  | none => exact .inl rfl
  | some v => exact .inr (Json.mem_of_member? h)

/-- A tag is a position, or it is present in one of the entries. -/
theorem tagOf_cases (o : Options) (old new : Json) (position : Nat) :
    tagOf o old new position = .ofNat position ∨
      ∃ name, present? new name = some (tagOf o old new position) ∨
        present? old name = some (tagOf o old new position) := by
  unfold tagOf
  dsimp only
  generalize htag : Option.or _ _ = tag
  cases tag with
  | none => exact .inl rfl
  | some v =>
      have hfound : ∃ name, (present? new name).or (present? old name) = some v := by
        rcases Option.or_eq_some_iff.1 htag with h | ⟨-, h⟩
        · exact ⟨_, h⟩
        · exact ⟨_, h⟩
      obtain ⟨name, h⟩ := hfound
      exact .inr ⟨name, (Option.or_eq_some_iff.1 h).imp id And.right⟩

theorem wellFormed_present? {entry v : Json} {name : String} (h : entry.WellFormed allowed)
    (hv : present? entry name = some v) : v.WellFormed allowed := by
  obtain ⟨members, rfl, hmem⟩ := mem_of_present? hv
  cases h with
  | object _ hmembers => exact hmembers _ hmem

theorem wellFormed_valueOf {members : List (String × Json)}
    (h : (Json.object members).WellFormed allowed) (name : String) :
    (valueOf members name).WellFormed allowed := by
  cases h with
  | object _ hmembers =>
      rcases valueOf_cases members name with hnull | hmem
      · exact hnull ▸ .null
      · exact hmembers _ hmem

theorem wellFormed_oldIn {xs : List Json} (h : ∀ x ∈ xs, x.WellFormed allowed) (p : Pair) :
    (p.oldIn xs).WellFormed allowed := by
  rcases oldIn_cases xs p with hnull | hmem
  · exact hnull ▸ .null
  · exact h _ hmem

theorem wellFormed_newIn {ys : List Json} (h : ∀ y ∈ ys, y.WellFormed allowed) (p : Pair) :
    (p.newIn ys).WellFormed allowed :=
  wellFormed_oldIn h ⟨p.new, none⟩

/-- A tag is part of one of the entries, or a position. -/
theorem wellFormed_tagOf (hallowed : ∀ i, allowed (.integer i)) {old new : Json}
    (hold : old.WellFormed allowed) (hnew : new.WellFormed allowed) (position : Nat) :
    (tagOf o old new position).WellFormed allowed := by
  rcases tagOf_cases o old new position with hposition | ⟨name, hv | hv⟩
  · exact hposition ▸ .number (hallowed _)
  · exact wellFormed_present? hnew hv
  · exact wellFormed_present? hold hv

/-! ### Objects with the same names -/

theorem member?_map_of_mem {f : String → Json} {names : List String} {name : String}
    (h : name ∈ names) : Json.member? (names.map fun n => (n, f n)) name = some (f name) := by
  induction names with
  | nil => cases h
  | cons n names ih =>
      rw [Json.member?, List.map_cons, List.lookup_cons]
      by_cases hn : name = n
      · rw [hn, beq_self_eq_true]
      · rw [beq_eq_false_iff_ne.2 hn]
        exact ih ((List.mem_cons.1 h).resolve_left hn)

/-- Objects with the same names are compared name by name. -/
theorem same_map_iff (f g : String → Json) (names : List String) :
    (Json.object (names.map fun n => (n, f n))).same (.object (names.map fun n => (n, g n))) =
      true ↔ ∀ n ∈ names, (f n).same (g n) = true := by
  rw [Json.same, Bool.and_eq_true, beq_iff_eq, List.length_map, List.length_map,
    and_iff_right rfl, Json.sameMembers_iff, List.forall_mem_map]
  refine forall₂_congr fun n hn => ?_
  simp only [member?_map_of_mem hn, Option.some.injEq, exists_eq_left']

/-- Members with a tag, name by name. -/
theorem withTag_map (t : Json) (f : String → Json) (names : List String) :
    withTag t (.object (names.map fun n => (n, f n))) =
      .object ((tagField :: names.filter fun n => n != tagField).map fun n =>
        (n, if n = tagField then t else f n)) := by
  rw [withTag_object, untagged, List.filter_map, List.map_cons, if_pos rfl]
  refine congrArg (fun ms => Json.object ((tagField, t) :: ms)) (List.map_congr_left fun n hn => ?_)
  rw [if_neg (bne_iff_ne.1 (List.mem_filter.1 hn).2)]

/-- The fragments of two objects have the changed names, with their values. -/
theorem changeOfMembers?_eq {olds news : List (String × Json)} {c : Change}
    (h : changeOfMembers? olds news = some c) :
    changedNames olds news ≠ [] ∧
      c = ⟨.object ((changedNames olds news).map fun n => (n, valueOf olds n)),
        .object ((changedNames olds news).map fun n => (n, valueOf news n))⟩ := by
  unfold changeOfMembers? at h
  split at h
  · cases h
  · rename_i names hne
    exact ⟨hne, (Option.some.inj h).symm⟩

/-! ### Differences that a tag replaces -/

/-- Two values differ only in members that a tag replaces: objects, in no member but the one of that
name; arrays, in no pair of entries but such ones. -/
inductive DiffersInTag (o : Options) : Json → Json → Prop
  | object {olds news : List (String × Json)}
      (h : ∀ name, name ≠ tagField →
        (valueOf olds name).canonical = (valueOf news name).canonical) :
      DiffersInTag o (.object olds) (.object news)
  | array {xs ys : List Json}
      (h : ∀ p ∈ align o xs ys, p.isChanged o xs ys = true →
        DiffersInTag o (p.oldIn xs) (p.newIn ys)) :
      DiffersInTag o (.array xs) (.array ys)

theorem DiffersInTag.cases_shape {old new : Json} (h : DiffersInTag o old new) :
    (∃ olds news, old = .object olds ∧ new = .object news) ∨
      ∃ xs ys, old = .array xs ∧ new = .array ys := by
  cases h with
  | object h => exact .inl ⟨_, _, rfl, rfl⟩
  | array h => exact .inr ⟨_, _, rfl, rfl⟩

theorem differsInTag_object_iff {olds news : List (String × Json)} :
    DiffersInTag o (.object olds) (.object news) ↔
      ∀ name ∈ changedNames olds news, name = tagField := by
  have hiff : DiffersInTag o (.object olds) (.object news) ↔ ∀ name, name ≠ tagField →
      (valueOf olds name).canonical = (valueOf news name).canonical :=
    ⟨fun h => by cases h with | object h => exact h, .object⟩
  rw [hiff]
  refine forall_congr' fun name => ?_
  rw [mem_changedNames, ← not_imp_not, not_not]

theorem differsInTag_array_iff {xs ys : List Json} :
    DiffersInTag o (.array xs) (.array ys) ↔ ∀ p ∈ align o xs ys,
      p.isChanged o xs ys = true → DiffersInTag o (p.oldIn xs) (p.newIn ys) :=
  ⟨fun h => by cases h with | array h => exact h, .array⟩

/-- A tag keeps values apart that are not both objects. -/
theorem same_withTag_eq_false {old new : Json} (tag : Json)
    (ho : ∀ olds news, ¬(old = .object olds ∧ new = .object news)) (h : old.same new = false) :
    (withTag tag old).same (withTag tag new) = false := by
  cases old with
  | object olds =>
      cases new with
      | object news => exact absurd ⟨rfl, rfl⟩ (ho olds news)
      | _ => rfl
  | _ =>
      cases new with
      | object news => rfl
      | _ => exact h

theorem same_of_change? {old new : Json} {c : Change} (h : change? o old new = some c) :
    old.same new = false := by
  unfold change? at h
  split at h
  · cases h
  · rename_i hsame
    exact Bool.not_eq_true _ ▸ hsame

section

variable {negative : Bool} {old new tag : Json} {c : Change}

/-- The values under a changed name differ. -/
theorem same_of_mem_changedNames {olds news : List (String × Json)}
    (hold : (Json.object olds).HasZeroSign negative)
    (hnew : (Json.object news).HasZeroSign negative) {name : String}
    (h : name ∈ changedNames olds news) : (valueOf olds name).same (valueOf news name) = false := by
  refine Bool.not_eq_true _ ▸ fun hsame => mem_changedNames.1 h ?_
  exact Json.canonical_eq_of_same (wellFormed_valueOf hold name) (wellFormed_valueOf hnew name)
    hsame

/-- The entry of two objects shows a difference if they differ in another member than the one that
the tag replaces. -/
theorem same_withTag_members {olds news : List (String × Json)}
    (hold : (Json.object olds).HasZeroSign negative)
    (hnew : (Json.object news).HasZeroSign negative) (htag : tag.same tag = true)
    (h : changeOfMembers? olds news = some c) :
    (withTag tag c.old).same (withTag tag c.new) = true ↔
      DiffersInTag o (.object olds) (.object news) := by
  obtain ⟨-, rfl⟩ := changeOfMembers?_eq h
  dsimp only
  rw [withTag_map, withTag_map, same_map_iff, differsInTag_object_iff, List.forall_mem_cons,
    if_pos rfl, if_pos rfl, and_iff_right htag]
  constructor
  · intro hsame name hname
    by_contra hne
    have hkept : name ∈ (changedNames olds news).filter fun n => n != tagField :=
      List.mem_filter.2 ⟨hname, bne_iff_ne.2 hne⟩
    have hvalues := hsame name hkept
    rw [if_neg hne, if_neg hne, same_of_mem_changedNames hold hnew hname] at hvalues
    cases hvalues
  · intro htags name hname
    obtain ⟨hname, hne⟩ := List.mem_filter.1 hname
    exact absurd (htags name hname) (bne_iff_ne.1 hne)

/-- Values of different shapes are shown as a whole, which is a difference. -/
theorem same_withTag_verbatim (ho : ∀ olds news, ¬(old = .object olds ∧ new = .object news))
    (ha : ∀ xs ys, ¬(old = .array xs ∧ new = .array ys)) (h : change? o old new = some c) :
    (withTag tag old).same (withTag tag new) = true ↔ DiffersInTag o old new := by
  rw [same_withTag_eq_false tag ho (same_of_change? h)]
  refine iff_of_false Bool.false_ne_true fun hdiffers => ?_
  rcases hdiffers.cases_shape with ⟨olds, news, hshape⟩ | ⟨xs, ys, hshape⟩
  · exact ho olds news hshape
  · exact ha xs ys hshape

/-- The entry of a pair shows a difference, if the old value is no array. -/
theorem same_withTag_of_ne_array (hne : ∀ xs, old ≠ .array xs) (hold : old.HasZeroSign negative)
    (hnew : new.HasZeroSign negative) (htag : tag.same tag = true)
    (h : change? o old new = some c) :
    (withTag tag c.old).same (withTag tag c.new) = true ↔ DiffersInTag o old new := by
  rcases change?_cases h with ⟨olds, news, rfl, rfl, hc⟩ | ⟨xs, ys, rfl, -, -⟩ | ⟨ho, ha, rfl⟩
  · exact same_withTag_members hold hnew htag hc
  · exact absurd rfl (hne xs)
  · exact same_withTag_verbatim ho ha h

theorem same_tagOf (hold : old.HasZeroSign negative) (hnew : new.HasZeroSign negative)
    (position : Nat) : (tagOf o old new position).same (tagOf o old new position) = true :=
  Json.same_self (wellFormed_tagOf (fun _ => trivial) hold.isProper hnew.isProper position)

/-- The entry of a pair of an array. -/
def entryOfPair (o : Options) (xs ys : List Json) (p : Pair) (c : Change) : Change :=
  let tag := tagOf o (p.oldIn xs) (p.newIn ys) p.position
  ⟨withTag tag c.old, withTag tag c.new⟩

theorem mem_entries_iff {xs ys : List Json} {e : Change} :
    e ∈ (align o xs ys).filterMap (changeOfPair? o (sides o xs) ys) ↔ ∃ p ∈ align o xs ys,
      ∃ c, change? o (p.oldIn xs) (p.newIn ys) = some c ∧ e = entryOfPair o xs ys p c := by
  rw [List.mem_filterMap]
  refine exists_congr fun p => and_congr_right fun _ => ?_
  rw [changeOfPair?_sides, Option.map_eq_some_iff]
  exact exists_congr fun c => and_congr_right fun _ => eq_comm

/-- The entries of an array show no difference if each pair that has a change differs only in
members that a tag replaces, once this is true of each pair. -/
theorem sameItems_entries_iff {xs ys : List Json}
    (hpairs : ∀ p ∈ align o xs ys, ∀ c, change? o (p.oldIn xs) (p.newIn ys) = some c →
      ((entryOfPair o xs ys p c).old.same (entryOfPair o xs ys p c).new = true ↔
        DiffersInTag o (p.oldIn xs) (p.newIn ys))) :
    Json.sameItems
        (((align o xs ys).filterMap (changeOfPair? o (sides o xs) ys)).map Change.old)
        (((align o xs ys).filterMap (changeOfPair? o (sides o xs) ys)).map Change.new) = true ↔
      DiffersInTag o (.array xs) (.array ys) := by
  rw [Json.sameItems_iff, List.forall₂_map_left_iff, List.forall₂_map_right_iff,
    List.forall₂_same, differsInTag_array_iff]
  constructor
  · intro hsame p hp hchanged
    obtain ⟨c, hc⟩ := Option.isSome_iff_exists.1 hchanged
    exact (hpairs p hp c hc).1 (hsame _ (mem_entries_iff.2 ⟨p, hp, c, hc, rfl⟩))
  · intro hdiffers e he
    obtain ⟨p, hp, c, hc, rfl⟩ := mem_entries_iff.1 he
    exact (hpairs p hp c hc).2 (hdiffers p hp (Option.isSome_iff_exists.2 ⟨c, hc⟩))

/-- **The entry of a pair shows a difference, unless its values differ only in members that a tag
replaces.** -/
theorem same_withTag_iff (hold : old.HasZeroSign negative) (hnew : new.HasZeroSign negative)
    (htag : tag.same tag = true) (h : change? o old new = some c) :
    (withTag tag c.old).same (withTag tag c.new) = true ↔ DiffersInTag o old new := by
  induction old using induct_oldIn generalizing new tag c with
  | array xs ih =>
      rcases change?_cases h with ⟨olds, news, hshape, -, -⟩ | ⟨xs', ys, hshape, rfl, hc⟩ |
        ⟨ho, ha, rfl⟩
      · cases hshape
      · obtain rfl := Json.array.inj hshape
        obtain ⟨es, rfl, -, rfl⟩ := changeOfItems?_eq_some hc
        refine sameItems_entries_iff fun p _ c hp => ?_
        have hold' := wellFormed_oldIn (Json.wellFormed_array_iff.1 hold) p
        have hnew' := wellFormed_newIn (Json.wellFormed_array_iff.1 hnew) p
        have htag' := same_tagOf (o := o) hold' hnew' p.position
        exact ih p hold' hnew' htag' hp
      · exact same_withTag_verbatim ho ha h
  | other old hne => exact same_withTag_of_ne_array hne hold hnew htag h

/-- Where only the tag is left, it is all that the entry shows. -/
theorem entryOfPair_of_differsInTag {xs ys : List Json} {p : Pair}
    {olds news : List (String × Json)} (hold : p.oldIn xs = .object olds)
    (hnew : p.newIn ys = .object news) (hdiffers : DiffersInTag o (p.oldIn xs) (p.newIn ys))
    (h : change? o (p.oldIn xs) (p.newIn ys) = some c) :
    ∃ tag, entryOfPair o xs ys p c = ⟨.object [(tagField, tag)], .object [(tagField, tag)]⟩ := by
  refine ⟨tagOf o (p.oldIn xs) (p.newIn ys) p.position, ?_⟩
  unfold entryOfPair
  rw [hold, hnew] at hdiffers h ⊢
  have hnil : ((changedNames olds news).filter fun n => n != tagField) = [] := by
    refine List.filter_eq_nil_iff.2 fun name hname => ?_
    rw [differsInTag_object_iff.1 hdiffers name hname]
    simp
  rcases change?_cases h with ⟨olds', news', hold', hnew', hc⟩ | ⟨_, _, hold', -, -⟩ | ⟨ho, -, -⟩
  · obtain rfl := Json.object.inj hold'
    obtain rfl := Json.object.inj hnew'
    obtain ⟨-, rfl⟩ := changeOfMembers?_eq hc
    dsimp only
    rw [withTag_map, withTag_map, hnil]
    rfl
  · cases hold'
  · exact absurd ⟨rfl, rfl⟩ (ho olds news)

/-- The fragments of two objects differ. -/
theorem same_of_changeOfMembers? {olds news : List (String × Json)}
    (hold : (Json.object olds).HasZeroSign negative)
    (hnew : (Json.object news).HasZeroSign negative) (h : changeOfMembers? olds news = some c) :
    c.old.same c.new = false := by
  obtain ⟨hne, rfl⟩ := changeOfMembers?_eq h
  obtain ⟨name, hname⟩ := List.exists_mem_of_ne_nil _ hne
  rw [← Bool.not_eq_true, same_map_iff]
  intro hsame
  have hvalues := hsame name hname
  rw [same_of_mem_changedNames hold hnew hname] at hvalues
  cases hvalues

/-- **The entry of a pair of two arrays** shows a difference, unless its values differ only in
members that a tag replaces. -/
theorem same_entryOfPair_iff {xs ys : List Json} (hold : (Json.array xs).HasZeroSign negative)
    (hnew : (Json.array ys).HasZeroSign negative) {p : Pair}
    (h : change? o (p.oldIn xs) (p.newIn ys) = some c) :
    (entryOfPair o xs ys p c).old.same (entryOfPair o xs ys p c).new = true ↔
      DiffersInTag o (p.oldIn xs) (p.newIn ys) := by
  have hold' := wellFormed_oldIn (Json.wellFormed_array_iff.1 hold) p
  have hnew' := wellFormed_newIn (Json.wellFormed_array_iff.1 hnew) p
  exact same_withTag_iff hold' hnew' (same_tagOf hold' hnew' p.position) h

/-- **What the fragments of a change show.**  They differ, and so do the two sides of each entry,
but for entries of values that differ only in members that a tag replaces; of two such objects the
entry shows the tag alone.  The fragments are equal only if they are of two arrays and have no
entries but such ones. -/
theorem change_isVisible (hold : old.HasZeroSign negative) (hnew : new.HasZeroSign negative)
    (h : change? o old new = some c) :
    (c.old.same c.new = true ↔
      (∃ xs ys, old = .array xs ∧ new = .array ys) ∧ DiffersInTag o old new) ∧
    ∀ xs ys, old = .array xs → new = .array ys → ∃ es : List Change,
      c = ⟨.array (es.map Change.old), .array (es.map Change.new)⟩ ∧
      List.Forall₂ (fun p e =>
          (e.old.same e.new = true ↔ DiffersInTag o (p.oldIn xs) (p.newIn ys)) ∧
          ∀ olds news, p.oldIn xs = .object olds → p.newIn ys = .object news →
            DiffersInTag o (p.oldIn xs) (p.newIn ys) →
            ∃ tag, e = ⟨.object [(tagField, tag)], .object [(tagField, tag)]⟩)
        ((align o xs ys).filter (Pair.isChanged o xs ys)) es := by
  rcases change?_cases h with ⟨olds, news, rfl, rfl, hc⟩ | ⟨xs, ys, rfl, rfl, hc⟩ | ⟨ho, ha, rfl⟩
  · refine ⟨iff_of_false ?_ ?_, fun xs ys hshape => by cases hshape⟩
    · exact Bool.not_eq_true _ ▸ same_of_changeOfMembers? hold hnew hc
    · rintro ⟨⟨xs, ys, hshape, -⟩, -⟩
      cases hshape
  · obtain ⟨es, hes, -, rfl⟩ := changeOfItems?_eq_some hc
    refine ⟨?_, fun xs' ys' hxs hys => ⟨es, rfl, ?_⟩⟩
    · rw [and_iff_right ⟨xs, ys, rfl, rfl⟩, ← hes]
      exact sameItems_entries_iff fun p _ c hc => same_entryOfPair_iff hold hnew hc
    · obtain rfl := Json.array.inj hxs
      obtain rfl := Json.array.inj hys
      rw [← hes, ← funext (isChanged_eq o xs ys)]
      refine forall₂_filterMap fun p _ e he => ?_
      rw [changeOfPair?_sides, Option.map_eq_some_iff] at he
      obtain ⟨c, hc, rfl⟩ := he
      exact ⟨same_entryOfPair_iff hold hnew hc, fun olds news hold' hnew' hdiffers =>
        entryOfPair_of_differsInTag hold' hnew' hdiffers hc⟩
  · refine ⟨iff_of_false ?_ ?_, fun xs ys hxs hys => absurd ⟨hxs, hys⟩ (ha xs ys)⟩
    · exact Bool.not_eq_true _ ▸ same_of_change? h
    · rintro ⟨⟨xs, ys, hshape⟩, -⟩
      exact ha xs ys hshape

end

/-- An entry with a member of its own that has the name of the tag. -/
def ownTagged (own remark : String) : Json :=
  .object [(tagField, .string own), ("coachno", .string "C1"), ("remarks", .string remark)]

theorem hasZeroSign_ownTagged (own remark : String) : (ownTagged own remark).HasZeroSign false :=
  .object (by simp [tagField]) (by simp [Json.WellFormed.string])

/-- A remark that changes is shown, though the other member is not. -/
theorem change_isVisible_remark :
    let old := Json.array [ownTagged "a" "in yard"]
    let new := Json.array [ownTagged "b" "in service"]
    (old.HasZeroSign false ∧ new.HasZeroSign false) ∧
      ∃ c, change? .standard old new = some c ∧ c.old.same c.new = false := by
  intro old new
  have hold : old.HasZeroSign false := .array (by simp [hasZeroSign_ownTagged])
  have hnew : new.HasZeroSign false := .array (by simp [hasZeroSign_ownTagged])
  have hchange : (change? .standard old new).isSome = true := rfl
  obtain ⟨c, hc⟩ := Option.isSome_iff_exists.1 hchange
  obtain ⟨hsame, -⟩ := change_isVisible hold hnew hc
  refine ⟨⟨hold, hnew⟩, c, hc, Bool.not_eq_true _ ▸ fun h => ?_⟩
  have hpair := differsInTag_array_iff.1 (hsame.1 h).2 ⟨some 0, some 0⟩ (by decide) rfl
  exact absurd (differsInTag_object_iff.1 hpair "remarks" (by decide)) (by decide)

/-- **A member with the name of the tag changes unseen**: the entry is recorded, but its two sides
are equal. -/
theorem not_visible_ownTagged :
    ¬∀ (o : Options) (old new : Json) (c : Change), old.IsProper → new.IsProper →
      change? o old new = some c → c.old.same c.new = false := by
  intro h
  have hproper (own : String) : (Json.array [ownTagged own "in yard"]).IsProper :=
    .array (by simp [(hasZeroSign_ownTagged own _).isProper])
  have hchange : change? .standard (.array [ownTagged "a" "in yard"])
      (.array [ownTagged "b" "in yard"]) =
      some ⟨.array [.object [(tagField, .string "C1")]],
        .array [.object [(tagField, .string "C1")]]⟩ := rfl
  exact absurd (h _ _ _ _ (hproper "a") (hproper "b") hchange) (by decide)

end CoachLedger.Audit
