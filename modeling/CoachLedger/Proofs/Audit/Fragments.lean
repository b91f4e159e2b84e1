/-
**Fragments that can be read.**

The fragments of a change are put together from parts of the two values, from null where one of them
has no such part, and from tags.  They are nested no deeper than the values, have no names but theirs
and that of the tag, and no numbers but theirs and positions, so that fragments of plain values are
plain.  A fragment is null only if it stands for the whole of a value that is null.

Main definitions:

* `CoachLedger.Audit.Change.IsLegible` — both fragments can be read.

Main results:

* `CoachLedger.Audit.isLegible_change?` — **the fragments of plain values can be read**;
* `CoachLedger.Audit.isNull_change?` — **the fragments are null where the values are**, which is on
  one side at most.
-/

import CoachLedger.Proofs.Audit.Symmetry
import CoachLedger.Proofs.Json.Parsed

set_option autoImplicit false

namespace CoachLedger.Audit

variable {o : Options} {old new tag v : Json} {c : Change} {sized : Nat → Prop} {depth : Nat}

/-! ### Plain parts -/

theorem isPlain_present? {entry : Json} {name : String} (h : entry.IsPlain sized (depth + 1))
    (hv : present? entry name = some v) : v.IsPlain sized depth := by
  obtain ⟨members, rfl, hmem⟩ := mem_of_present? hv
  cases h with
  | object _ _ hmembers => exact hmembers _ hmem

theorem isPlain_valueOf {members : List (String × Json)}
    (h : ∀ m ∈ members, m.2.IsPlain sized depth) (name : String) :
    (valueOf members name).IsPlain sized depth := by
  rcases valueOf_cases members name with hnull | hmem
  · exact hnull ▸ .null
  · exact h _ hmem

theorem isPlain_oldIn {xs : List Json} (h : ∀ x ∈ xs, x.IsPlain sized depth) (p : Pair) :
    (p.oldIn xs).IsPlain sized depth := by
  rcases oldIn_cases xs p with hnull | hmem
  · exact hnull ▸ .null
  · exact h _ hmem

theorem isPlain_newIn {ys : List Json} (h : ∀ y ∈ ys, y.IsPlain sized depth) (p : Pair) :
    (p.newIn ys).IsPlain sized depth :=
  isPlain_oldIn h ⟨p.new, none⟩

/-- A tag lies one level deeper than the entries, or it is a position. -/
theorem isPlain_tagOf (hold : old.IsPlain sized (depth + 1)) (hnew : new.IsPlain sized (depth + 1))
    {position : Nat} (hposition : position ≤ Json.Numeral.maxNatural) :
    (tagOf o old new position).IsPlain sized depth := by
  rcases tagOf_cases o old new position with heq | ⟨name, hv | hv⟩
  · rw [heq]
    refine .number ⟨?_, Int.ofNat_le.2 hposition⟩
    omega
  · exact isPlain_present? hnew hv
  · exact isPlain_present? hold hv

/-- A position is counted as the entries are. -/
theorem position_le_of_mem_align {xs ys : List Json} {p : Pair} {bound : Nat}
    (hp : p ∈ align o xs ys) (hxs : xs.length ≤ bound) (hys : ys.length ≤ bound) :
    p.position ≤ bound := by
  obtain ⟨hold, hnew⟩ := lt_length_of_mem_align hp
  unfold Pair.position
  cases hn : p.new with
  | some j => exact Nat.le_trans (Nat.le_of_lt (hnew j hn)) hys
  | none =>
      cases ho : p.old with
      | some i => exact Nat.le_trans (Nat.le_of_lt (hold i ho)) hxs
      | none => exact Nat.zero_le bound

/-! ### Fragments -/

/-- Both fragments can be read where that many levels of arrays and objects are left. -/
structure Change.IsLegible (depth : Nat) (c : Change) : Prop where
  old : c.old.IsLegible depth
  new : c.new.IsLegible depth

theorem tagField_ne_embeddingName : tagField ≠ Json.embeddingName := by decide

/-- A tag is one more member of an object. -/
theorem isLegible_withTag (hv : v.IsLegible depth)
    (htag : ∀ d, depth = d + 1 → tag.IsLegible d) : (withTag tag v).IsLegible depth := by
  cases hv with
  | @object d members names unreserved h =>
      rw [withTag_object]
      have hmem {m : String × Json} (hm : m ∈ untagged members) : m ∈ members :=
        List.mem_of_mem_filter hm
      refine .object ?_
        (List.forall_mem_cons.2 ⟨tagField_ne_embeddingName, fun m hm => unreserved m (hmem hm)⟩)
        (List.forall_mem_cons.2 ⟨htag d rfl, fun m hm => h m (hmem hm)⟩)
      rw [List.map_cons, names_untagged, List.nodup_cons]
      refine ⟨fun hm => ?_, names.filter _⟩
      exact bne_iff_ne.1 (List.mem_filter.1 hm).2 rfl
  | null => exact .null
  | bool b => exact .bool b
  | number h => exact .number h
  | string s => exact .string s
  | array size h => exact .array size h

/-- The values under different names of an object, none of them reserved. -/
theorem isLegible_map_valueOf {members : List (String × Json)}
    (h : ∀ m ∈ members, m.2.IsPlain sized depth) {names : List String} (hnodup : names.Nodup)
    (hnames : ∀ name ∈ names, name ≠ Json.embeddingName) :
    (Json.object (names.map fun name => (name, valueOf members name))).IsLegible (depth + 1) := by
  refine .object ?_ (List.forall_mem_map.2 hnames)
    (List.forall_mem_map.2 fun name _ => (isPlain_valueOf h name).isLegible)
  rwa [names_map_valueOf]

theorem isLegible_changeOfMembers? {olds news : List (String × Json)}
    (hold : (Json.object olds).IsPlain sized depth) (hnew : (Json.object news).IsPlain sized depth)
    (h : changeOfMembers? olds news = some c) : c.IsLegible depth := by
  obtain ⟨-, rfl⟩ := changeOfMembers?_eq h
  cases hold with
  | object holds holdNames hold =>
      cases hnew with
      | object hnews hnewNames hnew =>
          have hnodup := nodup_changedNames holds hnews
          have hnames : ∀ name ∈ changedNames olds news, name ≠ Json.embeddingName := by
            intro name hname
            rcases mem_allNames.1 (List.mem_of_mem_filter hname) with hmem | hmem
            · obtain ⟨m, hm, rfl⟩ := List.mem_map.1 hmem
              exact holdNames m hm
            · obtain ⟨m, hm, rfl⟩ := List.mem_map.1 hmem
              exact hnewNames m hm
          exact ⟨isLegible_map_valueOf hold hnodup hnames, isLegible_map_valueOf hnew hnodup hnames⟩

/-- The entry of a pair can be read once its change can: its tag lies as deep as its members. -/
theorem isLegible_entryOfPair {xs ys : List Json} (hxs : xs.length ≤ Json.Numeral.maxNatural)
    (hys : ys.length ≤ Json.Numeral.maxNatural) (hold : ∀ x ∈ xs, x.IsPlain sized depth)
    (hnew : ∀ y ∈ ys, y.IsPlain sized depth) {p : Pair} (hp : p ∈ align o xs ys)
    (hc : c.IsLegible depth) : (entryOfPair o xs ys p c).IsLegible depth := by
  have hposition := position_le_of_mem_align hp hxs hys
  have htag (d : Nat) (hd : depth = d + 1) :
      (tagOf o (p.oldIn xs) (p.newIn ys) p.position).IsLegible d := by
    have hold' := isPlain_oldIn hold p
    have hnew' := isPlain_newIn hnew p
    exact (isPlain_tagOf (hd ▸ hold') (hd ▸ hnew') hposition).isLegible
  exact ⟨isLegible_withTag hc.old htag, isLegible_withTag hc.new htag⟩

/-- **The fragments of plain values can be read.**  Values whose items 64 bits can count are nested
no deeper than texts may be, and neither are their fragments. -/
theorem isLegible_change? (hold : old.IsCounted depth) (hnew : new.IsCounted depth)
    (h : change? o old new = some c) : c.IsLegible depth := by
  induction old using induct_oldIn generalizing new c depth with
  | array xs ih =>
      rcases change?_cases h with ⟨olds, news, hshape, -, -⟩ | ⟨xs', ys, hshape, rfl, hc⟩ |
        ⟨-, -, rfl⟩
      · cases hshape
      · obtain rfl := Json.array.inj hshape
        obtain ⟨es, rfl, -, rfl⟩ := changeOfItems?_eq_some hc
        cases hold with
        | @array d _ hxs hold =>
            cases hnew with
            | array hys hnew =>
                have hentry (e : Change)
                    (he : e ∈ (align o xs ys).filterMap (changeOfPair? o (sides o xs) ys)) :
                    e.IsLegible d := by
                  obtain ⟨p, hp, c, hc, rfl⟩ := mem_entries_iff.1 he
                  have hpair := ih p (isPlain_oldIn hold p) (isPlain_newIn hnew p) hc
                  exact isLegible_entryOfPair hxs hys hold hnew hp hpair
                exact ⟨.array trivial (List.forall_mem_map.2 fun e he => (hentry e he).old),
                  .array trivial (List.forall_mem_map.2 fun e he => (hentry e he).new)⟩
      · exact ⟨hold.isLegible, hnew.isLegible⟩
  | other old hne =>
      rcases change?_cases h with ⟨olds, news, rfl, rfl, hc⟩ | ⟨xs, ys, rfl, -, -⟩ | ⟨-, -, rfl⟩
      · exact isLegible_changeOfMembers? hold hnew hc
      · exact absurd rfl (hne xs)
      · exact ⟨hold.isLegible, hnew.isLegible⟩

/-- **The fragments are null where the values are**, which is on one side at most. -/
theorem isNull_change? (h : change? o old new = some c) :
    c.old.isNull = old.isNull ∧ c.new.isNull = new.isNull ∧
      (old.isNull = true → new.isNull = false) := by
  have hone : old.isNull = true → new.isNull = false := by
    intro hold
    have hsame := same_of_change? h
    cases old with
    | null =>
        cases new with
        | null => cases hsame
        | _ => rfl
    | _ => cases hold
  rcases change?_cases h with ⟨olds, news, rfl, rfl, hc⟩ | ⟨xs, ys, rfl, rfl, hc⟩ | ⟨-, -, rfl⟩
  · obtain ⟨-, rfl⟩ := changeOfMembers?_eq hc
    exact ⟨rfl, rfl, hone⟩
  · obtain ⟨es, -, -, rfl⟩ := changeOfItems?_eq_some hc
    exact ⟨rfl, rfl, hone⟩
  · exact ⟨rfl, rfl, hone⟩

end CoachLedger.Audit
