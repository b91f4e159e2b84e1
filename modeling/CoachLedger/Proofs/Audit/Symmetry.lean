/-
**The change backwards.**

The change from one value to another and the change back show the same things with the sides
exchanged.  Of objects this is plain but for the order of members, which is that of the old object
first.  Of arrays it depends on the pairs.  By position they are the same with the sides exchanged.
By identifiers the new entries lead, and yet the pairs are the same: of the entries with one
identifier the first are paired with the first, whichever side leads.  Only their order differs, and
the tags, which are taken from the new entries first.

Main definitions:

* `CoachLedger.Audit.Pair.swap` — a pair with the sides exchanged;
* `CoachLedger.Audit.Mirrors` — two changes show the same with the sides exchanged;
* `CoachLedger.Audit.positionsAt` — the number of array positions at a depth.

Main results:

* `CoachLedger.Json.same_comm` — values are equal in both directions;
* `CoachLedger.Audit.pairUp_swap_perm` — **pairing in the other direction gives the same pairs**;
* `CoachLedger.Audit.rel_change?` — there are both changes or none, and they mirror each other;
* `CoachLedger.Audit.change_isSymmetric` — **the change backwards**, with the number of positions.
-/

import CoachLedger.Proofs.Audit.Pairing
import CoachLedger.Proofs.Audit.Visible

set_option autoImplicit false

namespace CoachLedger

/-! ### Equality in both directions -/

section

variable {allowed : Json.Numeral → Prop} {v w : Json}

theorem Json.Numeral.same_comm (m n : Json.Numeral) : m.same n = n.same m := by
  cases m with
  | integer i =>
      cases n with
      | integer j => exact Bool.beq_comm
      | float y => rfl
  | float x =>
      cases n with
      | integer j => rfl
      | float y => exact Binary64.same_comm x y

/-- A value equals what equals it. -/
theorem Json.same_symm (hv : v.WellFormed allowed) (hw : w.WellFormed allowed)
    (h : v.same w = true) : w.same v = true := by
  induction hv generalizing w with
  | null => cases hw <;> first | rfl | cases h
  | bool b =>
      cases hw with
      | bool c => exact beq_iff_eq.2 (beq_iff_eq.1 h).symm
      | _ => cases h
  | number _ =>
      cases hw with
      | number _ => exact (Json.Numeral.same_comm ..).trans h
      | _ => cases h
  | string s =>
      cases hw with
      | string t => exact beq_iff_eq.2 (beq_iff_eq.1 h).symm
      | _ => cases h
  | array _ ih =>
      cases hw with
      | array hys =>
          rw [Json.same, Json.sameItems_iff] at h ⊢
          obtain ⟨hlength, hitems⟩ := List.forall₂_iff_zip.1 h
          refine List.Forall₂.flip (List.forall₂_iff_zip.2 ⟨hlength, fun {x y} hmem => ?_⟩)
          obtain ⟨hx, hy⟩ := List.of_mem_zip hmem
          exact ih x hx (hys y hy) (hitems hmem)
      | _ => cases h
  | @object ms hms _ ih =>
      cases hw with
      | @object ns hns hmembers =>
          rw [Json.same_object_iff hms hns] at h
          rw [Json.same_object_iff hns hms]
          intro name
          obtain ⟨hnone, hsome⟩ := h name
          cases hv : Json.member? ms name with
          | none =>
              rw [hnone hv]
              exact ⟨fun _ => rfl, fun w hw => by cases hw⟩
          | some v =>
              obtain ⟨w, hw, hsame⟩ := hsome v hv
              have hback :=
                ih _ (Json.mem_of_member? hv) (hmembers _ (Json.mem_of_member? hw)) hsame
              rw [hw]
              refine ⟨fun h => absurd h (Option.some_ne_none w), fun w' hw' => ⟨v, rfl, ?_⟩⟩
              rwa [← Option.some.inj hw']
      | _ => cases h

/-- **Values are equal in both directions.** -/
theorem Json.same_comm (hv : v.WellFormed allowed) (hw : w.WellFormed allowed) :
    v.same w = w.same v :=
  Bool.eq_iff_iff.2 ⟨Json.same_symm hv hw, Json.same_symm hw hv⟩

end

namespace Audit

/-! ### Pairs in the other direction -/

section

variable {α κ : Type} [BEq κ] {key : α → κ} {olds news : List α}

theorem sideBySide_swap (olds news : List α) :
    (sideBySide olds news).map Prod.swap = sideBySide news olds := by
  induction olds generalizing news with
  | nil =>
      rw [sideBySide_nil_left, sideBySide_nil_right, List.map_map]
      rfl
  | cons a olds ih =>
      cases news with
      | nil =>
          rw [sideBySide_nil_left, sideBySide_nil_right, List.map_map]
          rfl
      | cons b news =>
          rw [sideBySide_cons_cons, sideBySide_cons_cons, List.map_cons, ih]
          rfl

variable [LawfulBEq κ]

/-- The key of a pair is that of either side. -/
theorem hasKey_swap (k : κ) {p : Option α × Option α} (h : p ∈ pairUp key olds news) :
    hasKey key k p.swap = hasKey key k p := by
  obtain ⟨_ | a, _ | b⟩ := p
  · rfl
  · rfl
  · rfl
  · simp [hasKey, key_eq_of_mem_pairUp h]

/-- **Pairing in the other direction gives the same pairs** with the sides exchanged, in another
order. -/
theorem pairUp_swap_perm (key : α → κ) (olds news : List α) :
    ((pairUp key olds news).map Prod.swap).Perm (pairUp key news olds) := by
  refine perm_of_filter_hasKey key (List.forall_mem_map.2 fun p hp => ?_)
    (fun p => exists_hasKey) fun k => ?_
  · obtain ⟨k, hk⟩ := exists_hasKey hp
    exact ⟨k, (hasKey_swap k hp).trans hk⟩
  · -- The entries with one key stand side by side, in both directions.
    have hkeys : ∀ p ∈ pairUp key olds news, (hasKey key k ∘ Prod.swap) p = hasKey key k p :=
      fun p hp => hasKey_swap k hp
    rw [List.filter_map, List.filter_congr hkeys, filter_pairUp, sideBySide_swap, filter_pairUp]

end

variable {o : Options} {xs ys : List Json} {olds news : List (String × Json)} {old new : Json}
  {c d : Change}

/-- The pair with the sides exchanged. -/
def Pair.swap (p : Pair) : Pair := ⟨p.new, p.old⟩

/-- By position the pairs are the same in the other direction. -/
theorem align_swap (h : o.alignment = .positional) :
    (align o xs ys).map Pair.swap = align o ys xs := by
  rw [align, align, h, alignByPosition, alignByPosition, List.map_map, Nat.max_comm]
  rfl

/-- **The pairs are the same in the other direction**, up to their order. -/
theorem align_swap_perm (o : Options) (xs ys : List Json) :
    ((align o xs ys).map Pair.swap).Perm (align o ys xs) := by
  cases h : o.alignment with
  | positional => exact List.Perm.of_eq (align_swap h)
  | byIdentity =>
      have hpairs := (pairUp_swap_perm Prod.snd (identified o xs) (identified o ys)).map
        fun p => (⟨p.1.map Prod.fst, p.2.map Prod.fst⟩ : Pair)
      rw [align, align, h]
      dsimp only
      rw [alignByIdentifier_eq, alignByIdentifier_eq, List.map_map]
      rwa [List.map_map] at hpairs

/-! ### Changes that mirror each other -/

/-- The change with a tag on both sides. -/
def Change.tagged (tag : Json) (c : Change) : Change :=
  ⟨withTag tag c.old, withTag tag c.new⟩

mutual

/-- Two changes show the same with the sides exchanged, up to the order of members, to the tags of
entries and, unless they are paired by position, to the order of entries. -/
inductive Mirrors (o : Options) : Change → Change → Prop
  /-- Two values as a whole, which are not both objects or both arrays. -/
  | whole {x y : Json} (objects : ∀ ms ns, ¬(x = .object ms ∧ y = .object ns))
      (arrays : ∀ xs ys, ¬(x = .array xs ∧ y = .array ys)) : Mirrors o ⟨x, y⟩ ⟨y, x⟩
  | members {ms ns ms' ns' : List (String × Json)} (old : ms'.Perm ms) (new : ns'.Perm ns) :
      Mirrors o ⟨.object ms, .object ns⟩ ⟨.object ns', .object ms'⟩
  | entries {es fs fs' : List Change} (h : List.Forall₂ (MirrorsEntry o) es fs')
      (perm : fs'.Perm fs) (order : o.alignment = .positional → fs' = fs) :
      Mirrors o ⟨.array (es.map Change.old), .array (es.map Change.new)⟩
        ⟨.array (fs.map Change.old), .array (fs.map Change.new)⟩

/-- Two entries are changes that mirror each other, each with a tag. -/
inductive MirrorsEntry (o : Options) : Change → Change → Prop
  | tagged {c d : Change} (s t : Json) (h : Mirrors o c d) :
      MirrorsEntry o (c.tagged s) (d.tagged t)

end

/-! ### Values as a whole -/

theorem change?_of_ne (ho : ∀ olds news, ¬(old = .object olds ∧ new = .object news))
    (ha : ∀ xs ys, ¬(old = .array xs ∧ new = .array ys)) :
    change? o old new = if old.same new then none else some ⟨old, new⟩ := by
  unfold change?
  split
  · rfl
  · split
    · exact absurd ⟨rfl, rfl⟩ (ha _ _)
    · exact absurd ⟨rfl, rfl⟩ (ho _ _)
    · rfl

theorem rel_ite {same : Bool} {a b : Option Change} (h : Option.Rel (Mirrors o) a b) :
    Option.Rel (Mirrors o) (if same then none else a) (if same then none else b) := by
  cases same with
  | true => exact .none
  | false => exact h

/-- Values of different shapes are shown as a whole in both directions. -/
theorem rel_change?_whole (hold : old.IsProper) (hnew : new.IsProper)
    (ho : ∀ olds news, ¬(old = .object olds ∧ new = .object news))
    (ha : ∀ xs ys, ¬(old = .array xs ∧ new = .array ys)) :
    Option.Rel (Mirrors o) (change? o old new) (change? o new old) := by
  rw [change?_of_ne ho ha, change?_of_ne (fun ms ns h => ho ns ms h.symm)
    (fun xs ys h => ha ys xs h.symm), Json.same_comm hold hnew]
  exact rel_ite (.some (.whole ho ha))

/-! ### Objects -/

theorem nodup_changedNames (holds : (olds.map Prod.fst).Nodup)
    (hnews : (news.map Prod.fst).Nodup) : (changedNames olds news).Nodup := by
  refine List.Nodup.filter _ (holds.append (hnews.filter _) fun name hold hnew => ?_)
  have hfresh := (List.mem_filter.1 hnew).2
  rw [List.contains_iff_mem.2 hold] at hfresh
  cases hfresh

/-- The same names are changed in both directions. -/
theorem changedNames_perm (holds : (olds.map Prod.fst).Nodup) (hnews : (news.map Prod.fst).Nodup) :
    (changedNames news olds).Perm (changedNames olds news) := by
  refine (List.perm_ext_iff_of_nodup (nodup_changedNames hnews holds)
    (nodup_changedNames holds hnews)).2 fun name => ?_
  rw [mem_changedNames, mem_changedNames, ne_comm]

theorem rel_changeOfMembers? (holds : (olds.map Prod.fst).Nodup)
    (hnews : (news.map Prod.fst).Nodup) :
    Option.Rel (Mirrors o) (changeOfMembers? olds news) (changeOfMembers? news olds) := by
  have hperm := changedNames_perm holds hnews
  unfold changeOfMembers?
  generalize changedNames olds news = names at hperm
  generalize changedNames news olds = names' at hperm
  cases names with
  | nil =>
      rw [hperm.eq_nil]
      exact .none
  | cons name names =>
      cases names' with
      | nil => exact absurd hperm.symm.eq_nil (List.cons_ne_nil name names)
      | cons name' names' => exact .some (.members (hperm.map _) (hperm.map _))

/-! ### Arrays -/

theorem rel_ofEntries? {es fs fs' : List Change} (h : List.Forall₂ (MirrorsEntry o) es fs')
    (perm : fs'.Perm fs) (order : o.alignment = .positional → fs' = fs) :
    Option.Rel (Mirrors o) (ofEntries? es) (ofEntries? fs) := by
  cases h with
  | nil =>
      rw [perm.symm.eq_nil]
      exact .none
  | cons he hes =>
      cases fs with
      | nil => exact absurd perm.eq_nil (List.cons_ne_nil _ _)
      | cons f fs => exact .some (.entries (.cons he hes) perm order)

/-- The changes between two arrays mirror each other if those of each pair do. -/
theorem rel_changeOfItems?
    (h : ∀ p : Pair, Option.Rel (Mirrors o) (change? o (p.oldIn xs) (p.newIn ys))
      (change? o (p.newIn ys) (p.oldIn xs))) :
    Option.Rel (Mirrors o) (changeOfItems? o (sides o xs) ys)
      (changeOfItems? o (sides o ys) xs) := by
  have hentry (p q : Pair) (hq : q = p.swap) : Option.Rel (MirrorsEntry o)
      (changeOfPair? o (sides o xs) ys p) (changeOfPair? o (sides o ys) xs q) := by
    rw [changeOfPair?_sides, changeOfPair?_sides, hq]
    have hp := h p
    change Option.Rel _ _ ((change? o (p.newIn ys) (p.oldIn xs)).map _)
    generalize change? o (p.oldIn xs) (p.newIn ys) = a at hp
    generalize change? o (p.newIn ys) (p.oldIn xs) = b at hp
    cases hp with
    | none => exact .none
    | some hcd => exact .some (.tagged _ _ hcd)
  have hpairs : List.Forall₂ (fun p q => q = p.swap) (align o xs ys)
      ((align o xs ys).map Pair.swap) :=
    List.forall₂_map_right_iff.2 (List.forall₂_same.2 fun _ _ => rfl)
  rw [changeOfItems?_eq, changeOfItems?_eq]
  refine rel_ofEntries? (List.rel_filterMap (fun {p q} => hentry p q) hpairs)
    ((align_swap_perm o xs ys).filterMap _) fun hposition => ?_
  rw [align_swap hposition]

/-! ### The change in both directions -/

/-- **There are both changes or none, and they mirror each other.** -/
theorem rel_change? (hold : old.IsProper) (hnew : new.IsProper) :
    Option.Rel (Mirrors o) (change? o old new) (change? o new old) := by
  induction old using induct_oldIn generalizing new with
  | array xs ih =>
      cases new with
      | array ys =>
          unfold change?
          rw [Json.same_comm hold hnew]
          refine rel_ite (rel_changeOfItems? fun p => ih p ?_ ?_)
          · exact wellFormed_oldIn (Json.wellFormed_array_iff.1 hold) p
          · exact wellFormed_newIn (Json.wellFormed_array_iff.1 hnew) p
      | _ => exact rel_change?_whole hold hnew (by simp) (by simp)
  | other old hne =>
      by_cases hobj : ∃ olds news, old = .object olds ∧ new = .object news
      · obtain ⟨olds, news, rfl, rfl⟩ := hobj
        unfold change?
        rw [Json.same_comm hold hnew]
        exact rel_ite (rel_changeOfMembers? (Json.wellFormed_object_iff.1 hold).1
          (Json.wellFormed_object_iff.1 hnew).1)
      · exact rel_change?_whole hold hnew (fun ms ns h => hobj ⟨ms, ns, h⟩)
          fun xs ys h => hne xs h.1

/-! ### Positions -/

/-- The number of array positions at a depth of two fragments, side by side. -/
def positionsAt : Nat → Json → Json → Nat
  | 0, .array xs, .array _ => xs.length
  | depth + 1, .array xs, .array ys =>
      ((xs.zip ys).map fun p => positionsAt depth p.1 p.2).sum
  | _, _, _ => 0

theorem positionsAt_of_ne {x y : Json} (h : ∀ xs ys, ¬(x = .array xs ∧ y = .array ys))
    (depth : Nat) : positionsAt depth x y = 0 := by
  unfold positionsAt
  split
  · exact absurd ⟨rfl, rfl⟩ (h _ _)
  · exact absurd ⟨rfl, rfl⟩ (h _ _)
  · rfl

/-- A tag adds no position. -/
theorem positionsAt_tagged (depth : Nat) (tag : Json) (c : Change) :
    positionsAt depth (c.tagged tag).old (c.tagged tag).new = positionsAt depth c.old c.new := by
  obtain ⟨old, new⟩ := c
  by_cases h : ∃ xs ys, old = .array xs ∧ new = .array ys
  · obtain ⟨xs, ys, rfl, rfl⟩ := h
    rfl
  · have hne : ∀ xs ys, ¬(old = .array xs ∧ new = .array ys) := fun xs ys hxy => h ⟨xs, ys, hxy⟩
    rw [positionsAt_of_ne hne]
    exact positionsAt_of_ne (fun xs ys hxy =>
      hne xs ys ⟨withTag_eq_array hxy.1, withTag_eq_array hxy.2⟩) depth

theorem positionsAt_entries (depth : Nat) (es : List Change) :
    positionsAt (depth + 1) (.array (es.map Change.old)) (.array (es.map Change.new)) =
      (es.map fun e => positionsAt depth e.old e.new).sum := by
  rw [positionsAt, List.zip_map', List.map_map]
  rfl

/-- **Changes that mirror each other have as many positions at each depth.** -/
theorem Mirrors.positionsAt_eq (h : Mirrors o c d) (depth : Nat) :
    positionsAt depth c.old c.new = positionsAt depth d.old d.new := by
  induction depth generalizing c d with
  | zero =>
      cases h with
      | whole objects arrays =>
          rw [positionsAt_of_ne arrays, positionsAt_of_ne fun xs ys h => arrays ys xs h.symm]
      | members old new => rfl
      | entries h perm order => simp [positionsAt, h.length_eq, perm.length_eq]
  | succ depth ih =>
      cases h with
      | whole objects arrays =>
          rw [positionsAt_of_ne arrays, positionsAt_of_ne fun xs ys h => arrays ys xs h.symm]
      | members old new => rfl
      | @entries es fs fs' h perm order =>
          have hentries : (es.map fun e => positionsAt depth e.old e.new) =
              fs'.map fun e => positionsAt depth e.old e.new := by
            rw [← List.forall₂_eq_eq_eq, List.forall₂_map_left_iff, List.forall₂_map_right_iff]
            refine h.imp fun e f hef => ?_
            cases hef with
            | tagged s t hcd => rw [positionsAt_tagged, positionsAt_tagged, ih hcd]
          rw [positionsAt_entries, positionsAt_entries, hentries]
          exact (perm.map _).sum_eq

/-- **The change backwards.**  There is no change between two values if there is none back.  Else
the two changes show the same with the sides exchanged, and have as many positions at each depth. -/
theorem change_isSymmetric (hold : old.IsProper) (hnew : new.IsProper) :
    (change? o old new = none ↔ change? o new old = none) ∧
    ∀ c d, change? o old new = some c → change? o new old = some d →
      Mirrors o c d ∧ ∀ depth, positionsAt depth c.old c.new = positionsAt depth d.old d.new := by
  have hrel : Option.Rel (Mirrors o) (change? o old new) (change? o new old) :=
    rel_change? hold hnew
  refine ⟨?_, fun c d hc hd => ?_⟩
  · generalize change? o old new = a at hrel
    generalize change? o new old = b at hrel
    cases hrel with
    | none => exact Iff.rfl
    | some _ => exact iff_of_false (Option.some_ne_none _) (Option.some_ne_none _)
  · rw [hc, hd] at hrel
    cases hrel with
    | some hcd => exact ⟨hcd, hcd.positionsAt_eq⟩

/-- A list of coaches. -/
def coaches (numbers : List String) : Json :=
  .array (numbers.map fun number => .object [(CoachLedger.identityField, .string number)])

theorem isProper_coaches (numbers : List String) : (coaches numbers).IsProper := by
  simp [coaches, Json.wellFormed_array_iff, Json.wellFormed_object_iff, Json.WellFormed.string]

/-- One coach is replaced by another one, whatever the direction. -/
theorem change_isSymmetric_coaches :
    let o : Options := ⟨CoachLedger.identityField, .byIdentity⟩
    let old := coaches ["A", "B"]
    let new := coaches ["B", "C"]
    (old.IsProper ∧ new.IsProper) ∧ ∃ c d, change? o old new = some c ∧
      change? o new old = some d ∧ Mirrors o c d ∧ positionsAt 0 c.old c.new = 2 ∧
      positionsAt 0 d.old d.new = 2 := by
  intro o old new
  have hold : old.IsProper := isProper_coaches _
  have hnew : new.IsProper := isProper_coaches _
  obtain ⟨-, hmirrors⟩ := change_isSymmetric (o := o) hold hnew
  have hthere : (change? o old new).isSome = true := rfl
  have hback : (change? o new old).isSome = true := rfl
  obtain ⟨c, hc⟩ := Option.isSome_iff_exists.1 hthere
  obtain ⟨d, hd⟩ := Option.isSome_iff_exists.1 hback
  obtain ⟨hcd, hpositions⟩ := hmirrors c d hc hd
  have htwo : positionsAt 0 c.old c.new = 2 := by
    obtain rfl := Option.some.inj hc
    rfl
  exact ⟨⟨hold, hnew⟩, c, d, hc, hd, hcd, htwo, hpositions 0 ▸ htwo⟩

end Audit

end CoachLedger
