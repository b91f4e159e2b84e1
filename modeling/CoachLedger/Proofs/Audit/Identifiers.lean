/-
**Entries that are known by their identifiers.**

If each entry of two arrays has an identifier, and no two of one array have the same, the alignment
by identifiers makes the order of the entries immaterial.  An identifier is then in at most one
pair, which depends on nothing but the entries that have it, and so does the tag of the pair.

Here too the two zeros are in the way: they count as equal, but as identifiers they differ.  Arrays
that count as equal have no change, in whatever pairs their entries would be.  So what is stated is
about arrays that do not count as equal, or all of whose zeros have the same sign.

Main definitions:

* `CoachLedger.Audit.IsIdentified` — each entry has an identifier of its own;
* `CoachLedger.Audit.ShowsIdentifier` — what is shown for an identifier;
* `CoachLedger.Audit.ListsIdentifiers` — the entries that show each identifier that has a change;
* `CoachLedger.Audit.HasEntries` — the change between two arrays has the given entries.

Main results:

* `CoachLedger.Audit.mem_pairUp_iff` — the pair of a key;
* `CoachLedger.Audit.pairUp_perm` — **the order does not matter for the pairs** of entries with
  different keys;
* `CoachLedger.Audit.change_ignoresOrder` — **nor does it for the change** between two arrays.
-/

import CoachLedger.Proofs.Audit.Pairing
import CoachLedger.Proofs.Audit.Records
import CoachLedger.Proofs.Audit.Visible

set_option autoImplicit false

namespace CoachLedger.Audit

/-! ### Pairs of entries with different keys -/

section

variable {α κ : Type} [BEq κ] [LawfulBEq κ] {key : α → κ} {l olds news : List α}

theorem find?_key_eq_some (hnodup : (l.map key).Nodup) {k : κ} {a : α} :
    (l.find? fun a => key a == k) = some a ↔ a ∈ l ∧ key a = k := by
  constructor
  · intro h
    exact ⟨List.mem_of_find?_eq_some h,
      beq_iff_eq.1 (List.find?_some (p := fun a => key a == k) h)⟩
  · rintro ⟨ha, rfl⟩
    cases hfind : l.find? fun b => key b == key a with
    | none => exact absurd (beq_self_eq_true (key a)) (List.find?_eq_none.1 hfind a ha)
    | some b =>
        have hb := beq_iff_eq.1 (List.find?_some (p := fun b => key b == key a) hfind)
        rw [List.inj_on_of_nodup_map hnodup (List.mem_of_find?_eq_some hfind) ha hb]

theorem filter_key_eq (hnodup : (l.map key).Nodup) (k : κ) :
    (l.filter fun a => key a == k) = (l.find? fun a => key a == k).toList := by
  cases hfind : l.find? fun a => key a == k with
  | none => exact List.filter_eq_nil_iff.2 (List.find?_eq_none.1 hfind)
  | some a =>
      have hothers : ∀ b ∈ l.filter fun b => key b != key a, ¬(key b == k) = true := by
        intro b hb
        rw [← ((find?_key_eq_some hnodup).1 hfind).2, beq_iff_eq]
        exact bne_iff_ne.1 (List.mem_filter.1 hb).2
      rw [filter_eq_cons_of_find? hfind, eraseP_eq_filter hnodup hfind,
        List.filter_eq_nil_iff.2 hothers]
      rfl

/-- The order does not matter for what is found by a key. -/
theorem find?_key_perm {l' : List α} (hnodup : (l.map key).Nodup) (hperm : l'.Perm l) (k : κ) :
    (l'.find? fun a => key a == k) = l.find? fun a => key a == k := by
  have hnodup' : (l'.map key).Nodup := (hperm.map key).nodup_iff.2 hnodup
  refine Option.ext fun a => ?_
  rw [find?_key_eq_some hnodup', find?_key_eq_some hnodup, hperm.mem_iff]

/-- Two entries that may be missing, side by side. -/
theorem mem_sideBySide_toList {a b : Option α} {p : Option α × Option α} :
    p ∈ sideBySide a.toList b.toList ↔ p ≠ (none, none) ∧ p = (a, b) := by
  have hpair (hne : (a, b) ≠ (none, none)) : p ∈ [(a, b)] ↔ p ≠ (none, none) ∧ p = (a, b) := by
    rw [List.mem_singleton, iff_and_self]
    rintro rfl
    exact hne
  cases a with
  | none =>
      cases b with
      | none => exact iff_of_false List.not_mem_nil fun h => h.1 h.2
      | some b => exact hpair (by simp)
  | some a =>
      cases b with
      | none => exact hpair (by simp)
      | some b => exact hpair (by simp)

theorem length_sideBySide_toList (a b : Option α) :
    (sideBySide a.toList b.toList).length ≤ 1 := by
  cases a <;> cases b <;> simp [sideBySide]

section

variable (holds : (olds.map key).Nodup) (hnews : (news.map key).Nodup)
include holds hnews

/-- A key is in at most one pair. -/
theorem filter_pairUp_of_nodup (k : κ) :
    (pairUp key olds news).filter (hasKey key k) =
      sideBySide (olds.find? fun a => key a == k).toList
        (news.find? fun b => key b == k).toList := by
  rw [filter_pairUp, filter_key_eq holds, filter_key_eq hnews]

/-- **The pair of a key** is made up of the entries that have it. -/
theorem mem_pairUp_iff {p : Option α × Option α} {k : κ} :
    p ∈ pairUp key olds news ∧ hasKey key k p = true ↔
      p ≠ (none, none) ∧
        p = (olds.find? fun a => key a == k, news.find? fun b => key b == k) := by
  rw [← List.mem_filter, filter_pairUp_of_nodup holds hnews, mem_sideBySide_toList]

/-- **The order does not matter for the pairs** of entries with different keys. -/
theorem pairUp_perm {olds' news' : List α} (hold : olds'.Perm olds) (hnew : news'.Perm news) :
    (pairUp key olds' news').Perm (pairUp key olds news) := by
  have holds' : (olds'.map key).Nodup := (hold.map key).nodup_iff.2 holds
  have hnews' : (news'.map key).Nodup := (hnew.map key).nodup_iff.2 hnews
  refine perm_of_filter_hasKey key (fun p => exists_hasKey) (fun p => exists_hasKey) fun k => ?_
  rw [filter_pairUp_of_nodup holds' hnews', filter_pairUp_of_nodup holds hnews,
    find?_key_perm holds hold, find?_key_perm hnews hnew]

/-- Pairs have different keys. -/
theorem nodup_keys_pairUp {f : Option α × Option α → κ}
    (hf : ∀ p ∈ pairUp key olds news, ∀ k, hasKey key k p = true ↔ f p = k) :
    ((pairUp key olds news).map f).Nodup := by
  rw [List.nodup_iff_count_le_one]
  intro k
  have hcount : ((pairUp key olds news).map f).count k =
      ((pairUp key olds news).filter (hasKey key k)).length := by
    rw [List.count_eq_countP, List.countP_map, ← List.countP_eq_length_filter]
    refine List.countP_congr fun p hp => ?_
    rw [hf p hp k, Function.comp_apply, beq_iff_eq]
  rw [hcount, filter_pairUp_of_nodup holds hnews]
  exact length_sideBySide_toList _ _

end

end

/-! ### Identifiers -/

variable {o : Options} {xs ys : List Json} {negative : Bool}

/-- Each entry has an identifier, and no two have the same. -/
structure IsIdentified (o : Options) (xs : List Json) : Prop where
  identified : ∀ x ∈ xs, ∃ k, identifier? o x = some k
  distinct : (xs.map (identifier? o)).Nodup

theorem IsIdentified.perm {xs' : List Json} (h : IsIdentified o xs) (hperm : xs'.Perm xs) :
    IsIdentified o xs' where
  identified x hx := h.identified x (hperm.subset hx)
  distinct := (hperm.map _).nodup_iff.2 h.distinct

/-- The member of an entry that identifies it, with its own members sorted. -/
theorem map_sorted_present? (members : List (String × Json)) (name : String) :
    (present? (.object members) name).map Json.sorted =
      ((Json.member? members name).map Json.sorted).filter fun v => !v.isNull := by
  rw [present?]
  cases Json.member? members name with
  | none => rfl
  | some v => cases v <;> rfl

/-- Entries with the same sorted members have the same identifier. -/
theorem identifier?_eq_of_sorted_eq {x y : Json} (hx : x.IsProper) (hy : y.IsProper)
    (h : x.sorted = y.sorted) : identifier? o x = identifier? o y := by
  have hpresent (name : String) :
      (present? x name).map Json.sorted = (present? y name).map Json.sorted := by
    cases hx with
    | object hms _ =>
        cases hy with
        | object hns _ =>
            rw [map_sorted_present?, map_sorted_present?, (Json.sorted_object_iff hms hns).1 h name]
        | _ => cases h
    | _ =>
        cases hy with
        | object _ _ => cases h
        | _ => rfl
  have hidentifier (z : Json) : identifier? o z =
      (((present? z o.identityField).map Json.sorted).or
        ((present? z fallbackField).map Json.sorted)).map Json.text := by
    rw [← Option.map_or, Option.map_map]
    rfl
  rw [hidentifier, hidentifier, hpresent, hpresent]

/-- The tag of two entries with one identifier is what identifies them, whatever their position. -/
theorem exists_tagOf {old new : Json} {k : String} (hold : ∀ l ∈ identifier? o old, l = k)
    (hnew : ∀ l ∈ identifier? o new, l = k)
    (h : identifier? o old = some k ∨ identifier? o new = some k) :
    ∃ tag : Json, tag.canonical = k ∧ ∀ position, tagOf o old new position = tag := by
  unfold identifier? at hold hnew h
  unfold tagOf
  dsimp only
  -- The chosen member goes before `id`, and the new entry before the old one.
  cases ha : present? new o.identityField with
  | some a => exact ⟨a, hnew _ (by rw [ha]; rfl), fun _ => rfl⟩
  | none =>
      cases hb : present? old o.identityField with
      | some b => exact ⟨b, hold _ (by rw [hb]; rfl), fun _ => rfl⟩
      | none =>
          rw [ha] at hnew h
          rw [hb] at hold h
          cases hc : present? new fallbackField with
          | some c => exact ⟨c, hnew _ (by rw [hc]; rfl), fun _ => rfl⟩
          | none =>
              cases hd : present? old fallbackField with
              | some d => exact ⟨d, hold _ (by rw [hd]; rfl), fun _ => rfl⟩
              | none =>
                  rw [hc, hd] at h
                  rcases h with h | h <;> cases h

/-! ### What is shown for an identifier -/

/-- What the change between two arrays shows for an identifier: the new entry, if no old one has the
identifier; the old entry, if no new one has it; or else the change of the two, if there is one. -/
inductive ShowsIdentifier (o : Options) (xs ys : List Json) (k : String) : Change → Prop
  | added {y tag : Json} (hy : y ∈ ys) (hkey : identifier? o y = some k)
      (hxs : ∀ x ∈ xs, identifier? o x ≠ some k) (htag : tag.canonical = k) :
      ShowsIdentifier o xs ys k ⟨.null, withTag tag y⟩
  | removed {x tag : Json} (hx : x ∈ xs) (hkey : identifier? o x = some k)
      (hys : ∀ y ∈ ys, identifier? o y ≠ some k) (htag : tag.canonical = k) :
      ShowsIdentifier o xs ys k ⟨withTag tag x, .null⟩
  | changed {x y tag : Json} {c : Change} (hx : x ∈ xs) (hy : y ∈ ys)
      (hold : identifier? o x = some k) (hnew : identifier? o y = some k)
      (hc : change? o x y = some c) (htag : tag.canonical = k) :
      ShowsIdentifier o xs ys k ⟨withTag tag c.old, withTag tag c.new⟩

/-- The entries show one change for each identifier that has one. -/
def ListsIdentifiers (o : Options) (xs ys : List Json) (es : List Change) : Prop :=
  ∃ keys : List String, keys.Nodup ∧ List.Forall₂ (ShowsIdentifier o xs ys) keys es ∧
    ∀ k e, ShowsIdentifier o xs ys k e → k ∈ keys

/-- What is shown for a pair of entries, a missing one being null. -/
def entryOf? (o : Options) (p : Option Json × Option Json) : Option Change :=
  entryAt? o (p.1.getD .null) (p.2.getD .null) 0

/-- The identifier of a pair. -/
def identifierOf (o : Options) (p : Option Json × Option Json) : Option String :=
  (p.2.or p.1).bind (identifier? o)

/-- The pair is made up of the entries with the identifier. -/
structure IsPairOf (o : Options) (xs ys : List Json) (k : String)
    (p : Option Json × Option Json) : Prop where
  old : ∀ x, p.1 = some x ↔ x ∈ xs ∧ identifier? o x = some k
  new : ∀ y, p.2 = some y ↔ y ∈ ys ∧ identifier? o y = some k
  ne_none : p ≠ (none, none)

variable {p : Option Json × Option Json} {k : String}

namespace IsPairOf

theorem identifierOf_eq (h : IsPairOf o xs ys k p) : identifierOf o p = some k := by
  obtain ⟨a, b⟩ := p
  cases b with
  | some y => exact ((h.new y).1 rfl).2
  | none =>
      cases a with
      | some x => exact ((h.old x).1 rfl).2
      | none => exact absurd rfl h.ne_none

/-- The tag of the pair is its identifier, whatever its position. -/
theorem exists_tag (h : IsPairOf o xs ys k p) : ∃ tag : Json, tag.canonical = k ∧
    ∀ position, tagOf o (p.1.getD .null) (p.2.getD .null) position = tag := by
  have hown {l : List Json} {a : Option Json}
      (ha : ∀ z, a = some z ↔ z ∈ l ∧ identifier? o z = some k) :
      ∀ i ∈ identifier? o (a.getD .null), i = k := by
    intro i hi
    cases a with
    | none => cases hi
    | some z => exact Option.some.inj (Eq.trans (Eq.symm hi) ((ha z).1 rfl).2)
  refine exists_tagOf (hown h.old) (hown h.new) ?_
  obtain ⟨z, hz, hkey⟩ := Option.bind_eq_some_iff.1 h.identifierOf_eq
  rcases Option.or_eq_some_iff.1 hz with hz | ⟨-, hz⟩
  · exact .inr (by rw [hz]; exact hkey)
  · exact .inl (by rw [hz]; exact hkey)

/-- The entry of the pair does not depend on its position. -/
theorem entryAt?_eq (h : IsPairOf o xs ys k p) (position : Nat) :
    entryAt? o (p.1.getD .null) (p.2.getD .null) position = entryOf? o p := by
  obtain ⟨tag, -, htag⟩ := h.exists_tag
  rw [entryOf?, entryAt?, entryAt?, htag, htag]

/-- The entry of the pair is what is shown for its identifier. -/
theorem showsIdentifier (h : IsPairOf o xs ys k p) {e : Change} (he : entryOf? o p = some e) :
    ShowsIdentifier o xs ys k e := by
  obtain ⟨tag, htag, heq⟩ := h.exists_tag
  obtain ⟨c, hc, rfl⟩ := Option.map_eq_some_iff.1 he
  rw [heq]
  obtain ⟨a, b⟩ := p
  cases a with
  | none =>
      cases b with
      | none => exact absurd rfl h.ne_none
      | some y =>
          obtain ⟨hy, hkey⟩ := (h.new y).1 rfl
          have hxs : ∀ x ∈ xs, identifier? o x ≠ some k := fun x hx hkey =>
            Option.some_ne_none x ((h.old x).2 ⟨hx, hkey⟩).symm
          obtain ⟨hold, hnew⟩ : c.old = .null ∧ c.new = y := by
            rw [Option.getD_none, Option.getD_some, change?_null, appearance?] at hc
            split at hc
            · cases hc
            · obtain rfl := Option.some.inj hc
              exact ⟨rfl, rfl⟩
          rw [hold, hnew]
          exact .added hy hkey hxs htag
  | some x =>
      obtain ⟨hx, hkey⟩ := (h.old x).1 rfl
      cases b with
      | none =>
          have hys : ∀ y ∈ ys, identifier? o y ≠ some k := fun y hy hkey =>
            Option.some_ne_none y ((h.new y).2 ⟨hy, hkey⟩).symm
          rcases change?_cases hc with ⟨_, _, -, hnull, -⟩ | ⟨_, _, -, hnull, -⟩ | ⟨-, -, rfl⟩
          · cases hnull
          · cases hnull
          · exact .removed hx hkey hys htag
      | some y =>
          obtain ⟨hy, hnew⟩ := (h.new y).1 rfl
          exact .changed hx hy hkey hnew hc htag

end IsPairOf

section

variable (hxs : IsIdentified o xs) (hys : IsIdentified o ys)
include hxs hys

/-- **The pairs are those of the identifiers.** -/
theorem mem_pairUp_identifier_iff :
    p ∈ pairUp (identifier? o) xs ys ↔ ∃ k, IsPairOf o xs ys k p := by
  have hfound {l : List Json} (hl : IsIdentified o l) (i : Option String) (x : Json) :
      (l.find? fun a => identifier? o a == i) = some x ↔ x ∈ l ∧ identifier? o x = i :=
    find?_key_eq_some hl.distinct
  constructor
  · intro hp
    obtain ⟨i, hi⟩ := exists_hasKey hp
    obtain ⟨hne, rfl⟩ := (mem_pairUp_iff hxs.distinct hys.distinct).1 ⟨hp, hi⟩
    -- The key is one of an entry, so it is not missing.
    obtain ⟨k, rfl⟩ : ∃ k, i = some k := by
      rw [hasKey, Option.any_eq_true] at hi
      obtain ⟨a, ha, hkey⟩ := hi
      rw [← beq_iff_eq.1 hkey]
      rcases Option.or_eq_some_iff.1 ha with ha | ⟨-, ha⟩
      · exact hys.identified a ((hfound hys _ _).1 ha).1
      · exact hxs.identified a ((hfound hxs _ _).1 ha).1
    exact ⟨k, hfound hxs _, hfound hys _, hne⟩
  · rintro ⟨k, hold, hnew, hne⟩
    refine ((mem_pairUp_iff (k := some k) hxs.distinct hys.distinct).2 ⟨hne, ?_⟩).1
    refine Prod.ext (Option.ext fun x => ?_) (Option.ext fun y => ?_)
    · rw [hold, hfound hxs]
    · rw [hnew, hfound hys]

/-- An identifier for which something is shown has a pair with an entry. -/
theorem ShowsIdentifier.exists_pair {e : Change} (h : ShowsIdentifier o xs ys k e) :
    ∃ p, IsPairOf o xs ys k p ∧ (entryOf? o p).isSome = true := by
  have hunique {l : List Json} (hl : IsIdentified o l) {x : Json} (hx : x ∈ l)
      (hkey : identifier? o x = some k) (z : Json) :
      some x = some z ↔ z ∈ l ∧ identifier? o z = some k := by
    rw [Option.some.injEq]
    constructor
    · rintro rfl
      exact ⟨hx, hkey⟩
    · rintro ⟨hz, hzkey⟩
      exact List.inj_on_of_nodup_map hl.distinct hx hz (hkey.trans hzkey.symm)
  have hnone {l : List Json} (hl : ∀ x ∈ l, identifier? o x ≠ some k) (z : Json) :
      none = some z ↔ z ∈ l ∧ identifier? o z = some k :=
    iff_of_false (fun h => Option.some_ne_none z h.symm) fun h => hl z h.1 h.2
  cases h with
  | @added y tag hy hkey hnot htag =>
      refine ⟨(none, some y), ⟨hnone hnot, hunique hys hy hkey, by simp⟩, ?_⟩
      rw [entryOf?, entryAt?, Option.isSome_map, Option.getD_none, Option.getD_some, change?_null]
      cases y with
      | null => cases hkey
      | _ => rfl
  | @removed x tag hx hkey hnot htag =>
      refine ⟨(some x, none), ⟨hunique hxs hx hkey, hnone hnot, by simp⟩, ?_⟩
      rw [entryOf?, entryAt?, Option.isSome_map, Option.getD_none, Option.getD_some]
      cases x with
      | null => cases hkey
      | _ => rfl
  | @changed x y tag c hx hy hold hnew hc htag =>
      refine ⟨(some x, some y), ⟨hunique hxs hx hold, hunique hys hy hnew, by simp⟩, ?_⟩
      rw [entryOf?, entryAt?, Option.isSome_map, Option.getD_some, Option.getD_some, hc]
      rfl

/-- **The entries of the pairs show one change for each identifier that has one.** -/
theorem listsIdentifiers_pairUp :
    ListsIdentifiers o xs ys ((pairUp (identifier? o) xs ys).filterMap (entryOf? o)) := by
  let kept := (pairUp (identifier? o) xs ys).filter fun p => (entryOf? o p).isSome
  have hkept : ∀ p ∈ kept, ∃ k, IsPairOf o xs ys k p := fun p hp =>
    (mem_pairUp_identifier_iff hxs hys).1 (List.mem_filter.1 hp).1
  have hkeys : (kept.map fun p => (identifierOf o p).getD "").map some =
      kept.map (identifierOf o) := by
    rw [List.map_map]
    refine List.map_congr_left fun p hp => ?_
    obtain ⟨k, hk⟩ := hkept p hp
    rw [Function.comp_apply, hk.identifierOf_eq]
    rfl
  refine ⟨kept.map fun p => (identifierOf o p).getD "", ?_, ?_, ?_⟩
  · have hnodup : ((pairUp (identifier? o) xs ys).map (identifierOf o)).Nodup := by
      refine nodup_keys_pairUp hxs.distinct hys.distinct fun p hp i => ?_
      obtain ⟨k, hk⟩ := (mem_pairUp_identifier_iff hxs hys).1 hp
      have heq := hk.identifierOf_eq
      rw [identifierOf, Option.bind_eq_some_iff] at heq
      obtain ⟨a, ha, hkey⟩ := heq
      rw [hasKey, identifierOf, ha, Option.any_some, Option.bind_some, beq_iff_eq]
    refine List.Nodup.of_map some ?_
    rw [hkeys]
    exact (List.filter_sublist.map _).nodup hnodup
  · rw [List.forall₂_map_left_iff]
    refine forall₂_filterMap fun p hp e he => ?_
    obtain ⟨k, hk⟩ := (mem_pairUp_identifier_iff hxs hys).1 hp
    rw [hk.identifierOf_eq]
    exact hk.showsIdentifier he
  · intro k e he
    obtain ⟨p, hp, hsome⟩ := he.exists_pair hxs hys
    have hmem : p ∈ kept :=
      List.mem_filter.2 ⟨(mem_pairUp_identifier_iff hxs hys).2 ⟨k, hp⟩, hsome⟩
    refine List.mem_map.2 ⟨p, hmem, ?_⟩
    rw [hp.identifierOf_eq]
    rfl

end

/-! ### The change -/

/-- If all zeros have the same sign, the entries of arrays that count as equal have no change. -/
theorem entries_eq_nil_of_same (hxzero : (Json.array xs).HasZeroSign negative)
    (hyzero : (Json.array ys).HasZeroSign negative) (hsame : Json.sameItems xs ys = true) :
    (pairUp (identifier? o) xs ys).filterMap (entryOf? o) = [] := by
  -- Equal entries have the same identifier, so that they are paired with each other.
  have hitems := Json.sameItems_iff.1 hsame
  have hkeys : List.Forall₂ (fun x y => identifier? o x = identifier? o y) xs ys := by
    rw [List.forall₂_iff_zip] at hitems ⊢
    refine ⟨hitems.1, fun {x y} hmem => ?_⟩
    have hx : x.HasZeroSign negative :=
      Json.wellFormed_array_iff.1 hxzero x (List.of_mem_zip hmem).1
    have hy : y.HasZeroSign negative :=
      Json.wellFormed_array_iff.1 hyzero y (List.of_mem_zip hmem).2
    exact identifier?_eq_of_sorted_eq hx.isProper hy.isProper (hx.sorted_eq hy (hitems.2 hmem))
  rw [pairUp_eq_map_zip hkeys, List.filterMap_eq_nil_iff]
  intro p hp
  obtain ⟨⟨x, y⟩, hmem, rfl⟩ := List.mem_map.1 hp
  rw [entryOf?, entryAt?, Option.map_eq_none_iff]
  exact change?_eq_none_iff.2 (.inl (List.forall₂_zip hitems hmem))

/-- The entries of an array among themselves have no change. -/
theorem entries_self (hproper : (Json.array xs).IsProper) :
    (xs.map fun x => (some x, some x)).filterMap (entryOf? o) = [] := by
  rw [List.filterMap_eq_nil_iff]
  intro p hp
  obtain ⟨x, hx, rfl⟩ := List.mem_map.1 hp
  rw [entryOf?, entryAt?, Option.map_eq_none_iff]
  exact change?_eq_none_iff.2
    (.inl (Json.same_self (Json.wellFormed_array_iff.1 hproper x hx)))

/-- The change between two arrays has the given entries, unless the arrays count as equal, and in
any case if all zeros have the same sign. -/
structure HasEntries (o : Options) (xs ys : List Json) (es : List Change) : Prop where
  of_ne : Json.sameItems xs ys = false →
    change? o (.array xs) (.array ys) = ofEntries? es
  of_zeroSign : ∀ negative, (Json.array xs).HasZeroSign negative →
    (Json.array ys).HasZeroSign negative → change? o (.array xs) (.array ys) = ofEntries? es

section

variable (hxs : IsIdentified o xs) (hys : IsIdentified o ys) (halign : o.alignment = .byIdentity)
include hxs hys halign

/-- The change between two arrays has the entries of the pairs. -/
theorem hasEntries_pairUp :
    HasEntries o xs ys ((pairUp (identifier? o) xs ys).filterMap (entryOf? o)) := by
  have hentries (hsame : Json.sameItems xs ys = true →
      (pairUp (identifier? o) xs ys).filterMap (entryOf? o) = []) :
      change? o (.array xs) (.array ys) =
        ofEntries? ((pairUp (identifier? o) xs ys).filterMap (entryOf? o)) := by
    rw [← pairsOf_byIdentity halign] at hsame ⊢
    refine change?_array (fun p hp position => ?_) hsame
    rw [pairsOf_byIdentity halign, mem_pairUp_identifier_iff hxs hys] at hp
    obtain ⟨k, hk⟩ := hp
    exact hk.entryAt?_eq position
  refine ⟨fun hne => hentries fun hsame => ?_, fun negative hxzero hyzero =>
    hentries (entries_eq_nil_of_same hxzero hyzero)⟩
  rw [hne] at hsame
  cases hsame

/-- **The order does not matter for the change between two arrays** whose entries are known by their
identifiers.  It shows one change for each identifier that has one; permuting the arrays permutes
what is shown; and a permutation of one array is no change. -/
theorem change_ignoresOrder (hxproper : (Json.array xs).IsProper) : ∃ es,
    HasEntries o xs ys es ∧ ListsIdentifiers o xs ys es ∧
      (∀ xs' ys' : List Json, xs'.Perm xs → ys'.Perm ys →
        ∃ es' : List Change, HasEntries o xs' ys' es' ∧ es'.Perm es) ∧
      (ys.Perm xs → change? o (.array xs) (.array ys) = none) := by
  have hentries := hasEntries_pairUp hxs hys halign
  refine ⟨_, hentries, listsIdentifiers_pairUp hxs hys, fun xs' ys' hxperm hyperm => ?_,
    fun hperm => ?_⟩
  · exact ⟨_, hasEntries_pairUp (hxs.perm hxperm) (hys.perm hyperm) halign,
      (pairUp_perm hxs.distinct hys.distinct hxperm hyperm).filterMap _⟩
  · cases hsame : Json.sameItems xs ys with
    | true => exact change?_eq_none_iff.2 (.inl hsame)
    | false =>
        have hself := (pairUp_perm hxs.distinct hxs.distinct (.refl xs) hperm).filterMap
          (entryOf? o)
        have hpairs := pairsOf_self o xs
        rw [pairsOf_byIdentity halign] at hpairs
        rw [hpairs, entries_self hxproper, List.perm_nil] at hself
        rw [hentries.of_ne hsame, hself]
        rfl

end

/-- Changes by coach numbers. -/
def byCoach : Options := ⟨CoachLedger.identityField, .byIdentity⟩

/-- An entry with a coach number and a remark. -/
def coachEntry (coach : Json) (remark : String) : Json :=
  .object [(CoachLedger.identityField, coach), ("remarks", .string remark)]

theorem isProper_coachEntry {coach : Json} (h : coach.IsProper) (remark : String) :
    (coachEntry coach remark).IsProper :=
  .object (by simp [CoachLedger.identityField]) (by simp [h, Json.WellFormed.string])

theorem isIdentified_pair {a b : Json} (ha : a.isNull = false) (hb : b.isNull = false)
    (hne : a.canonical ≠ b.canonical) (r s : String) :
    IsIdentified byCoach [coachEntry a r, coachEntry b s] := by
  have hidentifier {c : Json} (hc : c.isNull = false) (t : String) :
      identifier? byCoach (coachEntry c t) = some c.canonical := by
    cases c with
    | null => cases hc
    | _ => rfl
  exact ⟨by simp [hidentifier ha, hidentifier hb], by simp [hidentifier ha, hidentifier hb, hne]⟩

/-- Of two coaches that change their places only the one is shown that changes its remark. -/
theorem change_ignoresOrder_swapped :
    let xs := [coachEntry (.string "C1") "in yard", coachEntry (.string "C2") "in service"]
    let ys := [coachEntry (.string "C2") "in service", coachEntry (.string "C1") "sent out"]
    ((IsIdentified byCoach xs ∧ IsIdentified byCoach ys) ∧ byCoach.alignment = .byIdentity ∧
      (Json.array xs).IsProper) ∧
    ∃ es, HasEntries byCoach xs ys es ∧ ListsIdentifiers byCoach xs ys es := by
  intro xs ys
  have hxs : IsIdentified byCoach xs := isIdentified_pair rfl rfl (by decide) ..
  have hys : IsIdentified byCoach ys := isIdentified_pair rfl rfl (by decide) ..
  have hproper : (Json.array xs).IsProper :=
    .array (by simp [xs, isProper_coachEntry, Json.WellFormed.string])
  obtain ⟨es, hentries, hlists, -⟩ := change_ignoresOrder hxs hys rfl hproper
  exact ⟨⟨⟨hxs, hys⟩, rfl, hproper⟩, es, hentries, hlists⟩

/-- **Zeros of different signs identify different entries, but no change is shown** if they stand in
the same place. -/
theorem not_listsIdentifiers_zero :
    ¬∀ (o : Options) (xs ys : List Json), o.alignment = .byIdentity → IsIdentified o xs →
      IsIdentified o ys → (Json.array xs).IsProper → (Json.array ys).IsProper →
      ∃ es, change? o (.array xs) (.array ys) = ofEntries? es ∧ ListsIdentifiers o xs ys es := by
  intro h
  let entries (negative : Bool) := [coachEntry (.zero negative) "", coachEntry (.string "B") ""]
  have hidentified (negative : Bool) : IsIdentified byCoach (entries negative) :=
    isIdentified_pair rfl rfl (by cases negative <;> decide) ..
  have hproper (negative : Bool) : (Json.array (entries negative)).IsProper :=
    .array (by simp [entries, isProper_coachEntry, Json.WellFormed.string,
      (Json.hasZeroSign_zero negative).isProper])
  obtain ⟨es, hchange, keys, -, hshown, hkeys⟩ := h byCoach (entries false) (entries true) rfl
    (hidentified false) (hidentified true) (hproper false) (hproper true)
  -- The arrays count as equal, so nothing is shown, but the second one has a new identifier.
  obtain rfl : es = [] := by
    cases es with
    | nil => rfl
    | cons e es => cases hchange
  obtain rfl := List.forall₂_nil_right_iff.1 hshown
  have hadded : ShowsIdentifier byCoach (entries false) (entries true) (Json.zero true).canonical
      ⟨.null, withTag (.zero true) (coachEntry (.zero true) "")⟩ :=
    .added (List.mem_cons_self ..) rfl (by decide) rfl
  exact absurd (hkeys _ _ hadded) List.not_mem_nil

end CoachLedger.Audit
