/-
**Pairs of entries.**

Two arrays are aligned by pairing positions, but what a pair stands for is two entries.  Position by
position the arrays stand side by side.  By identifiers the entries with one identifier stand side
by side, the first with the first and so on, whatever stands between them.  So entries that are the
same thing in both arrays are paired with each other if the new ones come after them.

Main definitions:

* `CoachLedger.Audit.pairsOf` — the pairs of entries of two arrays;
* `CoachLedger.Audit.pairUp` — pairs each new entry with the first old one left that has its key.

Main results:

* `CoachLedger.Audit.pairsOf_positional`, `CoachLedger.Audit.pairsOf_byIdentity` — the pairs of
  entries in the two alignments;
* `CoachLedger.Audit.filter_pairUp` — **the entries with one key stand side by side**;
* `CoachLedger.Audit.pairUp_eq_map`, `CoachLedger.Audit.pairUp_eq_map_of_nodup` — **when each entry
  is paired with itself**;
* `CoachLedger.Audit.change?_array` — the change between two arrays, pair by pair.
-/

import CoachLedger.Proofs.Audit.Parallel
import Mathlib.Data.List.Find
import Mathlib.Data.List.Nodup

set_option autoImplicit false

namespace CoachLedger.Audit

/-- Two lists side by side, the shorter one filled up. -/
def sideBySide {α : Type} (olds news : List α) : List (Option α × Option α) :=
  List.zipWithAll Prod.mk olds news

section

variable {α κ : Type} [BEq κ]

/-- Pairs each new entry with the first old entry left that has the same key; the old entries left
at the end follow without a partner. -/
def pairUp (key : α → κ) (olds : List α) : List α → List (Option α × Option α)
  | [] => olds.map fun a => (some a, none)
  | b :: news =>
      match olds.find? fun a => key a == key b with
      | some a => (some a, some b) :: pairUp key (olds.eraseP fun a => key a == key b) news
      | none => (none, some b) :: pairUp key olds news

/-! ### Pairing -/

variable {key : α → κ}

/-- Pairing goes along with a map of the entries. -/
theorem pairUp_map {β : Type} (f : β → α) (olds news : List β) :
    pairUp key (olds.map f) (news.map f) =
      (pairUp (fun b => key (f b)) olds news).map (Prod.map (Option.map f) (Option.map f)) := by
  induction news generalizing olds with
  | nil => simp [pairUp]
  | cons b news ih =>
      simp only [List.map_cons, pairUp, List.find?_map, List.eraseP_map, Function.comp_def]
      cases olds.find? fun a => key (f a) == key (f b) with
      | none => simp [ih]
      | some a => simp [ih]

/-- The new entries stand in their order. -/
theorem filterMap_snd_pairUp (key : α → κ) (olds news : List α) :
    (pairUp key olds news).filterMap Prod.snd = news := by
  induction news generalizing olds with
  | nil =>
      rw [pairUp, List.filterMap_map]
      exact List.filterMap_eq_nil_iff.2 fun a _ => rfl
  | cons b news ih =>
      rw [pairUp]
      split
      · rw [List.filterMap_cons_some (f := Prod.snd) rfl, ih]
      · rw [List.filterMap_cons_some (f := Prod.snd) rfl, ih]

/-- The entries of a pair are entries of the two lists. -/
theorem mem_of_mem_pairUp {olds news : List α} {p : Option α × Option α}
    (h : p ∈ pairUp key olds news) : (∀ a ∈ p.1, a ∈ olds) ∧ ∀ b ∈ p.2, b ∈ news := by
  refine ⟨?_, fun b hb => ?_⟩
  · induction news generalizing olds with
    | nil =>
        obtain ⟨a, ha, rfl⟩ := List.mem_map.1 h
        intro c hc
        obtain rfl := Option.some.inj hc
        exact ha
    | cons b news ih =>
        rw [pairUp] at h
        split at h
        · rename_i a hfind
          rcases List.mem_cons.1 h with rfl | h
          · intro c hc
            obtain rfl := Option.some.inj hc
            exact List.mem_of_find?_eq_some hfind
          · exact fun c hc => List.mem_of_mem_eraseP (ih h c hc)
        · rcases List.mem_cons.1 h with rfl | h
          · exact fun c hc => by cases hc
          · exact ih h
  · have hmem : b ∈ (pairUp key olds news).filterMap Prod.snd := List.mem_filterMap.2 ⟨p, h, hb⟩
    rwa [filterMap_snd_pairUp] at hmem

variable [LawfulBEq κ]

theorem eraseP_congr {p q : α → Bool} {l : List α} (h : ∀ a ∈ l, p a = q a) :
    l.eraseP p = l.eraseP q := by
  induction l with
  | nil => rfl
  | cons a l ih =>
      obtain ⟨ha, hl⟩ := List.forall_mem_cons.1 h
      rw [List.eraseP_cons, List.eraseP_cons, ha, ih hl]

/-- Only the equality of the keys matters. -/
theorem pairUp_congr {κ' : Type} [BEq κ'] [LawfulBEq κ'] {key' : α → κ'} {olds news : List α}
    (h : ∀ a ∈ olds, ∀ b ∈ news, key a = key b ↔ key' a = key' b) :
    pairUp key olds news = pairUp key' olds news := by
  induction news generalizing olds with
  | nil => rfl
  | cons b news ih =>
      have hkey : ∀ a ∈ olds, (key a == key b) = (key' a == key' b) := fun a ha => by
        rw [Bool.eq_iff_iff, beq_iff_eq, beq_iff_eq]
        exact h a ha b (List.mem_cons_self ..)
      have hrest {others : List α} (hsub : others ⊆ olds) :
          pairUp key others news = pairUp key' others news :=
        ih fun a ha c hc => h a (hsub ha) c (List.mem_cons_of_mem _ hc)
      rw [pairUp, pairUp, List.find?_congr hkey, eraseP_congr hkey, hrest List.eraseP_subset,
        hrest fun a ha => ha]

/-- A pair is one of entries with the given key. -/
def hasKey (key : α → κ) (k : κ) (p : Option α × Option α) : Bool :=
  (p.2.or p.1).any fun a => key a == k

/-- Each pair is one of entries with some key. -/
theorem exists_hasKey {olds news : List α} {p : Option α × Option α}
    (h : p ∈ pairUp key olds news) : ∃ k, hasKey key k p = true := by
  induction news generalizing olds with
  | nil =>
      obtain ⟨a, -, rfl⟩ := List.mem_map.1 h
      exact ⟨key a, by simp [hasKey]⟩
  | cons b news ih =>
      rw [pairUp] at h
      split at h
      · rcases List.mem_cons.1 h with rfl | h
        · exact ⟨key b, by simp [hasKey]⟩
        · exact ih h
      · rcases List.mem_cons.1 h with rfl | h
        · exact ⟨key b, by simp [hasKey]⟩
        · exact ih h

omit [LawfulBEq κ] in
/-- Pairs are the same up to their order if those of each key are the same. -/
theorem perm_of_filter_hasKey (key : α → κ) {ps qs : List (Option α × Option α)}
    (hps : ∀ p ∈ ps, ∃ k, hasKey key k p = true) (hqs : ∀ p ∈ qs, ∃ k, hasKey key k p = true)
    (h : ∀ k, ps.filter (hasKey key k) = qs.filter (hasKey key k)) : ps.Perm qs := by
  classical
  rw [List.perm_iff_count]
  intro p
  by_cases hp : ∃ k, hasKey key k p = true
  · -- A pair is as often in the list as among those of its key.
    obtain ⟨k, hk⟩ := hp
    rw [← List.count_filter (l := ps) hk, h, List.count_filter hk]
  · rw [List.count_eq_zero_of_not_mem fun hmem => hp (hps p hmem),
      List.count_eq_zero_of_not_mem fun hmem => hp (hqs p hmem)]

theorem sideBySide_nil_left (news : List α) :
    sideBySide [] news = news.map fun b => (none, some b) := List.nil_zipWithAll

theorem sideBySide_nil_right (olds : List α) :
    sideBySide olds [] = olds.map fun a => (some a, none) := List.zipWithAll_nil

theorem sideBySide_cons_cons (a b : α) (olds news : List α) :
    sideBySide (a :: olds) (b :: news) = (some a, some b) :: sideBySide olds news := rfl

/-- The first entry with a property, and the others with it. -/
theorem filter_eq_cons_of_find? {p : α → Bool} {l : List α} {a : α} (h : l.find? p = some a) :
    l.filter p = a :: (l.eraseP p).filter p := by
  induction l with
  | nil => cases h
  | cons b l ih =>
      rw [List.find?_cons] at h
      cases hb : p b with
      | true =>
          rw [hb] at h
          rw [List.filter_cons_of_pos hb, List.eraseP_cons_of_pos hb, Option.some.inj h]
      | false =>
          rw [hb] at h
          rw [List.filter_cons_of_neg (by simp [hb]), List.eraseP_cons_of_neg (by simp [hb]),
            List.filter_cons_of_neg (by simp [hb]), ih h]

/-- Taking out an entry leaves those with another property. -/
theorem filter_eraseP_of_disjoint {p q : α → Bool} (h : ∀ a, p a = true → q a = false)
    (l : List α) : (l.eraseP p).filter q = l.filter q := by
  induction l with
  | nil => rfl
  | cons a l ih =>
      cases ha : p a with
      | true =>
          rw [List.eraseP_cons_of_pos ha, List.filter_cons_of_neg (by simp [h a ha])]
      | false =>
          rw [List.eraseP_cons_of_neg (by simp [ha]), List.filter_cons, List.filter_cons, ih]

/-- **The entries with one key stand side by side**: the first old one with the first new one, and
so on. -/
theorem filter_pairUp (key : α → κ) (k : κ) (olds news : List α) :
    (pairUp key olds news).filter (hasKey key k) =
      sideBySide (olds.filter fun a => key a == k) (news.filter fun b => key b == k) := by
  induction news generalizing olds with
  | nil =>
      rw [pairUp, List.filter_nil, sideBySide_nil_right, List.filter_map]
      rfl
  | cons b news ih =>
      rw [pairUp]
      by_cases hb : key b = k
      · subst hb
        rw [List.filter_cons_of_pos (l := news) (beq_self_eq_true (key b))]
        cases hfind : olds.find? fun a => key a == key b with
        | none =>
            -- No old entry is left that has the key.
            have hnone : (olds.filter fun a => key a == key b) = [] :=
              List.filter_eq_nil_iff.2 (List.find?_eq_none.1 hfind)
            rw [List.filter_cons_of_pos (by simp [hasKey]), ih, hnone, sideBySide_nil_left,
              sideBySide_nil_left, List.map_cons]
        | some a =>
            rw [List.filter_cons_of_pos (by simp [hasKey]), ih, filter_eq_cons_of_find? hfind,
              sideBySide_cons_cons]
      · have hother : ∀ a, (key a == key b) = true → (key a == k) = false := by
          intro a ha
          rw [beq_iff_eq] at ha
          rw [ha]
          exact beq_eq_false_iff_ne.2 hb
        rw [List.filter_cons_of_neg (l := news) (by simpa using hb)]
        cases olds.find? fun a => key a == key b with
        | none => rw [List.filter_cons_of_neg (by simpa [hasKey] using hb), ih]
        | some a =>
            rw [List.filter_cons_of_neg (by simpa [hasKey] using hb), ih,
              filter_eraseP_of_disjoint hother]

/-- Two lists stand side by side as entries with one and the same key do. -/
theorem sideBySide_eq_pairUp (olds news : List α) :
    sideBySide olds news = pairUp (fun _ => ()) olds news := by
  have hfilter := filter_pairUp (fun _ : α => ()) () olds news
  have holds : (olds.filter fun _ => () == ()) = olds := List.filter_true olds
  have hnews : (news.filter fun _ => () == ()) = news := List.filter_true news
  rw [holds, hnews] at hfilter
  rw [← hfilter, List.filter_eq_self]
  intro p hp
  obtain ⟨k, hk⟩ := exists_hasKey hp
  exact hk

theorem mem_of_mem_sideBySide {olds news : List α} {p : Option α × Option α}
    (h : p ∈ sideBySide olds news) : (∀ a ∈ p.1, a ∈ olds) ∧ ∀ b ∈ p.2, b ∈ news := by
  rw [sideBySide_eq_pairUp] at h
  exact mem_of_mem_pairUp h

/-- Entries that are changed without their keys are paired with themselves. -/
theorem pairUp_map_right {f : α → α} {l : List α} (h : ∀ a ∈ l, key (f a) = key a) :
    pairUp key l (l.map f) = l.map fun a => (some a, some (f a)) := by
  induction l with
  | nil => rfl
  | cons a l ih =>
      obtain ⟨ha, hl⟩ := List.forall_mem_cons.1 h
      have hself : (key a == key (f a)) = true := beq_iff_eq.2 ha.symm
      rw [List.map_cons, pairUp, List.find?_cons_of_pos (p := fun b => key b == key (f a)) hself]
      dsimp only
      rw [List.eraseP_cons_of_pos (p := fun b => key b == key (f a)) hself, ih hl, List.map_cons]

/-- Entries are paired with themselves. -/
theorem pairUp_self (key : α → κ) (l : List α) :
    pairUp key l l = l.map fun a => (some a, some a) := by
  have h : pairUp key l (l.map id) = l.map fun a => (some a, some (id a)) :=
    pairUp_map_right fun _ _ => rfl
  rwa [List.map_id] at h

theorem sideBySide_map_right (f : α → α) (l : List α) :
    sideBySide l (l.map f) = l.map fun a => (some a, some (f a)) := by
  rw [sideBySide_eq_pairUp]
  exact pairUp_map_right fun _ _ => rfl

/-! ### Entries that are paired with themselves -/

variable {ι : Type} [BEq ι] [LawfulBEq ι] {ident : α → ι}

/-- The old entry that is the same thing as a new one, and the new one. -/
def withOld (ident : α → ι) (olds : List α) (b : α) : Option α × Option α :=
  (olds.find? fun a => ident a == ident b, some b)

/-- Side by side each entry stands beside itself, if the old entries are the first ones of the new
list. -/
theorem sideBySide_eq_map {olds news : List α} (hfirst : olds.map ident <+: news.map ident)
    (hnodup : (news.map ident).Nodup) :
    sideBySide olds news = news.map (withOld ident olds) := by
  induction olds generalizing news with
  | nil => exact sideBySide_nil_left news
  | cons a olds ih =>
      cases news with
      | nil => simp at hfirst
      | cons b news =>
          rw [List.map_cons, List.map_cons, List.cons_prefix_cons] at hfirst
          rw [List.map_cons, List.nodup_cons] at hnodup
          obtain ⟨hab, hrest⟩ := hfirst
          have htail : news.map (withOld ident olds) = news.map (withOld ident (a :: olds)) := by
            refine List.map_congr_left fun c hc => ?_
            have hne : ident a ≠ ident c := by
              rw [hab]
              exact fun heq => hnodup.1 (heq ▸ List.mem_map_of_mem hc)
            rw [withOld, withOld, List.find?_cons_of_neg (by simpa using hne)]
          rw [sideBySide_cons_cons, ih hrest hnodup.2, htail, List.map_cons, withOld,
            List.find?_cons_of_pos (by simpa using hab)]

/-- **Each new entry is paired with itself**, if among the entries with one key the old ones come
first. -/
theorem pairUp_eq_map {olds news : List α} (hnodup : (news.map ident).Nodup)
    (hfirst : ∀ k, (olds.filter fun a => key a == k).map ident <+:
      (news.filter fun b => key b == k).map ident) :
    pairUp key olds news = news.map (withOld ident olds) := by
  -- An old entry that is the same thing as a new one has its key.
  have hkey {a b : α} (ha : a ∈ olds) (hb : b ∈ news) (hab : ident a = ident b) : key a = key b := by
    have hmem : ident a ∈ (olds.filter fun c => key c == key a).map ident :=
      List.mem_map_of_mem (List.mem_filter.2 ⟨ha, beq_self_eq_true _⟩)
    obtain ⟨c, hc, hca⟩ := List.mem_map.1 ((hfirst (key a)).subset hmem)
    obtain ⟨hc, hck⟩ := List.mem_filter.1 hc
    obtain rfl : c = b := List.inj_on_of_nodup_map hnodup hc hb (hca.trans hab)
    exact (beq_iff_eq.1 hck).symm
  have hpairs : ∀ p ∈ pairUp key olds news, ∃ b, p = withOld ident olds b := by
    intro p hp
    obtain ⟨k, hk⟩ := exists_hasKey hp
    have hmem := List.mem_filter.2 ⟨hp, hk⟩
    rw [filter_pairUp, sideBySide_eq_map (hfirst k) ((List.filter_sublist.map ident).nodup hnodup)]
      at hmem
    obtain ⟨b, hb, rfl⟩ := List.mem_map.1 hmem
    obtain ⟨hb, hbk⟩ := List.mem_filter.1 hb
    refine ⟨b, ?_⟩
    rw [withOld, withOld, List.find?_filter]
    refine congrArg (fun a => (a, some b)) (List.find?_congr fun a ha => ?_)
    by_cases hab : ident a = ident b
    · have hak : key a = k := (hkey ha hb hab).trans (beq_iff_eq.1 hbk)
      simp [hab, hak]
    · simp [hab]
  -- The pairs are known by their new entries, which stand in their order.
  have hnews := filterMap_snd_pairUp key olds news
  conv_rhs => rw [← hnews]
  rw [List.map_filterMap]
  have hid : (pairUp key olds news).filterMap some = pairUp key olds news := List.filterMap_some
  conv_lhs => rw [← hid]
  refine List.filterMap_congr fun p hp => ?_
  obtain ⟨b, rfl⟩ := hpairs p hp
  rfl

/-- Each new entry is paired with the old one of its key, if no key occurs twice and no old one is
lost. -/
theorem pairUp_eq_map_of_nodup {olds news : List α} (holds : (olds.map key).Nodup)
    (hnews : (news.map key).Nodup) (hsub : olds.map key ⊆ news.map key) :
    pairUp key olds news = news.map (withOld key olds) := by
  have hfilter (l : List α) (k : κ) :
      (l.filter fun a => key a == k).map key = List.replicate ((l.map key).count k) k := by
    rw [← List.filter_beq, List.filter_map]
    rfl
  refine pairUp_eq_map hnews fun k => ?_
  have hle : (olds.map key).count k ≤ (news.map key).count k := by
    by_cases hk : k ∈ olds.map key
    · rw [List.count_eq_one_of_mem holds hk, List.count_eq_one_of_mem hnews (hsub hk)]
    · rw [List.count_eq_zero_of_not_mem hk]
      exact Nat.zero_le _
  obtain ⟨n, hn⟩ := Nat.exists_eq_add_of_le hle
  rw [hfilter, hfilter, hn, List.replicate_add]
  exact List.prefix_append _ _

end

/-! ### Pairs of two arrays -/

variable {o : Options} {xs ys : List Json}

/-- The pairs of entries of two arrays. -/
def pairsOf (o : Options) (xs ys : List Json) : List (Option Json × Option Json) :=
  (align o xs ys).map fun p => (p.old.bind fun i => xs[i]?, p.new.bind fun j => ys[j]?)

/-- By position the arrays stand side by side. -/
theorem pairsOf_positional (h : o.alignment = .positional) :
    pairsOf o xs ys = sideBySide xs ys := by
  refine List.ext_getElem? fun i => ?_
  rw [pairsOf, align, h, alignByPosition, sideBySide, List.getElem?_zipWithAll, List.map_map,
    List.getElem?_map]
  rcases Nat.lt_or_ge i (max xs.length ys.length) with hi | hi
  · rw [List.getElem?_range hi]
    rcases Nat.lt_or_ge i xs.length with hx | hx
    · rcases Nat.lt_or_ge i ys.length with hy | hy
      · simp [hx, hy]
      · simp [hx, Nat.not_lt.2 hy]
    · have hy : i < ys.length := by omega
      simp [Nat.not_lt.2 hx, hy]
  · have hx : xs.length ≤ i := by omega
    have hy : ys.length ≤ i := by omega
    rw [List.getElem?_eq_none (by simpa using hi), List.getElem?_eq_none hx,
      List.getElem?_eq_none hy]
    rfl

theorem alignByIdentifier_eq (olds news : List (Nat × Option String)) :
    alignByIdentifier olds news =
      (pairUp Prod.snd olds news).map fun p => ⟨p.1.map Prod.fst, p.2.map Prod.fst⟩ := by
  induction news generalizing olds with
  | nil =>
      rw [alignByIdentifier, pairUp, List.map_map]
      rfl
  | cons b news ih =>
      obtain ⟨j, k⟩ := b
      rw [alignByIdentifier, pairUp]
      cases olds.find? fun a => a.2 == k with
      | none =>
          dsimp only
          rw [ih, List.map_cons]
          rfl
      | some a =>
          dsimp only
          rw [ih, List.map_cons]
          rfl

theorem identified_eq (o : Options) (xs : List Json) :
    identified o xs = xs.zipIdx.map fun p => (p.2, identifier? o p.1) := by
  rw [identified, indexed, List.zipIdx_map, List.map_map]
  rfl

/-- By identifiers the entries are paired up. -/
theorem pairsOf_byIdentity (h : o.alignment = .byIdentity) :
    pairsOf o xs ys = pairUp (identifier? o) xs ys := by
  -- An entry is found at its position.
  have hfound {zs : List Json} {a : Option (Json × Nat)} (ha : ∀ q ∈ a, q ∈ zs.zipIdx) :
      (a.map Prod.snd).bind (fun i => zs[i]?) = a.map Prod.fst := by
    cases a with
    | none => rfl
    | some q => exact List.mem_zipIdx_iff_getElem?.1 (ha q rfl)
  have hxs := List.zipIdx_map_fst 0 xs
  have hys := List.zipIdx_map_fst 0 ys
  rw [pairsOf, align, h]
  dsimp only
  rw [alignByIdentifier_eq, identified_eq, identified_eq, pairUp_map, List.map_map, List.map_map]
  conv_rhs => rw [← hxs, ← hys, pairUp_map]
  refine List.map_congr_left fun p hp => ?_
  obtain ⟨hold, hnew⟩ := mem_of_mem_pairUp hp
  simp only [Function.comp_apply, Prod.map, Option.map_map]
  exact Prod.ext (hfound hold) (hfound hnew)

/-- Each entry of an array is paired with itself. -/
theorem pairsOf_self (o : Options) (xs : List Json) :
    pairsOf o xs xs = xs.map fun x => (some x, some x) := by
  cases h : o.alignment with
  | positional =>
      rw [pairsOf_positional h]
      simpa using sideBySide_map_right id xs
  | byIdentity =>
      rw [pairsOf_byIdentity h]
      exact pairUp_self _ xs

/-! ### The change between two arrays -/

/-- The tagged change of two entries at a position. -/
def entryAt? (o : Options) (old new : Json) (position : Nat) : Option Change :=
  (change? o old new).map fun c =>
    ⟨withTag (tagOf o old new position) c.old, withTag (tagOf o old new position) c.new⟩

/-- The change that has the given entries, if there are any. -/
def ofEntries? : List Change → Option Change
  | [] => none
  | es => some ⟨.array (es.map Change.old), .array (es.map Change.new)⟩

/-- The change between two arrays has the entries of their pairs. -/
theorem changeOfItems?_eq (o : Options) (xs ys : List Json) :
    changeOfItems? o (sides o xs) ys =
      ofEntries? ((align o xs ys).filterMap (changeOfPair? o (sides o xs) ys)) := by
  rw [changeOfItems?, map_value_sides]
  rfl

/-- **The change between two arrays, pair by pair**, if the tags do not depend on the positions.
Arrays that count as equal must not have a pair that differs. -/
theorem change?_array {entry : Option Json × Option Json → Option Change}
    (hentry : ∀ p ∈ pairsOf o xs ys, ∀ position,
      entryAt? o (p.1.getD .null) (p.2.getD .null) position = entry p)
    (hsame : Json.sameItems xs ys = true → (pairsOf o xs ys).filterMap entry = []) :
    change? o (.array xs) (.array ys) = ofEntries? ((pairsOf o xs ys).filterMap entry) := by
  have hpairs : (align o xs ys).filterMap (changeOfPair? o (sides o xs) ys) =
      (pairsOf o xs ys).filterMap entry := by
    rw [pairsOf, List.filterMap_map]
    refine List.filterMap_congr fun p hp => ?_
    rw [changeOfPair?_sides, Function.comp_apply,
      ← hentry _ (List.mem_map_of_mem hp) p.position]
    rfl
  unfold change?
  split
  · rename_i h
    rw [hsame h]
    rfl
  · dsimp only
    rw [changeOfItems?_eq, hpairs]

end CoachLedger.Audit
