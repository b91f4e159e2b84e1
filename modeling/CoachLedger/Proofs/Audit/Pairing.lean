/-
**Pairs found by stacks.**

Between the new entries the stacks hold, in their order, the old entries that are left, which are
those not marked as used.  So the positions taken are those that `alignByIdentifier` finds, and no
position is out of range.

Main definitions:

* `CoachLedger.Audit.Matching.Invariant` — what holds between the new entries;
* `CoachLedger.Audit.IsPairing` — what makes pairs of positions a pairing by identifiers.

Main results:

* `CoachLedger.Audit.Matching.Invariant.take?` — **taking a position keeps the invariant**;
* `CoachLedger.Audit.pairByStacks?_eq` — the stacks give the pairs of `alignByIdentifier`;
* `CoachLedger.Audit.isPairing_alignByIdentifier` — the pairs are a pairing by identifiers;
* `CoachLedger.Audit.alignByIdentifier_isPairing` — **the alignment by identifiers is a perfect
  pairing**.
-/

import CoachLedger.Audit.Stacks
import CoachLedger.Proofs.Audit.Alignment

set_option autoImplicit false

namespace CoachLedger.Audit

/-! ### Stacks -/

namespace Stacks

variable (s : Stacks) (key other : Option String)

theorem stack_push (i : Nat) :
    (s.push key i).stack other = s.stack other ++ if key = other then [i] else [] := by
  cases key with
  | none =>
      cases other with
      | none => rfl
      | some l => simp [push, stack]
  | some k =>
      cases other with
      | none => simp [push, stack]
      | some l =>
          rw [push, stack, stack, Std.HashMap.getD_insert]
          by_cases hkl : k = l
          · rw [hkl, beq_self_eq_true, if_pos rfl, if_pos rfl]
          · rw [beq_eq_false_iff_ne.2 hkl, if_neg Bool.false_ne_true,
              if_neg fun h => hkl (Option.some.inj h), List.append_nil]

theorem stack_reversed : s.reversed.stack key = (s.stack key).reverse := by
  cases key with
  | none => rfl
  | some k =>
      rw [reversed, stack, stack, Std.HashMap.getD_eq_getD_getElem?,
        Std.HashMap.getD_eq_getD_getElem?, Std.HashMap.getElem?_map]
      cases s.keyed[k]? <;> rfl

theorem pop_fst : (s.pop key).1 = (s.stack key).getLast? := by
  cases key with
  | none => rfl
  | some k =>
      rw [pop, stack, Std.HashMap.getD_eq_getD_getElem?]
      cases s.keyed[k]? <;> rfl

theorem stack_pop :
    (s.pop key).2.stack other =
      if key = other then (s.stack other).dropLast else s.stack other := by
  cases key with
  | none =>
      cases other with
      | none => rfl
      | some l => rfl
  | some k =>
      cases other with
      | none =>
          rw [pop, if_neg (Option.some_ne_none k)]
          cases s.keyed[k]? <;> rfl
      | some l =>
          rw [pop, stack, stack]
          by_cases hkl : k = l
          · rw [hkl, if_pos rfl]
            cases hl : s.keyed[l]? with
            | none =>
                dsimp only
                rw [Std.HashMap.getD_eq_getD_getElem?, hl]
                rfl
            | some positions =>
                dsimp only
                rw [Std.HashMap.getD_insert_self, Std.HashMap.getD_eq_getD_getElem?, hl]
                rfl
          · rw [if_neg fun h => hkl (Option.some.inj h)]
            cases s.keyed[k]? with
            | none => rfl
            | some positions =>
                dsimp only
                rw [Std.HashMap.getD_insert, beq_eq_false_iff_ne.2 hkl, if_neg Bool.false_ne_true]

end Stacks

/-! ### Matching -/

section

variable {olds news : List (Option String)}

theorem map_fst_indexed (keys : List (Option String)) :
    (indexed keys).map Prod.fst = List.range keys.length := by
  rw [indexed, List.map_map]
  exact List.zipIdx_map_snd 0 keys |>.trans List.range_eq_range'.symm

theorem mem_indexed {keys : List (Option String)} {p : Nat × Option String}
    (h : p ∈ indexed keys) : keys[p.1]? = some p.2 := by
  obtain ⟨q, hq, rfl⟩ := List.mem_map.1 h
  exact List.mem_zipIdx_iff_getElem?.1 hq

/-- In a list of different things, what is left without the first one of some kind is all but this
one. -/
theorem eraseP_eq_filter {α β : Type} [BEq β] [LawfulBEq β] {f : α → β} {p : α → Bool} {l : List α}
    {a : α} (hnodup : (l.map f).Nodup) (h : l.find? p = some a) :
    l.eraseP p = l.filter fun b => f b != f a := by
  induction l with
  | nil => cases h
  | cons b l ih =>
      rw [List.map_cons, List.nodup_cons] at hnodup
      obtain ⟨hb, hnodup⟩ := hnodup
      rw [List.find?_cons] at h
      cases hpb : p b with
      | true =>
          rw [hpb] at h
          obtain rfl := Option.some.inj h
          rw [List.eraseP_cons_of_pos hpb, List.filter_cons_of_neg (by simp), eq_comm,
            List.filter_eq_self]
          exact fun c hc => bne_iff_ne.2 fun heq => hb (heq ▸ List.mem_map_of_mem hc)
      | false =>
          rw [hpb] at h
          have hne : f b ≠ f a := fun heq =>
            hb (heq ▸ List.mem_map_of_mem (List.mem_of_find?_eq_some h))
          rw [List.eraseP_cons_of_neg (by simp [hpb]), ih hnodup h,
            List.filter_cons_of_pos (by simpa using hne)]

namespace Matching

/-- The stacks hold the old entries that are left, and these are the ones that are not used. -/
structure Invariant (olds : List (Option String)) (m : Matching)
    (left : List (Nat × Option String)) : Prop where
  free : ∀ key, m.free.stack key = ((left.filter fun p => p.2 == key).map Prod.fst).reverse
  length_used : m.used.length = olds.length
  left : left.map Prod.fst = (List.range olds.length).filter fun i => m.used[i]? == some false

theorem stack_foldl_push (s : Stacks) (ps : List (Nat × Option String)) (key : Option String) :
    (ps.foldl (fun s p => s.push p.2 p.1) s).stack key =
      s.stack key ++ (ps.filter fun p => p.2 == key).map Prod.fst := by
  induction ps generalizing s with
  | nil => simp
  | cons p ps ih =>
      rw [List.foldl_cons, ih, Stacks.stack_push, List.append_assoc, List.filter_cons]
      by_cases hp : p.2 = key
      · rw [if_pos hp, if_pos (beq_iff_eq.2 hp), List.map_cons, List.singleton_append]
      · rw [if_neg hp, if_neg (by simpa using hp), List.nil_append]

theorem invariant_initial (olds : List (Option String)) :
    Invariant olds (initial olds) (indexed olds) where
  free key := by
    have hempty : Stacks.empty.stack key = [] := by
      cases key with
      | none => rfl
      | some k => exact Std.HashMap.getD_empty
    rw [initial, Stacks.stack_reversed, stack_foldl_push, hempty, List.nil_append]
  length_used := List.length_replicate
  left := by
    rw [map_fst_indexed, eq_comm, List.filter_eq_self]
    intro i hi
    rw [initial, List.getElem?_replicate_of_lt (List.mem_range.1 hi)]
    rfl

variable {m : Matching} {left : List (Nat × Option String)}

theorem Invariant.pop_eq (h : m.Invariant olds left) (key : Option String) :
    (m.free.pop key).1 = (left.find? fun p => p.2 == key).map Prod.fst := by
  rw [Stacks.pop_fst, h.free, List.getLast?_reverse, List.head?_map, List.head?_filter]

/-- **Taking a position keeps the invariant.**  The position taken is that of the first entry left
that has the identifier. -/
theorem Invariant.take? (h : m.Invariant olds left) (key : Option String) (j : Nat) :
    ∃ m', m.take? key j = some m' ∧
      match left.find? fun p => p.2 == key with
      | some p => m'.pairs = m.pairs ++ [⟨some p.1, some j⟩] ∧
          m'.Invariant olds (left.eraseP fun p => p.2 == key)
      | none => m'.pairs = m.pairs ++ [⟨none, some j⟩] ∧ m'.Invariant olds left := by
  have hpop := h.pop_eq key
  have hstack := m.free.stack_pop key
  unfold Matching.take?
  cases hfind : left.find? fun p => p.2 == key with
  | none =>
      rw [hfind, Option.map_none] at hpop
      generalize m.free.pop key = popped at hpop hstack ⊢
      obtain ⟨taken, rest⟩ := popped
      obtain rfl : taken = none := hpop
      refine ⟨_, rfl, rfl, ⟨fun other => ?_, h.length_used, h.left⟩⟩
      -- A stack from which nothing is taken is empty.
      refine (hstack other).trans ?_
      split
      · rename_i hother
        have hnone := List.filter_eq_nil_iff.2 (List.find?_eq_none.1 hfind)
        rw [h.free, ← hother, hnone]
        rfl
      · exact h.free other
  | some p =>
      rw [hfind, Option.map_some] at hpop
      generalize m.free.pop key = popped at hpop hstack ⊢
      obtain ⟨taken, rest⟩ := popped
      obtain rfl : taken = some p.1 := hpop
      have hmem : p.1 ∈ left.map Prod.fst :=
        List.mem_map_of_mem (List.mem_of_find?_eq_some hfind)
      have hnodup : (left.map Prod.fst).Nodup := by
        rw [h.left]
        exact List.nodup_range.filter _
      have hrange : p.1 < m.used.length := by
        rw [h.left, List.mem_filter, List.mem_range] at hmem
        rw [h.length_used]
        exact hmem.1
      refine ⟨_, if_pos hrange, rfl, ⟨fun other => ?_, ?_, ?_⟩⟩
      · refine (hstack other).trans ?_
        split
        · rename_i hother
          rw [h.free, ← hother, filter_eq_cons_of_find? hfind, List.map_cons,
            List.reverse_cons, List.dropLast_concat]
        · rename_i hother
          rw [h.free, filter_eraseP_of_disjoint]
          intro q hq
          rw [beq_iff_eq.1 hq]
          exact beq_eq_false_iff_ne.2 hother
      · rw [List.length_set, h.length_used]
      · rw [eraseP_eq_filter hnodup hfind]
        have hmap : (left.filter fun q => q.1 != p.1).map Prod.fst =
            (left.map Prod.fst).filter fun i => i != p.1 := by
          rw [List.filter_map]
          rfl
        rw [hmap, h.left, List.filter_filter]
        refine List.filter_congr fun i _ => ?_
        rw [List.getElem?_set]
        by_cases hi : p.1 = i
        · rw [if_pos hi, if_pos hrange, ← hi]
          simp
        · rw [if_neg hi, bne_iff_ne.2 (Ne.symm hi), Bool.true_and]

/-- After any number of new entries the stacks have found what `alignByIdentifier` finds. -/
theorem Invariant.foldlM (h : m.Invariant olds left) (news : List (Nat × Option String)) :
    ∃ m' left', news.foldlM (fun m p => m.take? p.2 p.1) m = some m' ∧ m'.Invariant olds left' ∧
      m'.pairs ++ left'.map (fun p => ⟨some p.1, none⟩) =
        m.pairs ++ alignByIdentifier left news := by
  induction news generalizing m left with
  | nil => exact ⟨m, left, rfl, h, rfl⟩
  | cons p news ih =>
      obtain ⟨j, key⟩ := p
      obtain ⟨m₁, htake, hm₁⟩ := h.take? key j
      rw [List.foldlM_cons, htake, Option.bind_eq_bind, Option.bind_some, alignByIdentifier]
      cases hfind : left.find? fun p => p.2 == key with
      | none =>
          rw [hfind] at hm₁
          obtain ⟨hpairs, hm₁⟩ := hm₁
          obtain ⟨m', left', hrun, hm', heq⟩ := ih hm₁
          exact ⟨m', left', hrun, hm', by rw [heq, hpairs, List.append_assoc]; rfl⟩
      | some p =>
          rw [hfind] at hm₁
          obtain ⟨hpairs, hm₁⟩ := hm₁
          obtain ⟨m', left', hrun, hm', heq⟩ := ih hm₁
          exact ⟨m', left', hrun, hm', by rw [heq, hpairs, List.append_assoc]; rfl⟩

/-- The old entries that are not used are added in their order. -/
theorem foldlM_unused {used : List Bool} {is : List Nat} (his : ∀ i ∈ is, i < used.length)
    (pairs : List Pair) :
    is.foldlM (fun pairs i => (used[i]?).map fun used =>
        if used then pairs else pairs ++ [(⟨some i, none⟩ : Pair)]) pairs =
      some (pairs ++ (is.filter fun i => used[i]? == some false).map fun i => ⟨some i, none⟩) := by
  induction is generalizing pairs with
  | nil => simp
  | cons i is ih =>
      obtain ⟨hi, his⟩ := List.forall_mem_cons.1 his
      rw [List.foldlM_cons, List.getElem?_eq_getElem hi, Option.map_some, Option.bind_eq_bind,
        Option.bind_some, ih his, List.filter_cons, List.getElem?_eq_getElem hi]
      cases used[i] with
      | true => rfl
      | false => simp

theorem Invariant.finish?_eq (h : m.Invariant olds left) :
    m.finish? olds.length = some (m.pairs ++ left.map fun p => ⟨some p.1, none⟩) := by
  have hrange : ∀ i ∈ List.range olds.length, i < m.used.length := fun i hi => by
    rw [h.length_used]
    exact List.mem_range.1 hi
  rw [finish?, foldlM_unused hrange, ← h.left, List.map_map]
  rfl

end Matching

/-- **The stacks give the pairs of `alignByIdentifier`**, and no position is out of range. -/
theorem pairByStacks?_eq (olds news : List (Option String)) :
    pairByStacks? olds news = some (alignByIdentifier (indexed olds) (indexed news)) := by
  obtain ⟨m, left, hrun, hm, heq⟩ :=
    (Matching.invariant_initial olds).foldlM (indexed news)
  rw [pairByStacks?, hrun, Option.bind_some, hm.finish?_eq, heq]
  rfl

/-! ### Pairing entries -/

section

variable {α κ : Type} [BEq κ] (key : α → κ) (olds news : List α)

/-- The new entries come first, in their order, and then the old ones that are left. -/
theorem exists_pairUp_eq : ∃ (first : List (Option α × Option α)) (left : List α),
    pairUp key olds news = first ++ left.map (fun a => (some a, none)) ∧
      first.map Prod.snd = news.map some ∧ left.Sublist olds := by
  induction news generalizing olds with
  | nil => exact ⟨[], olds, rfl, rfl, List.Sublist.refl olds⟩
  | cons b news ih =>
      rw [pairUp]
      split
      · rename_i a _
        obtain ⟨first, left, heq, hfirst, hleft⟩ := ih (olds.eraseP fun a => key a == key b)
        refine ⟨(some a, some b) :: first, left, ?_, ?_, hleft.trans List.eraseP_sublist⟩
        · rw [heq, List.cons_append]
        · rw [List.map_cons, List.map_cons, hfirst]
      · obtain ⟨first, left, heq, hfirst, hleft⟩ := ih olds
        refine ⟨(none, some b) :: first, left, ?_, ?_, hleft⟩
        · rw [heq, List.cons_append]
        · rw [List.map_cons, List.map_cons, hfirst]

/-- Each old entry is in one pair. -/
theorem filterMap_fst_pairUp_perm : ((pairUp key olds news).filterMap Prod.fst).Perm olds := by
  induction news generalizing olds with
  | nil =>
      rw [pairUp, List.filterMap_map]
      exact List.Perm.of_eq List.filterMap_some
  | cons b news ih =>
      rw [pairUp]
      split
      · rename_i a hfind
        rw [List.filterMap_cons_some (f := Prod.fst) rfl]
        refine ((ih _).cons a).trans ?_
        obtain ⟨ha, before, after, rfl, hbefore⟩ := List.find?_eq_some_iff_append.1 hfind
        rw [List.eraseP_append_right _ fun c hc => by simpa using hbefore c hc,
          List.eraseP_cons_of_pos (p := fun a => key a == key b) ha]
        exact List.perm_middle.symm
      · rw [List.filterMap_cons_none (f := Prod.fst) rfl]
        exact ih olds

variable [LawfulBEq κ] {key olds news}

/-- Paired entries have the same key. -/
theorem key_eq_of_mem_pairUp {a b : α} (h : (some a, some b) ∈ pairUp key olds news) :
    key a = key b := by
  induction news generalizing olds with
  | nil =>
      obtain ⟨c, -, hc⟩ := List.mem_map.1 h
      cases hc
  | cons c news ih =>
      rw [pairUp] at h
      split at h
      · rename_i d hfind
        rcases List.mem_cons.1 h with heq | h
        · obtain ⟨rfl, rfl⟩ : a = d ∧ b = c := by simpa using heq
          exact beq_iff_eq.1 (List.find?_some (p := fun a => key a == key b) hfind)
        · exact ih h
      · rcases List.mem_cons.1 h with heq | h
        · cases heq
        · exact ih h

/-- Of the entries with one key, those in the same place are paired. -/
theorem mem_pairUp_of_getElem? {k : κ} {n : Nat} {a b : α}
    (ha : (olds.filter fun a => key a == k)[n]? = some a)
    (hb : (news.filter fun b => key b == k)[n]? = some b) :
    (some a, some b) ∈ pairUp key olds news := by
  have hmem : (some a, some b) ∈ (pairUp key olds news).filter (hasKey key k) := by
    rw [filter_pairUp, sideBySide]
    refine List.mem_of_getElem? (i := n) ?_
    rw [List.getElem?_zipWithAll, ha, hb]
  exact (List.mem_filter.1 hmem).1

/-- Entries that have the same keys in the same order are paired with each other. -/
theorem pairUp_eq_map_zip (h : List.Forall₂ (fun a b => key a = key b) olds news) :
    pairUp key olds news = (olds.zip news).map fun p => (some p.1, some p.2) := by
  induction h with
  | nil => rfl
  | @cons a b olds news hab _ ih =>
      have hself : (key a == key b) = true := beq_iff_eq.2 hab
      rw [pairUp, List.find?_cons_of_pos (p := fun a => key a == key b) hself]
      dsimp only
      rw [List.eraseP_cons_of_pos (p := fun a => key a == key b) hself, ih, List.zip_cons_cons,
        List.map_cons]

end

/-- The positions of a pair are those of entries. -/
theorem lt_length_of_mem_align {o : Options} {xs ys : List Json} {p : Pair}
    (h : p ∈ align o xs ys) : (∀ i ∈ p.old, i < xs.length) ∧ ∀ j ∈ p.new, j < ys.length := by
  cases halign : o.alignment with
  | positional =>
      rw [align, halign] at h
      obtain ⟨i, -, rfl⟩ := List.mem_map.1 h
      constructor
      all_goals
        intro j hj
        obtain ⟨hlt, heq⟩ := Option.ite_none_right_eq_some.1 hj
        exact Option.some.inj heq ▸ hlt
  | byIdentity =>
      rw [align, halign, alignByIdentifier_eq] at h
      obtain ⟨q, hq, rfl⟩ := List.mem_map.1 h
      obtain ⟨hold, hnew⟩ := mem_of_mem_pairUp hq
      have hlt {zs : List Json} {a : Nat × Option String} (ha : a ∈ identified o zs) :
          a.1 < zs.length := by
        have hrange := List.mem_map_of_mem (f := Prod.fst) ha
        rw [identified, map_fst_indexed, List.length_map] at hrange
        exact List.mem_range.1 hrange
      constructor
      · intro i hi
        obtain ⟨a, ha, rfl⟩ := Option.map_eq_some_iff.1 hi
        exact hlt (hold a ha)
      · intro j hj
        obtain ⟨b, hb, rfl⟩ := Option.map_eq_some_iff.1 hj
        exact hlt (hnew b hb)

/-! ### Pairings -/

/-- The positions of the entries with an identifier, or of those without one. -/
def places (keys : List (Option String)) (key : Option String) : List Nat :=
  (List.range keys.length).filter fun i => keys[i]? == some key

/-- Pairs of positions are a pairing of old and new entries with the given identifiers. -/
structure IsPairing (olds news : List (Option String)) (ps : List Pair) : Prop where
  /-- The first pairs hold the new entries in their order. -/
  new_first : (ps.take news.length).map Pair.new = (List.range news.length).map some
  /-- Each old entry is in one pair. -/
  old_once : (ps.filterMap Pair.old).Perm (List.range olds.length)
  /-- Paired entries have the same identifier, or both have none. -/
  same_key : ∀ p ∈ ps, ∀ i ∈ p.old, ∀ j ∈ p.new, ∃ key, olds[i]? = some key ∧ news[j]? = some key
  /-- Of the entries with one identifier the first ones are paired, the second ones, and so on. -/
  same_place : ∀ (key : Option String) (n i j : Nat), (places olds key)[n]? = some i →
    (places news key)[n]? = some j → ⟨some i, some j⟩ ∈ ps
  /-- The old entries that are left over follow in their order, without a partner. -/
  left_over : ∃ left : List Nat, ps.drop news.length = left.map (fun i => ⟨some i, none⟩) ∧
    left.Pairwise (· < ·)

theorem places_eq (keys : List (Option String)) (key : Option String) :
    places keys key = ((indexed keys).filter fun p => p.2 == key).map Prod.fst := by
  have hkey : ∀ p ∈ indexed keys, (p.2 == key) = (keys[p.1]? == some key) := by
    intro p hp
    rw [mem_indexed hp]
    rfl
  rw [places, ← map_fst_indexed, List.filter_congr hkey, List.filter_map]
  rfl

/-- **The pairs are a pairing by identifiers.** -/
theorem isPairing_alignByIdentifier (olds news : List (Option String)) :
    IsPairing olds news (alignByIdentifier (indexed olds) (indexed news)) := by
  obtain ⟨first, left, heq, hfirst, hleft⟩ :=
    exists_pairUp_eq Prod.snd (indexed olds) (indexed news)
  have hlength : first.length = news.length := by
    have h := congrArg List.length hfirst
    simpa [indexed] using h
  rw [alignByIdentifier_eq]
  refine ⟨?_, ?_, ?_, ?_, left.map Prod.fst, ?_, ?_⟩
  · rw [heq, List.map_append, List.take_left' (by rw [List.length_map, hlength]), List.map_map,
      ← map_fst_indexed, List.map_map]
    exact (List.map_map (f := Prod.snd) (g := Option.map Prod.fst)).symm.trans
      ((congrArg _ hfirst).trans List.map_map)
  · rw [List.filterMap_map, ← map_fst_indexed]
    refine List.Perm.trans (List.Perm.of_eq ?_)
      ((filterMap_fst_pairUp_perm Prod.snd (indexed olds) (indexed news)).map Prod.fst)
    rw [List.map_filterMap]
    rfl
  · intro p hp i hi j hj
    obtain ⟨⟨a, b⟩, hq, rfl⟩ := List.mem_map.1 hp
    obtain ⟨a, rfl, rfl⟩ := Option.map_eq_some_iff.1 hi
    obtain ⟨b, rfl, rfl⟩ := Option.map_eq_some_iff.1 hj
    obtain ⟨hold, hnew⟩ := mem_of_mem_pairUp hq
    refine ⟨a.2, mem_indexed (hold a rfl), ?_⟩
    rw [key_eq_of_mem_pairUp hq]
    exact mem_indexed (hnew b rfl)
  · intro key n i j hi hj
    rw [places_eq, List.getElem?_map, Option.map_eq_some_iff] at hi hj
    obtain ⟨a, ha, rfl⟩ := hi
    obtain ⟨b, hb, rfl⟩ := hj
    exact List.mem_map.2 ⟨_, mem_pairUp_of_getElem? ha hb, rfl⟩
  · rw [heq, List.map_append, List.drop_left' (by rw [List.length_map, hlength]), List.map_map,
      List.map_map]
    rfl
  · have hrange := hleft.map Prod.fst
    rw [map_fst_indexed] at hrange
    exact List.pairwise_lt_range.sublist hrange

end

/-- **The alignment by identifiers is a perfect pairing**, whatever the entries are: it is found by
means of stacks with no position out of range, the first pairs hold the new entries, each old entry
is in one pair, only entries with the same identifier are paired, the first with the first and so
on, and the old entries left over come last. -/
theorem alignByIdentifier_isPairing (o : Options) (xs ys : List Json) :
    pairByStacks? (xs.map (identifier? o)) (ys.map (identifier? o)) =
        some (alignByIdentifier (identified o xs) (identified o ys)) ∧
      IsPairing (xs.map (identifier? o)) (ys.map (identifier? o))
        (alignByIdentifier (identified o xs) (identified o ys)) :=
  ⟨pairByStacks?_eq _ _, isPairing_alignByIdentifier _ _⟩

end CoachLedger.Audit
