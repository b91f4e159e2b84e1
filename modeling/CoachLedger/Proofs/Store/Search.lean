/-
**Searching a store.**

A search looks at the rows of a table one after the other.  If the engine accepts the condition and
does not give up on a row, it finds the rows that the condition selects, page by page; whether they
are those of the records that the program selects is a question about each row.  If it does not
accept the condition, or gives up on a row, there is no answer to a search for all rows.

Main definitions:

* `CoachLedger.Store.records` — the records of a kind that the store holds;
* `CoachLedger.Store.SearchesAs` — searches and counts by a predicate answer with the records that
  the program selects;
* `CoachLedger.Store.IsAnswered` — what this takes of the engine, row by row.

Main results:

* `CoachLedger.Store.scan_eq`, `CoachLedger.Store.scan_eq_error` — what a search finds;
* `CoachLedger.Store.searchesAs_iff` — **when searches answer as the program selects**;
* `CoachLedger.Store.search_eq_engine`, `CoachLedger.Store.count_eq_engine` — with columns of the
  kind a search fails only if the engine does.
-/

import CoachLedger.Proofs.Store.Sound
import CoachLedger.Store.Query

set_option autoImplicit false

namespace CoachLedger.Store

open CoachLedger.Sql (Cell)

variable {kind : RecordKind} {c : Sql.Condition}

/-! ### Scans -/

/-- **What a search finds, as long as the engine does not give up.** -/
theorem scan_eq {rows : List Cells}
    (h : ∀ row ∈ rows, c.overruns (rowView kind row) false = false) (wanted : Nat) :
    scan kind c wanted rows =
      .ok ((rows.filter fun row => c.selects (rowView kind row)).take wanted) := by
  induction rows generalizing wanted with
  | nil => cases wanted <;> rfl
  | cons row rows ih =>
      obtain ⟨hrow, hrows⟩ := List.forall_mem_cons.1 h
      cases wanted with
      | zero => rfl
      | succ wanted =>
          rw [scan, hrow, if_neg Bool.false_ne_true, ih hrows, ih hrows]
          by_cases hs : c.selects (rowView kind row) = true
          · rw [if_pos hs, List.filter_cons, if_pos hs]
            rfl
          · rw [if_neg hs, List.filter_cons, if_neg hs]

/-- **If the engine gives up on a row, a search for as many rows as there are has no answer.** -/
theorem scan_eq_error {rows : List Cells}
    (h : ∃ row ∈ rows, c.overruns (rowView kind row) false = true) {wanted : Nat}
    (hw : rows.length ≤ wanted) : scan kind c wanted rows = .error .engine := by
  induction rows generalizing wanted with
  | nil =>
      obtain ⟨row, hrow, -⟩ := h
      cases hrow
  | cons row rows ih =>
      cases wanted with
      | zero => cases hw
      | succ wanted =>
          have hle : rows.length ≤ wanted := Nat.le_of_succ_le_succ hw
          by_cases hrow : c.overruns (rowView kind row) false = true
          · rw [scan, if_pos hrow]
          · -- The search goes on past this row, still wanting as many rows as are left.
            have hrest : ∃ r ∈ rows, c.overruns (rowView kind r) false = true := by
              obtain ⟨r, hr, hover⟩ := h
              rcases List.mem_cons.1 hr with rfl | hr
              · exact absurd hover hrow
              · exact ⟨r, hr, hover⟩
            rw [scan, if_neg hrow, ih hrest hle, ih hrest (Nat.le_succ_of_le hle)]
            split <;> rfl

/-! ### Answers -/

/-- The records of a kind that the store holds, in the order of their keys. -/
def records (s : Store) (kind : RecordKind) : List Record :=
  (s.rows kind).map (decode kind)

/-- Searches by the predicate answer with the pages of the records that the program selects, and
counting with their number. -/
structure SearchesAs (s : Store) (kind : RecordKind) (p : Predicate) : Prop where
  search : ∀ limit offset, s.search kind p limit offset =
    .ok ((((s.records kind).filter p.selects).drop offset).take limit)
  count : s.count kind p = .ok ((s.records kind).filter p.selects).length

/-- The engine accepts the predicate, gives up on no row, and selects a row exactly if the program
selects its record. -/
structure IsAnswered (s : Store) (kind : RecordKind) (p : Predicate) : Prop where
  fits : (Sql.Condition.ofPredicate p).fits = true
  overruns : ∀ row ∈ s.rows kind,
    (Sql.Condition.ofPredicate p).overruns (rowView kind row) false = false
  agrees : ∀ row ∈ s.rows kind, Filter.Agrees (rowView kind row) (decode kind row) p

theorem foreignColumn?_eq_none {p : Predicate}
    (hcols : ∀ column ∈ p.mentioned, kind.has column = true) : foreignColumn? kind p = none := by
  refine List.find?_eq_none.2 fun column hc => ?_
  rw [Predicate.columns, List.mem_eraseDups] at hc
  rw [hcols column hc]
  decide

theorem conditionFor_eq {p : Predicate} (hcols : ∀ column ∈ p.mentioned, kind.has column = true)
    (hfits : (Sql.Condition.ofPredicate p).fits = true) :
    conditionFor kind p = .ok (Sql.Condition.ofPredicate p) := by
  rw [conditionFor, foreignColumn?_eq_none hcols]
  dsimp only
  rw [if_pos hfits]

/-- A page of what is found is found by looking for enough of it. -/
theorem drop_take_page {α : Type} (l : List α) (limit offset : Nat) :
    (l.take (if limit = 0 then 0 else offset + limit)).drop offset =
      (l.drop offset).take limit := by
  by_cases h : limit = 0
  · rw [if_pos h, h, List.take_zero, List.take_zero, List.drop_nil]
  · rw [if_neg h, List.drop_take, Nat.add_sub_cancel_left]

section

variable {s : Store} {p : Predicate}

theorem search_eq (hcols : ∀ column ∈ p.mentioned, kind.has column = true)
    (hfits : (Sql.Condition.ofPredicate p).fits = true)
    (hover : ∀ row ∈ s.rows kind,
      (Sql.Condition.ofPredicate p).overruns (rowView kind row) false = false)
    (limit offset : Nat) :
    s.search kind p limit offset =
      .ok ((((s.rows kind).filter fun row =>
        (Sql.Condition.ofPredicate p).selects (rowView kind row)).map (decode kind)
          |>.drop offset).take limit) := by
  rw [search, conditionFor_eq hcols hfits]
  dsimp only
  rw [scan_eq hover]
  dsimp only
  rw [drop_take_page, List.map_take, List.map_drop]

theorem count_eq (hcols : ∀ column ∈ p.mentioned, kind.has column = true)
    (hfits : (Sql.Condition.ofPredicate p).fits = true)
    (hover : ∀ row ∈ s.rows kind,
      (Sql.Condition.ofPredicate p).overruns (rowView kind row) false = false) :
    s.count kind p =
      .ok ((s.rows kind).filter fun row =>
        (Sql.Condition.ofPredicate p).selects (rowView kind row)).length := by
  rw [count, conditionFor_eq hcols hfits]
  dsimp only
  rw [scan_eq hover]
  dsimp only
  rw [List.take_of_length_le (List.length_filter_le ..)]

/-- The selected rows have the selected records exactly if each row is selected with its record. -/
theorem map_filter_eq_iff {α β : Type} [DecidableEq β] (f : α → β) (p : α → Bool) (q : β → Bool)
    (l : List α) : (l.filter p).map f = (l.map f).filter q ↔ ∀ a ∈ l, p a = q (f a) := by
  constructor
  · intro h a ha
    -- Rows may have the same record, so what counts is how often it occurs on both sides.
    have hmem : a ∈ l.filter fun x => f x == f a := List.mem_filter.2 ⟨ha, beq_self_eq_true _⟩
    have hleft : ((l.filter p).map f).count (f a) = (l.filter fun x => f x == f a).countP p := by
      rw [List.count, List.countP_map, List.countP_filter, List.countP_filter]
      exact List.countP_congr fun x _ => by simp [and_comm]
    have hright : ((l.map f).filter q).count (f a) =
        (l.filter fun x => f x == f a).countP fun _ => q (f a) := by
      rw [List.count, List.countP_filter, List.countP_map, List.countP_filter]
      refine List.countP_congr ?_
      intro x _
      simp only [Function.comp_apply, Bool.and_eq_true, beq_iff_eq]
      constructor
      · rintro ⟨hx, hq⟩
        exact ⟨hx ▸ hq, hx⟩
      · rintro ⟨hq, hx⟩
        exact ⟨hx, hx ▸ hq⟩
    rw [h, hright] at hleft
    cases hq : q (f a) with
    | true =>
        rw [hq, List.countP_true] at hleft
        exact List.countP_eq_length.1 hleft.symm a hmem
    | false =>
        rw [hq, List.countP_false] at hleft
        simpa using List.countP_eq_zero.1 hleft.symm a hmem
  · intro h
    rw [List.filter_map]
    exact congrArg (List.map f) (List.filter_congr h)

/-- If the engine does not give up, searches answer as the program selects exactly if they do so on
each row. -/
theorem searchesAs_iff_agrees (hcols : ∀ column ∈ p.mentioned, kind.has column = true)
    (hfits : (Sql.Condition.ofPredicate p).fits = true)
    (hover : ∀ row ∈ s.rows kind,
      (Sql.Condition.ofPredicate p).overruns (rowView kind row) false = false) :
    SearchesAs s kind p ↔
      ∀ row ∈ s.rows kind, Filter.Agrees (rowView kind row) (decode kind row) p := by
  have hiff := map_filter_eq_iff (decode kind)
    (fun row => (Sql.Condition.ofPredicate p).selects (rowView kind row)) p.selects (s.rows kind)
  constructor
  · intro h
    refine hiff.1 ?_
    -- A page that is long enough holds all that is found.
    have hall := h.search (s.rows kind).length 0
    rw [search_eq hcols hfits hover, Except.ok.injEq, List.drop_zero, List.drop_zero,
      List.take_of_length_le, List.take_of_length_le] at hall
    · exact hall
    · refine Nat.le_trans (List.length_filter_le ..) ?_
      rw [records, List.length_map]
    · rw [List.length_map]
      exact List.length_filter_le ..
  · intro h
    have heq := hiff.2 h
    refine ⟨?_, ?_⟩
    · intro limit offset
      rw [search_eq hcols hfits hover, heq, records]
    · rw [count_eq hcols hfits hover, records, ← heq, List.length_map]

/-- There is no number of the rows if the engine does not accept the condition or gives up on one of
them. -/
theorem fits_and_overruns_of_count (hcols : ∀ column ∈ p.mentioned, kind.has column = true)
    {n : Nat} (h : s.count kind p = .ok n) :
    (Sql.Condition.ofPredicate p).fits = true ∧ ∀ row ∈ s.rows kind,
      (Sql.Condition.ofPredicate p).overruns (rowView kind row) false = false := by
  have hfits : (Sql.Condition.ofPredicate p).fits = true := by
    cases hf : (Sql.Condition.ofPredicate p).fits with
    | true => rfl
    | false =>
        rw [count, conditionFor, foreignColumn?_eq_none hcols] at h
        dsimp only at h
        rw [hf, if_neg Bool.false_ne_true] at h
        cases h
  refine ⟨hfits, ?_⟩
  intro row hrow
  rw [← Bool.not_eq_true]
  intro hover
  rw [count, conditionFor_eq hcols hfits] at h
  dsimp only at h
  rw [scan_eq_error ⟨row, hrow, hover⟩ (Nat.le_refl _)] at h
  cases h

/-- **When searches answer as the program selects.** -/
theorem searchesAs_iff (hcols : ∀ column ∈ p.mentioned, kind.has column = true) :
    SearchesAs s kind p ↔ IsAnswered s kind p := by
  constructor
  · intro h
    obtain ⟨hfits, hover⟩ := fits_and_overruns_of_count hcols h.count
    exact ⟨hfits, hover, (searchesAs_iff_agrees hcols hfits hover).1 h⟩
  · rintro ⟨hfits, hover, hagrees⟩
    exact (searchesAs_iff_agrees hcols hfits hover).2 hagrees

/-! ### Failures -/

/-- A scan fails only if the engine gives up. -/
theorem scan_eq_engine {wanted : Nat} {rows : List Cells} {e : Failure}
    (h : scan kind c wanted rows = .error e) : e = .engine := by
  induction rows generalizing wanted with
  | nil => cases wanted <;> cases h
  | cons row rows ih =>
      cases wanted with
      | zero => cases h
      | succ wanted =>
          rw [scan] at h
          split at h
          · exact (Except.error.inj h).symm
          · split at h
            · split at h
              · cases h
              · rename_i x hrest
                obtain rfl := Except.error.inj h
                exact ih hrest
            · exact ih h

/-- A predicate on columns of the kind has a condition unless the engine does not accept it. -/
theorem conditionFor_eq_engine (hcols : ∀ column ∈ p.mentioned, kind.has column = true)
    {e : Failure} (h : conditionFor kind p = .error e) : e = .engine := by
  rw [conditionFor, foreignColumn?_eq_none hcols] at h
  dsimp only at h
  split at h
  · cases h
  · exact (Except.error.inj h).symm

theorem search_eq_engine {limit offset : Nat}
    (hcols : ∀ column ∈ p.mentioned, kind.has column = true) {e : Failure}
    (h : s.search kind p limit offset = .error e) : e = .engine := by
  unfold search at h
  split at h
  · rename_i x hx
    obtain rfl := Except.error.inj h
    exact conditionFor_eq_engine hcols hx
  · split at h
    · rename_i x hx
      obtain rfl := Except.error.inj h
      exact scan_eq_engine hx
    · cases h

theorem count_eq_engine (hcols : ∀ column ∈ p.mentioned, kind.has column = true) {e : Failure}
    (h : s.count kind p = .error e) : e = .engine := by
  unfold count at h
  split at h
  · rename_i x hx
    obtain rfl := Except.error.inj h
    exact conditionFor_eq_engine hcols hx
  · split at h
    · rename_i x hx
      obtain rfl := Except.error.inj h
      exact scan_eq_engine hx
    · cases h

end

end CoachLedger.Store
