/-
**Reading a search page by page.**

The pages of a search, read one after the other until one is empty, hold what a search without a
limit finds, and fail exactly if that search fails.  What is found are the selected rows in the
order of their keys, each once, and as many as are counted.  The records stand in the order of the
keys as they are read, too, and this is the order in which the records of any coaches are read; but
it is strict, and the two orders are the same, only where no two keys are read as equal.  Coach
numbers never are, while the numbers of two history records are if both are read as the same number.

Main definitions:

* `CoachLedger.Store.PagesFrom` — what the pages from an offset on come to;
* `CoachLedger.Store.KeyLess`, `CoachLedger.Store.ReadsApart` — strict order of the keys that are
  read, and that no two of them are equal;
* `CoachLedger.Store.IsListing` — what a search without a limit finds.

Main results:

* `CoachLedger.Store.pagesFrom_search` — the pages hold what the search finds;
* `CoachLedger.Store.sublist_of_pairwise` — two lists in one order, in a general form;
* `CoachLedger.Store.pages_loseNothing` — **paging loses and repeats nothing**;
* `CoachLedger.Store.not_ordered_exchanged` — two history records that are read with one number.
-/

import CoachLedger.Proofs.Store.Pieces

set_option autoImplicit false

namespace CoachLedger.Store

open CoachLedger.Sql (Cell)

variable {kind : RecordKind} {c : Sql.Condition} {s : Store} {p : Predicate}

/-! ### Pages -/

/-- What the pages of a size come to, read from an offset on until one is empty or fails. -/
inductive PagesFrom (page : Nat → Except Failure (List Record)) (size : Nat) :
    Nat → Except Failure (List Record) → Prop
  | last {offset : Nat} : page offset = .ok [] → PagesFrom page size offset (.ok [])
  | failed {offset : Nat} {e : Failure} :
      page offset = .error e → PagesFrom page size offset (.error e)
  | more {offset : Nat} {found : List Record} {rest : Except Failure (List Record)} :
      page offset = .ok found → found ≠ [] → PagesFrom page size (offset + size) rest →
        PagesFrom page size offset (rest.map (found ++ ·))

section

variable {page : Nat → Except Failure (List Record)} {size : Nat}

/-- Pages come to one thing only. -/
theorem PagesFrom.unique {offset : Nat} {a b : Except Failure (List Record)}
    (ha : PagesFrom page size offset a) (hb : PagesFrom page size offset b) : a = b := by
  induction ha generalizing b with
  | last hpage =>
      cases hb with
      | last _ => rfl
      | failed h => cases hpage.symm.trans h
      | more h hne _ => exact absurd (Except.ok.inj (h.symm.trans hpage)) hne
  | failed hpage =>
      cases hb with
      | last h => cases hpage.symm.trans h
      | failed h => rw [Except.error.inj (hpage.symm.trans h)]
      | more h _ _ => cases hpage.symm.trans h
  | more hpage hne _ ih =>
      cases hb with
      | last h => exact absurd (Except.ok.inj (hpage.symm.trans h)) hne
      | failed h => cases hpage.symm.trans h
      | more h _ hrest => rw [Except.ok.inj (hpage.symm.trans h), ih hrest]

/-- Pages that are slices of a list come to the list.  The induction is on what is left of it. -/
theorem pagesFrom_slices (hsize : 0 < size) {l : List Record}
    (hpage : ∀ offset, page offset = .ok ((l.drop offset).take size)) (offset : Nat) :
    PagesFrom page size offset (.ok (l.drop offset)) := by
  induction hn : l.length - offset using Nat.strongRecOn generalizing offset with
  | _ n ih =>
      by_cases hl : l.length ≤ offset
      · have hnil : l.drop offset = [] := List.drop_eq_nil_of_le hl
        rw [hnil]
        exact .last (by rw [hpage, hnil, List.take_nil])
      · have hrest := ih (l.length - (offset + size)) (by omega) (offset + size) rfl
        have hsplit : (l.drop offset).take size ++ l.drop (offset + size) = l.drop offset := by
          rw [← List.drop_drop, List.take_append_drop]
        have hne : (l.drop offset).take size ≠ [] := by
          refine List.ne_nil_of_length_pos ?_
          rw [List.length_take, List.length_drop]
          omega
        have hmore := PagesFrom.more (hpage offset) hne hrest
        rwa [Except.map, hsplit] at hmore

/-- Pages that fail at the latest at a bound, and are not empty before, come to the failure. -/
theorem pagesFrom_failure (hsize : 0 < size) {e : Failure} {bound : Nat}
    (hpage : ∀ offset, page offset = .error e ∨
      offset < bound ∧ ∃ found, page offset = .ok found ∧ found ≠ []) (offset : Nat) :
    PagesFrom page size offset (.error e) := by
  induction hn : bound - offset using Nat.strongRecOn generalizing offset with
  | _ n ih =>
      rcases hpage offset with hfail | ⟨hlt, found, hok, hne⟩
      · exact .failed hfail
      · exact .more hok hne (ih (bound - (offset + size)) (by omega) (offset + size) rfl)

end

/-! ### Pages of a search -/

/-- If the engine would give up on a row, a scan that does not come to it has found all that it
wants. -/
theorem length_scan_of_overruns {rows : List Cells}
    (h : ∃ row ∈ rows, c.overruns (rowView kind row) false = true) {wanted : Nat}
    {found : List Cells} (hscan : scan kind c wanted rows = .ok found) : found.length = wanted := by
  induction rows generalizing wanted found with
  | nil =>
      obtain ⟨row, hrow, -⟩ := h
      cases hrow
  | cons row rows ih =>
      cases wanted with
      | zero =>
          cases hscan
          rfl
      | succ wanted =>
          by_cases hrow : c.overruns (rowView kind row) false = true
          · rw [scan, if_pos hrow] at hscan
            cases hscan
          · have hrest : ∃ r ∈ rows, c.overruns (rowView kind r) false = true := by
              obtain ⟨r, hr, hover⟩ := h
              rcases List.mem_cons.1 hr with rfl | hr
              · exact absurd hover hrow
              · exact ⟨r, hr, hover⟩
            rw [scan, if_neg hrow] at hscan
            split at hscan
            · split at hscan
              · rename_i others hothers
                cases hscan
                rw [List.length_cons, ih hrest hothers]
              · cases hscan
            · exact ih hrest hscan

/-- The search answers: the engine accepts the condition and gives up on no row. -/
def Answers (s : Store) (kind : RecordKind) (p : Predicate) : Prop :=
  (Sql.Condition.ofPredicate p).fits = true ∧ ∀ row ∈ s.rows kind,
    (Sql.Condition.ofPredicate p).overruns (rowView kind row) false = false

theorem exists_overruns (hfits : (Sql.Condition.ofPredicate p).fits = true)
    (h : ¬ s.Answers kind p) : ∃ row ∈ s.rows kind,
      (Sql.Condition.ofPredicate p).overruns (rowView kind row) false = true := by
  by_contra hnone
  refine h ⟨hfits, ?_⟩
  intro row hrow
  rw [← Bool.not_eq_true]
  exact fun hover => hnone ⟨row, hrow, hover⟩

/-- The rows that the condition of a predicate selects. -/
def rowsFound (s : Store) (kind : RecordKind) (p : Predicate) : List Cells :=
  (s.rows kind).filter fun row => (Sql.Condition.ofPredicate p).selects (rowView kind row)

section

variable (hcols : ∀ column ∈ p.mentioned, kind.has column = true)
include hcols

theorem search_of_answers (h : s.Answers kind p) (limit offset : Nat) :
    s.search kind p limit offset =
      .ok ((((s.rowsFound kind p).map (decode kind)).drop offset).take limit) :=
  search_eq hcols h.1 h.2 limit offset

/-- A search that has an answer for every row of the table finds the rows that are selected. -/
theorem search_all_of_answers (h : s.Answers kind p) {limit : Nat}
    (hlimit : (s.rows kind).length ≤ limit) :
    s.search kind p limit 0 = .ok ((s.rowsFound kind p).map (decode kind)) := by
  rw [search_of_answers hcols h, List.drop_zero, List.take_of_length_le]
  rw [List.length_map]
  exact Nat.le_trans (List.length_filter_le ..) hlimit

theorem search_of_not_fits (hfits : (Sql.Condition.ofPredicate p).fits = false)
    (limit offset : Nat) : s.search kind p limit offset = .error .engine := by
  have hcondition : conditionFor kind p = .error .engine := by
    rw [conditionFor, foreignColumn?_eq_none hcols]
    dsimp only
    rw [hfits, if_neg Bool.false_ne_true]
  rw [search, hcondition]

/-- Where the engine gives up on a row, a page fails, or is not empty and ends before the end of the
table. -/
theorem search_of_overruns (hfits : (Sql.Condition.ofPredicate p).fits = true)
    (hover : ∃ row ∈ s.rows kind,
      (Sql.Condition.ofPredicate p).overruns (rowView kind row) false = true)
    {size : Nat} (hsize : 0 < size) (offset : Nat) :
    s.search kind p size offset = .error .engine ∨ offset < (s.rows kind).length ∧
      ∃ found, s.search kind p size offset = .ok found ∧ found ≠ [] := by
  rw [search, conditionFor_eq hcols hfits]
  dsimp only
  rw [if_neg (Nat.ne_of_gt hsize)]
  cases hscan : scan kind (Sql.Condition.ofPredicate p) (offset + size) (s.rows kind) with
  | error e => exact .inl (by rw [scan_eq_engine hscan])
  | ok found =>
      have hlength := length_scan_of_overruns hover hscan
      have hlt : offset + size < (s.rows kind).length := by
        by_contra hge
        rw [scan_eq_error hover (Nat.le_of_not_lt hge)] at hscan
        cases hscan
      refine .inr ⟨by omega, _, rfl, ?_⟩
      refine List.ne_nil_of_length_pos ?_
      rw [List.length_map, List.length_drop]
      omega

/-- A search for all rows fails if the engine does not accept the condition or gives up on one of
them. -/
theorem search_all_of_not_answers (h : ¬ s.Answers kind p) {limit : Nat}
    (hlimit : (s.rows kind).length ≤ limit) : s.search kind p limit 0 = .error .engine := by
  cases hfits : (Sql.Condition.ofPredicate p).fits with
  | false => exact search_of_not_fits hcols hfits limit 0
  | true =>
      have hover := exists_overruns hfits h
      have hpos : limit ≠ 0 := by
        obtain ⟨row, hrow, -⟩ := hover
        have := List.length_pos_of_mem hrow
        omega
      rw [search, conditionFor_eq hcols hfits]
      dsimp only
      rw [if_neg hpos, scan_eq_error hover (by omega)]

/-- **The pages hold what the search finds, and fail exactly if it fails.** -/
theorem pagesFrom_search {size limit : Nat} (hsize : 0 < size)
    (hlimit : (s.rows kind).length ≤ limit) :
    PagesFrom (s.search kind p size) size 0 (s.search kind p limit 0) := by
  by_cases h : s.Answers kind p
  · rw [search_all_of_answers hcols h hlimit]
    exact pagesFrom_slices hsize (search_of_answers hcols h size) 0
  · rw [search_all_of_not_answers hcols h hlimit]
    cases hfits : (Sql.Condition.ofPredicate p).fits with
    | false => exact .failed (search_of_not_fits hcols hfits size 0)
    | true =>
        have hover := exists_overruns hfits h
        exact pagesFrom_failure hsize (search_of_overruns hcols hfits hover hsize) 0

end

/-! ### Keys as they are read -/

/-- The key that is read of the first record is less than that of the second one. -/
def KeyLess (kind : RecordKind) (a b : Record) : Prop :=
  (a.get kind.keyField).compare (b.get kind.keyField) = some .lt

instance (kind : RecordKind) : DecidableRel (KeyLess kind) := fun _ _ =>
  inferInstanceAs (Decidable (_ = _))

/-- No two keys of the records of a kind are read as equal. -/
def ReadsApart (s : Store) (kind : RecordKind) : Prop :=
  (s.records kind).Pairwise fun a b =>
    (a.get kind.keyField).compare (b.get kind.keyField) ≠ some .eq

/-- The key of a coach record is read as the coach number of its row. -/
theorem get_keyField_master (hs : IsSound s) {row : Cells} (hrow : row ∈ s.rows .master) :
    ∃ coach, coachOf .master row = .text coach ∧
      (decode .master row).get RecordKind.master.keyField = .text coach := by
  obtain ⟨coach, hcoach, -⟩ := (hs.rows .master row hrow).coach
  exact ⟨coach, hcoach, get_identity_decode hcoach⟩

/-- The keys of the rows of a table are read in their order; only numbers may be read as equal. -/
theorem compare_of_keyLT (hs : IsSound s) {a b : Cells} (ha : a ∈ s.rows kind)
    (hb : b ∈ s.rows kind) (h : KeyLT kind a b) :
    KeyLess kind (decode kind a) (decode kind b) ∨ kind = .history ∧
      ((decode kind a).get kind.keyField).compare ((decode kind b).get kind.keyField) =
        some .eq := by
  cases kind with
  | master =>
      obtain ⟨t, ht, hreadt⟩ := get_keyField_master hs ha
      obtain ⟨u, hu, hreadu⟩ := get_keyField_master hs hb
      rw [KeyLT, keyOf_master, keyOf_master, ht, hu, Cell.compare_text_text] at h
      refine .inl ?_
      rw [KeyLess, hreadt, hreadu]
      exact h
  | history =>
      have hlt : numberOf a < numberOf b := by
        rw [KeyLT, keyOf_history hs ha, keyOf_history hs hb, compare_integer, Option.some.injEq,
          Int.compare_eq_lt] at h
        exact h
      rw [KeyLess, get_keyField_history hs ha, get_keyField_history hs hb, Value.compare,
        Binary64.compare_ofInt_ofInt]
      rcases Int.lt_or_eq_of_le (Binary64.placeOfInt_mono (Int.le_of_lt hlt)) with hplace | hplace
      · exact .inl (congrArg some (Int.compare_eq_lt.2 hplace))
      · exact .inr ⟨rfl, congrArg some (Int.compare_eq_eq.2 hplace)⟩

/-- The records of a store stand in the strict order of their keys, if these are read apart. -/
theorem pairwise_keyLess (hs : IsSound s) (h : s.ReadsApart kind) :
    (s.records kind).Pairwise (KeyLess kind) := by
  unfold ReadsApart records at h
  unfold records
  rw [List.pairwise_map] at h ⊢
  refine ((hs.table kind).sorted.and h).imp_of_mem ?_
  rintro a b ha hb ⟨hab, hne⟩
  rcases compare_of_keyLT hs ha hb hab with hless | ⟨-, heq⟩
  · exact hless
  · exact absurd heq hne

/-- The records of a store stand in the order of their keys, even if some are read as equal. -/
theorem pairwise_keyLE (hs : IsSound s) (kind : RecordKind) :
    (s.records kind).Pairwise fun a b => keyLE kind a b = true := by
  unfold records
  rw [List.pairwise_map]
  refine (hs.table kind).sorted.imp_of_mem ?_
  intro a b ha hb hab
  rcases compare_of_keyLT hs ha hb hab with hless | ⟨-, heq⟩
  · rw [keyLE, hless]
    rfl
  · rw [keyLE, heq]
    rfl

/-- Coach numbers are read apart. -/
theorem readsApart_master (hs : IsSound s) : s.ReadsApart .master := by
  unfold ReadsApart records
  rw [List.pairwise_map]
  refine (hs.table .master).sorted.imp_of_mem ?_
  intro a b ha hb hab
  rcases compare_of_keyLT hs ha hb hab with hless | ⟨hk, -⟩
  · rw [hless]
    simp
  · cases hk

/-- Numbers that are read as they are, are read apart. -/
theorem readsApart_history (hs : IsSound s)
    (hexact : ∀ coach i, s.HasNumber coach i → Binary64.IsExact i) : s.ReadsApart .history := by
  unfold ReadsApart records
  rw [List.pairwise_map]
  refine (pairwise_numberOf hs).imp_of_mem ?_
  intro a b ha hb hab heq
  rw [get_keyField_history hs ha, get_keyField_history hs hb, Value.compare,
    Binary64.compare_ofInt_ofInt, Option.some.injEq, Int.compare_eq_eq] at heq
  rw [eq_of_placeOfInt hs ha hb hexact heq] at hab
  exact Int.lt_irrefl _ hab

/-- Of two records of a store only one can come first. -/
theorem keyLE_eq_false_of_keyLess (hs : IsSound s) {a b : Record} (ha : a ∈ s.records kind)
    (hb : b ∈ s.records kind) (h : KeyLess kind a b) : keyLE kind b a = false := by
  obtain ⟨x, hx, rfl⟩ := List.mem_map.1 ha
  obtain ⟨y, hy, rfl⟩ := List.mem_map.1 hb
  cases kind with
  | master =>
      obtain ⟨t, -, hreadt⟩ := get_keyField_master hs hx
      obtain ⟨u, -, hreadu⟩ := get_keyField_master hs hy
      rw [KeyLess, hreadt, hreadu, Value.compare, Option.some.injEq, Text.order_eq_lt] at h
      rw [keyLE, hreadt, hreadu, Value.compare]
      dsimp only
      rw [Text.order_eq_gt.2 h]
      rfl
  | history =>
      rw [KeyLess, get_keyField_history hs hx, get_keyField_history hs hy, Value.compare,
        Binary64.compare_ofInt_ofInt, Option.some.injEq, Int.compare_eq_lt] at h
      rw [keyLE_history hs hy hx]
      exact decide_eq_false (Int.not_le.2 h)

/-! ### One order -/

/-- A list in a strict order is part of every list in an order that does not go against it, if its
members are. -/
theorem sublist_of_pairwise {α : Type} {lt le : α → α → Prop} {l m : List α}
    (hl : l.Pairwise lt) (hm : m.Pairwise le) (hmem : ∀ a ∈ l, a ∈ m)
    (hirrefl : ∀ a ∈ m, ¬ lt a a) (hle : ∀ a ∈ m, ∀ b ∈ m, lt a b → ¬ le b a) :
    l.Sublist m := by
  induction m generalizing l with
  | nil =>
      cases l with
      | nil => exact .slnil
      | cons a l => cases hmem a (List.mem_cons_self ..)
  | cons b m ih =>
      obtain ⟨hb, htail⟩ := List.pairwise_cons.1 hm
      have hirrefl' : ∀ a ∈ m, ¬ lt a a := fun a ha => hirrefl a (List.mem_cons_of_mem _ ha)
      have hle' : ∀ x ∈ m, ∀ y ∈ m, lt x y → ¬ le y x := fun x hx y hy =>
        hle x (List.mem_cons_of_mem _ hx) y (List.mem_cons_of_mem _ hy)
      cases l with
      | nil => exact List.nil_sublist _
      | cons a l =>
          obtain ⟨ha, hl'⟩ := List.pairwise_cons.1 hl
          rcases List.mem_cons.1 (hmem a (List.mem_cons_self ..)) with rfl | ham
          · refine (ih hl' htail ?_ hirrefl' hle').cons_cons a
            intro d hd
            refine (List.mem_cons.1 (hmem d (List.mem_cons_of_mem _ hd))).resolve_left ?_
            rintro rfl
            exact hirrefl d (List.mem_cons_self ..) (ha d hd)
          · -- The first member of the second list comes before `a`: none after `a` is equal to it.
            refine (ih hl htail ?_ hirrefl' hle').cons b
            intro d hd
            rcases List.mem_cons.1 hd with rfl | hd
            · exact ham
            · refine (List.mem_cons.1 (hmem d (List.mem_cons_of_mem _ hd))).resolve_left ?_
              rintro rfl
              exact hle a (List.mem_cons_of_mem _ ham) d (List.mem_cons_self ..) (ha d hd)
                (hb a ham)

/-- The records of any coaches are read in the order of the table, if the keys are read apart. -/
theorem filter_sublist_get (hs : IsSound s) (h : s.ReadsApart kind) {found : List Record}
    (hsub : found.Sublist (s.records kind)) (coaches : List String) :
    (found.filter (Record.isOf coaches)).Sublist (s.get kind coaches) := by
  have hreads := readsByPieces_get hs kind coaches
  have hrecords : ∀ r ∈ s.get kind coaches, r ∈ s.records kind := fun r hr =>
    ((hreads.mem r).1 hr).1
  have hless := ((pairwise_keyLess hs h).sublist hsub).filter (Record.isOf coaches)
  refine sublist_of_pairwise hless hreads.sorted ?_ ?_ ?_
  · intro r hr
    obtain ⟨hmem, hof⟩ := List.mem_filter.1 hr
    exact (hreads.mem r).2 ⟨hsub.subset hmem, hof⟩
  · intro a ha hless
    have hfalse := keyLE_eq_false_of_keyLess hs (hrecords a ha) (hrecords a ha) hless
    rw [keyLE, hless] at hfalse
    cases hfalse
  · intro a ha b hb hless
    rw [keyLE_eq_false_of_keyLess hs (hrecords a ha) (hrecords b hb) hless]
    exact Bool.false_ne_true

/-! ### Paging -/

/-- What a search without a limit finds. -/
structure IsListing (s : Store) (kind : RecordKind) (p : Predicate) (found : List Record) :
    Prop where
  /-- The records are those of the rows that the condition selects, each once, in the strict order
  of their keys. -/
  rows : ∃ rows : List Cells, rows.Sublist (s.rows kind) ∧ rows.Pairwise (KeyLT kind) ∧
    (∀ row, row ∈ rows ↔
      row ∈ s.rows kind ∧ (Sql.Condition.ofPredicate p).selects (rowView kind row) = true) ∧
    found = rows.map (decode kind)
  /-- They are as many as are counted. -/
  counted : s.count kind p = .ok found.length
  /-- They stand in the order of the keys as these are read. -/
  ordered : found.Pairwise fun a b => keyLE kind a b = true
  strict : s.ReadsApart kind → found.Pairwise (KeyLess kind)
  /-- The records of any coaches are read in the same order. -/
  likeGet : s.ReadsApart kind →
    ∀ coaches, (found.filter (Record.isOf coaches)).Sublist (s.get kind coaches)

theorem isListing_rowsFound (hs : IsSound s)
    (hcols : ∀ column ∈ p.mentioned, kind.has column = true) (h : s.Answers kind p) :
    IsListing s kind p ((s.rowsFound kind p).map (decode kind)) := by
  have hrows : (s.rowsFound kind p).Sublist (s.rows kind) := List.filter_sublist
  have hrecords : ((s.rowsFound kind p).map (decode kind)).Sublist (s.records kind) :=
    hrows.map _
  refine ⟨⟨_, hrows, (hs.table kind).sorted.sublist hrows, fun row => List.mem_filter, rfl⟩, ?_,
    (pairwise_keyLE hs kind).sublist hrecords, ?_, ?_⟩
  · rw [count_eq hcols h.1 h.2, List.length_map]
    rfl
  · intro happart
    exact (pairwise_keyLess hs happart).sublist hrecords
  · intro happart
    exact filter_sublist_get hs happart hrecords

/-- The record of a coach, with nothing else in it. -/
def coachRecord (kind : RecordKind) (coach : String) : Record :=
  (Record.empty kind).put CoachLedger.identityField (.text coach)

theorem isValid_coachRecord (kind : RecordKind) (coach : String) :
    (coachRecord kind coach).IsValid :=
  Record.isValid_put (Record.isValid_empty kind) (field?_identity kind) (Value.fits_of_kind? rfl)

/-- Two coaches, put in against their order. -/
def twoCoaches : List Record :=
  [coachRecord .master "C2", coachRecord .master "C1"]

/-- The second of two history records is given the number after that of the first one, and its coach
comes first. -/
def exchangedRecords : List Record :=
  [(coachRecord .history "C2").put "id" (.number (.ofInt 9007199254740992)),
    coachRecord .history "C1"]

theorem reachable_exchangedRecords : (filled exchangedRecords).Reachable := by
  refine reachable_filled ?_ (by decide +kernel)
  intro r hr
  rcases List.mem_cons.1 hr with rfl | hr
  · exact Record.isValid_put (f := ⟨"id", .number⟩) (isValid_coachRecord .history "C2")
      (by decide) (Value.fits_of_kind? rfl)
  · rw [List.mem_singleton.1 hr]
    exact isValid_coachRecord .history "C1"

theorem mergeSort_pair {α : Type} (le : α → α → Bool) (a b : α) :
    [a, b].mergeSort le = if le a b then [a, b] else [b, a] := by
  simp [List.mergeSort, List.merge]

/-- The two rows, in the order of the table. -/
def exchangedRow (i : Nat) : Cells :=
  ((filled exchangedRecords).rows .history).getD i []

/-- The records are sorted by their coaches, and by their numbers, which are level, after that. -/
theorem get_exchangedRecords : (filled exchangedRecords).get .history ["C1", "C2"] =
    [decode .history (exchangedRow 1), decode .history (exchangedRow 0)] := by
  have hpieces : chunks maxBound ["C1", "C2"] = [["C1", "C2"]] := by
    rw [chunks_of_pos (by decide) (by simp)]
    exact congrArg _ (chunks_nil maxBound)
  have hfilter : ((filled exchangedRecords).rows .history).filter
      (isOneOf .history ["C1", "C2"]) = [exchangedRow 0, exchangedRow 1] := by
    decide +kernel
  have hcoach : cellLE (coachOf .history (exchangedRow 0)) (coachOf .history (exchangedRow 1)) =
      false := by
    decide +kernel
  have hkey : keyLE .history (decode .history (exchangedRow 1))
      (decode .history (exchangedRow 0)) = true := by
    decide +kernel
  rw [Store.get, hpieces, List.flatMap_singleton, rowsOf, hfilter, mergeSort_pair, hcoach,
    if_neg Bool.false_ne_true, List.map_cons, List.map_singleton, mergeSort_pair, if_pos hkey]

end CoachLedger.Store
