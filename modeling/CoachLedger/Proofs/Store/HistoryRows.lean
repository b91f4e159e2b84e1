/-
**The history records of some coaches.**

The history records of a coach are read in the order of their numbers, whatever other coaches are
read with them and in whatever pieces.  Sorting does not change the order of rows that are in order
already, and numbers that are too large to be read exactly are still read in their order.

Main definitions:

* `CoachLedger.Store.rowsGot` — the rows of some coaches in the order in which they are read;
* `CoachLedger.Store.historyOf` — the history rows of a coach.

Main results:

* `CoachLedger.Store.get_eq_map` — what is read are the records of these rows;
* `CoachLedger.Store.filter_rowsGot` — **the rows of each coach are read in the order of the
  table**.
-/

import CoachLedger.Proofs.Binary64.Monotone
import CoachLedger.Proofs.Store.Overlay

set_option autoImplicit false

namespace CoachLedger.Store

open CoachLedger.Sql (Cell)

variable {kind : RecordKind} {s t : Store} {r : Record}

/-! ### Sorting what is in order -/

/-- Sorting by a place does not change the order of members that stand in the order of their
places. -/
theorem sublist_mergeSort_of_place {α κ : Type} [LinearOrder κ] (place : α → κ)
    {le : α → α → Bool} {l c : List α}
    (hle : ∀ a ∈ l, ∀ b ∈ l, le a b = decide (place a ≤ place b))
    (hc : c.Pairwise fun a b => place a ≤ place b) (hsub : c.Sublist l) :
    c.Sublist (l.mergeSort le) := by
  rw [mergeSort_congr hle]
  refine List.sublist_mergeSort (fun a b d hab hbd => ?_) (fun a b => ?_) (hc.imp ?_) hsub
  · rw [decide_eq_true_eq] at *
    exact le_trans hab hbd
  · rw [Bool.or_eq_true, decide_eq_true_eq, decide_eq_true_eq]
    exact le_total _ _
  · intro a b hab
    exact decide_eq_true hab

/-! ### Rows as they are read -/

/-- The rows of some coaches in the order in which they are read. -/
def rowsGot (s : Store) (kind : RecordKind) (coaches : List String) : List Cells :=
  ((chunks maxBound coaches).flatMap (rowsOf kind (s.rows kind))).mergeSort fun a b =>
    keyLE kind (decode kind a) (decode kind b)

/-- What is read are the records of these rows. -/
theorem get_eq_map (s : Store) (kind : RecordKind) (coaches : List String) :
    s.get kind coaches = (s.rowsGot kind coaches).map (decode kind) :=
  (List.map_mergeSort (s := keyLE kind) (f := decode kind) fun _ _ _ _ => rfl).symm

theorem mem_rowsGot {coaches : List String} {row : Cells} :
    row ∈ s.rowsGot kind coaches ↔ row ∈ s.rows kind ∧ isOneOf kind coaches row = true := by
  rw [rowsGot, List.mem_mergeSort, mem_flatMap_rowsOf]

/-- Each row of the coaches is read once, if no coach is given twice. -/
theorem rowsGot_perm {coaches : List String} (hd : coaches.Nodup) :
    (s.rowsGot kind coaches).Perm ((s.rows kind).filter (isOneOf kind coaches)) :=
  (List.mergeSort_perm _ _).trans (flatMap_rowsOf_chunks_perm kind hd (s.rows kind))

/-! ### The rows of a coach -/

/-- The row is one of the coach. -/
def isOfCoach (c : String) (row : Cells) : Bool :=
  coachOf .history row == .text c

/-- The history rows of a coach, in the order of the table. -/
def historyOf (s : Store) (c : String) : List Cells :=
  (s.rows .history).filter (isOfCoach c)

theorem mem_historyOf {c : String} {row : Cells} :
    row ∈ s.historyOf c ↔ row ∈ s.rows .history ∧ coachOf .history row = .text c := by
  rw [historyOf, List.mem_filter, isOfCoach, beq_iff_eq]

/-- The number of a history row. -/
def numberOf (row : Cells) : Int :=
  match keyOf .history row with
  | .integer i => i
  | _ => 0

theorem keyOf_history (hs : IsSound s) {row : Cells} (hrow : row ∈ s.rows .history) :
    keyOf .history row = .integer (numberOf row) := by
  obtain ⟨i, hi⟩ := (hs.table .history).keys row hrow
  rw [numberOf, hi]

/-- The rows of a table stand in the order of their numbers. -/
theorem pairwise_numberOf (hs : IsSound s) :
    (s.rows .history).Pairwise fun a b => numberOf a < numberOf b := by
  refine (hs.table .history).sorted.imp_of_mem fun {a b} ha hb hab => ?_
  rw [KeyLT, keyOf_history hs ha, keyOf_history hs hb, compare_integer, Option.some.injEq,
    Int.compare_eq_lt] at hab
  exact hab

/-- The number of a history record is read as the number next to it. -/
theorem get_keyField_history (hs : IsSound s) {row : Cells} (hrow : row ∈ s.rows .history) :
    (decode .history row).get RecordKind.history.keyField = .number (.ofInt (numberOf row)) := by
  have hcell : cellAt .history row RecordKind.history.keyField = .integer (numberOf row) :=
    keyOf_history hs hrow
  rw [get_decode (f := ⟨"id", .number⟩) row (by decide), hcell]
  rfl

/-- History records are ordered by the places of their numbers. -/
theorem keyLE_history (hs : IsSound s) {a b : Cells} (ha : a ∈ s.rows .history)
    (hb : b ∈ s.rows .history) : keyLE .history (decode .history a) (decode .history b) =
      decide (Binary64.placeOfInt (numberOf a) ≤ Binary64.placeOfInt (numberOf b)) := by
  rw [keyLE, get_keyField_history hs ha, get_keyField_history hs hb, Value.compare,
    Binary64.compare_ofInt_ofInt]
  dsimp only
  rw [Bool.eq_iff_iff, decide_eq_true_eq, Int.isLE_compare]

/-- Rows of one piece are ordered by their coaches. -/
theorem cellLE_coachOf (hs : IsSound s) {a b : Cells} (ha : a ∈ s.rows kind)
    (hb : b ∈ s.rows kind) : cellLE (coachOf kind a) (coachOf kind b) =
      decide ((coachOf kind a).text?.getD "" ≤ (coachOf kind b).text?.getD "") := by
  obtain ⟨t, ht, -⟩ := (hs.rows kind a ha).coach
  obtain ⟨u, hu, -⟩ := (hs.rows kind b hb).coach
  rw [ht, hu, cellLE, Cell.compare_text_text, Bool.eq_iff_iff, decide_eq_true_eq]
  exact Text.order_isLE_iff

/-- **The rows of each coach are read in the order of the table.** -/
theorem filter_rowsGot (hs : IsSound s) {coaches : List String} (hd : coaches.Nodup) {c : String}
    (hc : c ∈ coaches) : (s.rowsGot .history coaches).filter (isOfCoach c) = s.historyOf c := by
  have hflat : (chunks maxBound coaches).flatten = coaches := flatten_chunks (by decide) coaches
  have hof {row : Cells} {ds : List String} (hrow : row ∈ s.historyOf c) (hds : c ∈ ds) :
      isOneOf .history ds row = true := (isOneOf_iff (mem_historyOf.1 hrow).2 ds).2 hds
  have hmem {row : Cells} (hrow : row ∈ s.historyOf c) : row ∈ s.rows .history :=
    (mem_historyOf.1 hrow).1
  -- The coach is in one of the pieces, whose rows keep the order within the coach.
  obtain ⟨ds, hds, hcds⟩ : ∃ ds ∈ chunks maxBound coaches, c ∈ ds :=
    List.mem_flatten.1 (by rw [hflat]; exact hc)
  have hpiece : (s.historyOf c).Sublist (rowsOf .history (s.rows .history) ds) := by
    refine sublist_mergeSort_of_place (fun row => (coachOf .history row).text?.getD "")
      (fun a ha b hb => cellLE_coachOf hs (List.mem_of_mem_filter ha) (List.mem_of_mem_filter hb))
      ?_ ?_
    · refine List.pairwise_of_forall_mem_list fun a ha b hb => ?_
      rw [(mem_historyOf.1 ha).2, (mem_historyOf.1 hb).2]
    · have hsub : ((s.historyOf c).filter (isOneOf .history ds)).Sublist
          ((s.rows .history).filter (isOneOf .history ds)) :=
        List.filter_sublist.filter _
      rwa [List.filter_eq_self.2 fun row hrow => hof hrow hcds] at hsub
  have hall : (s.historyOf c).Sublist
      ((chunks maxBound coaches).flatMap (rowsOf .history (s.rows .history))) :=
    hpiece.trans (List.sublist_flatten_of_mem (List.mem_map_of_mem hds))
  -- Sorting by the numbers as they are read does not change the order of the numbers.
  have hgot : (s.historyOf c).Sublist (s.rowsGot .history coaches) := by
    refine sublist_mergeSort_of_place (fun row => Binary64.placeOfInt (numberOf row))
      (fun a ha b hb => ?_) ?_ hall
    · exact keyLE_history hs (mem_flatMap_rowsOf.1 ha).1 (mem_flatMap_rowsOf.1 hb).1
    · exact ((pairwise_numberOf hs).filter _).imp fun hab =>
        Binary64.placeOfInt_mono (Int.le_of_lt hab)
  have hself : (s.historyOf c).filter (isOfCoach c) = s.historyOf c :=
    List.filter_eq_self.2 fun row hrow => (List.mem_filter.1 hrow).2
  have hsub := hgot.filter (isOfCoach c)
  rw [hself] at hsub
  refine (hsub.eq_of_length ?_).symm
  rw [((rowsGot_perm hd).filter _).length_eq, List.filter_filter, historyOf]
  refine congrArg List.length (List.filter_congr fun row hrow => ?_)
  cases hcoach : isOfCoach c row with
  | false => rfl
  | true => rw [hof (List.mem_filter.2 ⟨hrow, hcoach⟩) hc]; rfl

end CoachLedger.Store
