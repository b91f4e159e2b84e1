/-
**Putting history records in.**

A history record is put in the row of its number, or in a new row past all others if it has none.
So putting in may give a row to another coach, and a number that is set may stand before those that
the coach has already.  If neither happens, the rows that a coach had are the first ones of those
that it has afterwards.

Main definitions:

* `CoachLedger.Store.historyRecord?` — the history record of a number;
* `CoachLedger.Store.KeepsHistory` — each coach keeps its history records, and new ones come after
  them;
* `CoachLedger.Store.FollowsHistory` — a record goes to a row of its coach, or comes after all of
  them.

Main results:

* `CoachLedger.Store.keepsHistory_upsertFrom` — **records that follow the history keep it**;
* `CoachLedger.Store.historyRow?_upsertFrom` — only rows of the coaches of the records are changed;
* `CoachLedger.Store.numbers_isPrefix` — what was there comes first.
-/

import CoachLedger.Proofs.Store.HistoryRows

set_option autoImplicit false

namespace CoachLedger.Store

open CoachLedger.Sql (Cell)

variable {s t u : Store} {r : Record} {c d : String} {i : Int}

/-! ### Numbers of history records -/

/-- The history row of a number. -/
def historyRow? (s : Store) (i : Int) : Option Cells :=
  rowOf? .history (.integer i) (s.rows .history)

/-- The history record of a number. -/
def historyRecord? (s : Store) (i : Int) : Option Record :=
  (s.historyRow? i).map (decode .history)

/-- The coach has a history record with the number. -/
def HasNumber (s : Store) (c : String) (i : Int) : Prop :=
  ∃ r, s.historyRecord? i = some r ∧ r.get CoachLedger.identityField = .text c

theorem historyRow?_eq_some (hs : IsSound s) {row : Cells} :
    s.historyRow? i = some row ↔ row ∈ s.rows .history ∧ numberOf row = i := by
  rw [historyRow?, rowOf?_eq_some (hs.table .history)]
  refine and_congr_right fun hrow => ?_
  rw [keyOf_history hs hrow, Cell.integer.injEq]

theorem hasNumber_iff (hs : IsSound s) :
    s.HasNumber c i ↔ ∃ row, s.historyRow? i = some row ∧ coachOf .history row = .text c := by
  constructor
  · rintro ⟨r, hr, hget⟩
    obtain ⟨row, hrow, rfl⟩ := Option.map_eq_some_iff.1 hr
    obtain ⟨t, ht, -⟩ := (hs.rows .history row ((historyRow?_eq_some hs).1 hrow).1).coach
    rw [get_identity_decode ht] at hget
    exact ⟨row, hrow, by rw [ht, Value.text.inj hget]⟩
  · rintro ⟨row, hrow, hcoach⟩
    exact ⟨_, by rw [historyRecord?, hrow]; rfl, get_identity_decode hcoach⟩

theorem historyRow?_numberOf (hs : IsSound s) {row : Cells} (hrow : row ∈ s.rows .history) :
    s.historyRow? (numberOf row) = some row :=
  (historyRow?_eq_some hs).2 ⟨hrow, rfl⟩

theorem hasNumber_numberOf (hs : IsSound s) {row : Cells} (hrow : row ∈ s.rows .history)
    (hc : coachOf .history row = .text c) : s.HasNumber c (numberOf row) :=
  (hasNumber_iff hs).2 ⟨row, historyRow?_numberOf hs hrow, hc⟩

theorem get_keyField_of_historyRecord? (hs : IsSound s) (hr : s.historyRecord? i = some r) :
    r.get RecordKind.history.keyField = .number (.ofInt i) := by
  obtain ⟨row, hrow, rfl⟩ := Option.map_eq_some_iff.1 hr
  obtain ⟨hmem, rfl⟩ := (historyRow?_eq_some hs).1 hrow
  exact get_keyField_history hs hmem

theorem mem_records_of_historyRecord? (hs : IsSound s) (hr : s.historyRecord? i = some r) :
    r ∈ s.records .history := by
  obtain ⟨row, hrow, rfl⟩ := Option.map_eq_some_iff.1 hr
  exact List.mem_map_of_mem ((historyRow?_eq_some hs).1 hrow).1

/-- Every history record is of a coach. -/
theorem hasCoach_of_historyRecord? (hs : IsSound s) (hr : s.historyRecord? i = some r) :
    r.HasCoach :=
  (hasCoach_of_mem_records hs (mem_records_of_historyRecord? hs hr)).2

/-- The numbers of a coach are those of its rows. -/
theorem hasNumber_iff_mem (hs : IsSound s) :
    s.HasNumber c i ↔ i ∈ (s.historyOf c).map numberOf := by
  rw [hasNumber_iff hs, List.mem_map]
  simp only [historyRow?_eq_some hs, mem_historyOf]
  constructor
  · rintro ⟨row, ⟨hrow, hi⟩, hcoach⟩
    exact ⟨row, ⟨hrow, hcoach⟩, hi⟩
  · rintro ⟨row, ⟨hrow, hcoach⟩, hi⟩
    exact ⟨row, ⟨hrow, hi⟩, hcoach⟩

theorem HasNumber.unique (h : s.HasNumber c i) (h' : s.HasNumber d i) : c = d := by
  obtain ⟨r, hr, hget⟩ := h
  obtain ⟨r', hr', hget'⟩ := h'
  obtain rfl := Option.some.inj (hr.symm.trans hr')
  exact Value.text.inj (hget.symm.trans hget')

theorem HasNumber.congr (h : t.historyRow? i = s.historyRow? i) :
    t.HasNumber c i ↔ s.HasNumber c i := by
  rw [HasNumber, HasNumber, historyRecord?, historyRecord?, h]

/-- No history record has a number past the last one. -/
theorem HasNumber.le_last (hs : IsSound s) (h : s.HasNumber c i) : i ≤ s.lastHistoryId := by
  obtain ⟨row, hrow, -⟩ := (hasNumber_iff hs).1 h
  obtain ⟨hmem, hkey⟩ := (rowOf?_eq_some (hs.table .history)).1 hrow
  exact hs.ids row hmem i hkey

/-- The history records of a number differ exactly if the later one was not there or the value of a
field is another one. -/
theorem historyRecord?_ne_iff {r' : Record} (hr' : t.historyRecord? i = some r') :
    s.historyRecord? i ≠ t.historyRecord? i ↔
      s.historyRecord? i = none ∨
        ∃ r, s.historyRecord? i = some r ∧ ∃ name, r.get name ≠ r'.get name := by
  rw [hr']
  obtain ⟨row', -, rfl⟩ := Option.map_eq_some_iff.1 hr'
  cases hrow : s.historyRow? i with
  | none =>
      have hr : s.historyRecord? i = none := by rw [historyRecord?, hrow]; rfl
      exact iff_of_true (by rw [hr]; simp) (.inl hr)
  | some row =>
      have hr : s.historyRecord? i = some (decode .history row) := by rw [historyRecord?, hrow]; rfl
      simp only [hr, ne_eq, Option.some.injEq, reduceCtorEq, false_or, exists_eq_left',
        ← not_forall]
      refine not_congr ⟨fun h name => by rw [h], fun h => ?_⟩
      rw [decode_eq_ofValues, decode_eq_ofValues _ row', funext h]

/-- A field of the history records of a number is written the same way only if its value is the
same. -/
theorem toJson_get_inj (hs : IsSound s) (ht : IsSound t) {r r' : Record}
    (hr : s.historyRecord? i = some r) (hr' : t.historyRecord? i = some r') (name : String) :
    (r.get name).toJson = (r'.get name).toJson ↔ r.get name = r'.get name := by
  refine ⟨fun h => ?_, fun h => by rw [h]⟩
  have hmem := mem_records_of_historyRecord? hs hr
  have hmem' := mem_records_of_historyRecord? ht hr'
  by_cases hname : name = RecordKind.history.keyField
  · rw [hname, get_keyField_of_historyRecord? hs hr, get_keyField_of_historyRecord? ht hr']
  · cases hf : RecordKind.history.field? name with
    | none =>
        obtain ⟨hkind, -⟩ := hasCoach_of_mem_records hs hmem
        obtain ⟨hkind', -⟩ := hasCoach_of_mem_records ht hmem'
        rw [Record.get, Record.get, Record.slot?_eq_none (by rw [hkind]; exact hf),
          Record.slot?_eq_none (by rw [hkind']; exact hf)]
    | some f =>
        -- No other field is a number.
        have hkind : f.kind ≠ .number := by
          obtain ⟨j, -, hfj, hfname⟩ := RecordKind.index?_of_field? hf
          have hall : ∀ f ∈ RecordKind.history.fields,
              f.name ≠ RecordKind.history.keyField → f.kind ≠ .number := by decide
          exact hall f (List.mem_of_getElem? hfj) (by rw [hfname]; exact hname)
        exact Value.toJson_inj hkind (fits_of_mem_records hs hmem hf)
          (fits_of_mem_records ht hmem' hf) h

/-! ### Histories that are kept -/

/-- Each coach keeps its history records, and its new ones come after them. -/
structure KeepsHistory (s t : Store) : Prop where
  kept : ∀ c i, s.HasNumber c i → t.HasNumber c i
  added : ∀ c i, t.HasNumber c i → s.HasNumber c i ∨ ∀ j, s.HasNumber c j → j < i

theorem KeepsHistory.refl (s : Store) : KeepsHistory s s :=
  ⟨fun _ _ h => h, fun _ _ h => .inl h⟩

/-- A history record goes to a row that its coach has, or, under a number that no record has, after
all of them.  A record without a number is given one that comes after all others. -/
def FollowsHistory (s : Store) (r : Record) : Prop :=
  ∀ x i, r.get RecordKind.history.keyField = .number x → x.integer? = some i →
    ∃ c, r.identity? = some c ∧
      (s.HasNumber c i ∨ (∀ d, ¬s.HasNumber d i) ∧ ∀ j, s.HasNumber c j → j < i)

/-- What putting in a history record does to the history rows. -/
theorem historyRow?_upsertOne (hs : IsSound s) (hr : r.IsValid) (hk : r.kind = .history) {n : Nat}
    (h : s.upsertOne r = .ok (n, t)) :
    ∃ c k, r.identity? = some c ∧ s.keyFor r (encode r) = some (.integer k) ∧ t.HasNumber c k ∧
      ∀ i, i ≠ k → t.historyRow? i = s.historyRow? i := by
  obtain ⟨c, key, hc, hkey, -, hrows⟩ := rowOf?_upsertOne hs hr h
  obtain ⟨hfor, -⟩ := isKeyFor_keyFor hr hc hkey
  obtain ⟨k, rfl, -⟩ := keyFor_history hr hk hkey
  refine ⟨c, k, hc, hkey, ?_, fun i hi => ?_⟩
  · have hlen : ((rowOf? .history (.integer k) (s.rows .history)).getD (blank .history)).length =
        r.kind.fields.length := by
      rw [hk]
      cases hrow : rowOf? .history (.integer k) (s.rows .history) with
      | none => exact length_blank .history
      | some row =>
          have hmem := ((rowOf?_eq_some (hs.table .history)).1 hrow).1
          exact (hs.rows .history row hmem).length
    have hcoach := coachOf_writeRow hfor hlen (get_identity hr hc).1
    rw [hk] at hcoach
    refine (hasNumber_iff (isSound_upsertOne hs hr h)).2 ⟨_, ?_, hcoach⟩
    rw [historyRow?, hrows, if_pos ⟨hk.symm, rfl⟩]
  · rw [historyRow?, hrows, if_neg fun hand => hi (Cell.integer.inj hand.2)]
    rfl

/-- **A record that follows the history of before keeps it**, if it has been kept so far. -/
theorem keepsHistory_upsertOne (hs : IsSound s) (hkeeps : KeepsHistory u s) (hr : r.IsValid)
    (hk : r.kind = .history) (hfollows : u.FollowsHistory r) {n : Nat}
    (h : s.upsertOne r = .ok (n, t)) : KeepsHistory u t := by
  obtain ⟨c, k, hc, hkey, hnew, hsame⟩ := historyRow?_upsertOne hs hr hk h
  -- The record goes to a row that the coach had before, or after all of them.
  have hplace : u.HasNumber c k ∨ (∀ d, ¬u.HasNumber d k) ∧ ∀ j, u.HasNumber c j → j < k := by
    obtain ⟨k', hk', ⟨x, hx, hi⟩ | ⟨-, rfl⟩⟩ := keyFor_history hr hk hkey
    · obtain rfl := Cell.integer.inj hk'
      obtain ⟨c', hc', hplace⟩ := hfollows x k hx hi
      rwa [Option.some.inj (hc.symm.trans hc')]
    · obtain rfl := Cell.integer.inj hk'
      have hlast : ∀ d j, u.HasNumber d j → j < s.lastHistoryId + 1 := fun d j hj =>
        Int.lt_add_one_of_le ((hkeeps.kept d j hj).le_last hs)
      exact .inr ⟨fun d hd => Int.lt_irrefl _ (hlast d _ hd), hlast c⟩
  refine ⟨fun d i hd => ?_, fun d i hd => ?_⟩
  · by_cases hi : i = k
    · subst hi
      rcases hplace with hplace | ⟨hnone, -⟩
      · rwa [hd.unique hplace]
      · exact absurd hd (hnone d)
    · exact (HasNumber.congr (hsame i hi)).2 (hkeeps.kept d i hd)
  · by_cases hi : i = k
    · subst hi
      rw [hd.unique hnew]
      exact hplace.imp_right And.right
    · exact hkeeps.added d i ((HasNumber.congr (hsame i hi)).1 hd)

/-- **Records that follow the history of before keep it**, one after the other. -/
theorem keepsHistory_upsertFrom (hs : IsSound s) (hkeeps : KeepsHistory u s) {rs : List Record}
    (hr : ∀ r ∈ rs, r.IsValid ∧ r.kind = .history) (hfollows : ∀ r ∈ rs, u.FollowsHistory r)
    {count n : Nat} (h : s.upsertFrom count rs = .ok (n, t)) : KeepsHistory u t := by
  induction rs generalizing s count with
  | nil =>
      simp only [upsertFrom, Except.ok.injEq, Prod.mk.injEq] at h
      exact h.2 ▸ hkeeps
  | cons r rs ih =>
      obtain ⟨⟨hr, hk⟩, hrs⟩ := List.forall_mem_cons.1 hr
      obtain ⟨hfollow, hfollows⟩ := List.forall_mem_cons.1 hfollows
      rw [upsertFrom] at h
      split at h
      · rename_i m v hv
        exact ih (isSound_upsertOne hs hr hv)
          (keepsHistory_upsertOne hs hkeeps hr hk hfollow hv) hrs hfollows h
      · cases h

/-- **Only rows of the coaches of the records are changed.** -/
theorem historyRow?_upsertFrom (hs : IsSound s) {rs : List Record}
    (hr : ∀ r ∈ rs, r.IsValid ∧ r.kind = .history) {count n : Nat}
    (h : s.upsertFrom count rs = .ok (n, t)) (i : Int) :
    t.historyRow? i = s.historyRow? i ∨
      ∃ r ∈ rs, ∃ c, r.identity? = some c ∧ t.HasNumber c i := by
  induction rs generalizing s count with
  | nil =>
      simp only [upsertFrom, Except.ok.injEq, Prod.mk.injEq] at h
      exact .inl (by rw [h.2])
  | cons r rs ih =>
      obtain ⟨⟨hr, hk⟩, hrs⟩ := List.forall_mem_cons.1 hr
      rw [upsertFrom] at h
      split at h
      · rename_i m v hv
        obtain ⟨c, k, hc, -, hnew, hsame⟩ := historyRow?_upsertOne hs hr hk hv
        rcases ih (isSound_upsertOne hs hr hv) hrs h with hrow | ⟨r', hr', hx⟩
        · by_cases hi : i = k
          · subst hi
            exact .inr ⟨r, List.mem_cons_self .., c, hc, (HasNumber.congr hrow).2 hnew⟩
          · exact .inl (hrow.trans (hsame i hi))
        · exact .inr ⟨r', List.mem_cons_of_mem _ hr', hx⟩
      · cases h

/-! ### What was there comes first -/

/-- An ascending list comes first in one that has its members and otherwise only greater ones. -/
theorem isPrefix_of_ascending {l m : List Int} (hl : l.Pairwise (· < ·)) (hm : m.Pairwise (· < ·))
    (hkept : ∀ i ∈ l, i ∈ m) (hadded : ∀ i ∈ m, i ∈ l ∨ ∀ j ∈ l, j < i) : l <+: m := by
  induction l generalizing m with
  | nil => exact List.nil_prefix
  | cons a l ih =>
      obtain ⟨ha, hl⟩ := List.pairwise_cons.1 hl
      cases m with
      | nil => cases hkept a (List.mem_cons_self ..)
      | cons b m =>
          obtain ⟨hb, htail⟩ := List.pairwise_cons.1 hm
          -- Both lists begin with their least member.
          have hba : b ≤ a := by
            rcases List.mem_cons.1 (hkept a (List.mem_cons_self ..)) with rfl | h
            · exact Int.le_refl _
            · exact Int.le_of_lt (hb a h)
          have hab : a ≤ b := by
            rcases hadded b (List.mem_cons_self ..) with h | h
            · rcases List.mem_cons.1 h with rfl | h
              · exact Int.le_refl _
              · exact Int.le_of_lt (ha b h)
            · exact Int.le_of_lt (h a (List.mem_cons_self ..))
          obtain rfl := Int.le_antisymm hab hba
          refine (List.prefix_cons_inj a).2 (ih hl htail (fun i hi => ?_) fun i hi => ?_)
          · rcases List.mem_cons.1 (hkept i (List.mem_cons_of_mem _ hi)) with rfl | h
            · exact absurd (ha i hi) (Int.lt_irrefl _)
            · exact h
          · rcases hadded i (List.mem_cons_of_mem _ hi) with h | h
            · rcases List.mem_cons.1 h with rfl | h
              · exact absurd (hb i hi) (Int.lt_irrefl _)
              · exact .inl h
            · exact .inr fun j hj => h j (List.mem_cons_of_mem _ hj)

theorem pairwise_numbers (hs : IsSound s) (c : String) :
    ((s.historyOf c).map numberOf).Pairwise (· < ·) := by
  rw [List.pairwise_map]
  exact (pairwise_numberOf hs).filter _

/-- **The records that a coach had are the first ones of those that it has**, if they are kept. -/
theorem numbers_isPrefix (hs : IsSound s) (ht : IsSound t) (h : KeepsHistory s t) (c : String) :
    (s.historyOf c).map numberOf <+: (t.historyOf c).map numberOf := by
  refine isPrefix_of_ascending (pairwise_numbers hs c) (pairwise_numbers ht c) (fun i hi => ?_)
    fun i hi => ?_
  · exact (hasNumber_iff_mem ht).1 (h.kept c i ((hasNumber_iff_mem hs).2 hi))
  · rcases h.added c i ((hasNumber_iff_mem ht).2 hi) with h | h
    · exact .inl ((hasNumber_iff_mem hs).1 h)
    · exact .inr fun j hj => h j ((hasNumber_iff_mem hs).2 hj)

end CoachLedger.Store
