/-
**Lists of coaches of any length.**

The list of the coaches whose records are read or set is cut into pieces, with one statement for each
of them.  This does not show where no coach with records is given in two pieces: what is read are the
records of the coaches, each once and in the order of the keys, and what is set is counted as one
statement would count it.  A coach that two pieces name has its records read twice, and counted twice
when they are set; what is set are the records of the coaches all the same.

Main definitions:

* `CoachLedger.Store.IsSplit` — a coach that is given in two pieces;
* `CoachLedger.Store.NoneSplit` — no coach with records is;
* `CoachLedger.Store.ReadsByPieces`, `CoachLedger.Store.SetsByPieces` — what reading and setting
  piece by piece come to.

Main results:

* `CoachLedger.Store.namings_chunks_le_one_iff` — a coach is named by one piece at most exactly if
  it is not split;
* `CoachLedger.Store.perm_get_iff` — the records of the coaches are read once exactly if no coach is
  split;
* `CoachLedger.Work.pieces_showRepeats` — **cutting the list into pieces shows exactly where coaches
  are split**;
* `CoachLedger.Work.not_readsOnce_split` — a coach given first and again after 900 places.
-/

import CoachLedger.Proofs.Store.Connection
import CoachLedger.Proofs.Store.HistoryUpsert

set_option autoImplicit false

namespace CoachLedger

namespace Store

open CoachLedger.Sql (Cell)

variable {kind : RecordKind} {s t : Store} {coaches : List String} {size : Nat}

/-! ### Coaches that are split -/

/-- The coach is given at two places that lie in different pieces. -/
def IsSplit (size : Nat) (coaches : List String) (coach : String) : Prop :=
  ∃ i j : Nat, i / size < j / size ∧ coaches[i]? = some coach ∧ coaches[j]? = some coach

/-- No coach that has records of the kind is split. -/
def NoneSplit (s : Store) (kind : RecordKind) (size : Nat) (coaches : List String) : Prop :=
  ∀ r ∈ s.records kind, ∀ coach, r.identity? = some coach → ¬IsSplit size coaches coach

theorem not_isSplit_of_nodup (hd : coaches.Nodup) (coach : String) :
    ¬IsSplit size coaches coach := by
  rintro ⟨i, j, hlt, hi, hj⟩
  obtain ⟨hbound, -⟩ := List.getElem?_eq_some_iff.1 hi
  rw [(List.getElem?_inj hbound hd).1 (hi.trans hj.symm)] at hlt
  exact Nat.lt_irrefl _ hlt

/-- A coach is split by the first piece, or behind it. -/
theorem isSplit_iff (hs : 0 < size) {coach : String} :
    IsSplit size coaches coach ↔
      (coach ∈ coaches.take size ∧ coach ∈ coaches.drop size) ∨
        IsSplit size (coaches.drop size) coach := by
  have hbehind {j : Nat} (hj : size ≤ j) : j / size = (j - size) / size + 1 :=
    Nat.div_eq_sub_div hs hj
  have hdrop {j : Nat} (hj : size ≤ j) : (coaches.drop size)[j - size]? = coaches[j]? := by
    rw [List.getElem?_drop, Nat.add_sub_cancel' hj]
  constructor
  · rintro ⟨i, j, hlt, hi, hj⟩
    have hsj : size ≤ j := by
      by_contra hjs
      rw [Nat.div_eq_of_lt (Nat.lt_of_not_le hjs)] at hlt
      exact Nat.not_lt_zero _ hlt
    by_cases hsi : size ≤ i
    · rw [hbehind hsi, hbehind hsj] at hlt
      exact .inr ⟨i - size, j - size, Nat.lt_of_succ_lt_succ hlt, (hdrop hsi).trans hi,
        (hdrop hsj).trans hj⟩
    · refine .inl ⟨List.mem_of_getElem? (i := i) ?_, List.mem_of_getElem? ((hdrop hsj).trans hj)⟩
      rw [List.getElem?_take_of_lt (Nat.lt_of_not_le hsi)]
      exact hi
  · rintro (⟨hfirst, hrest⟩ | ⟨i, j, hlt, hi, hj⟩)
    · obtain ⟨i, hi⟩ := List.mem_iff_getElem?.1 hfirst
      obtain ⟨j, hj⟩ := List.mem_iff_getElem?.1 hrest
      have his : i < size := by
        by_contra hge
        rw [List.getElem?_take_eq_none (Nat.le_of_not_lt hge)] at hi
        cases hi
      rw [List.getElem?_take_of_lt his] at hi
      rw [List.getElem?_drop] at hj
      refine ⟨i, size + j, ?_, hi, hj⟩
      rw [Nat.div_eq_of_lt his, Nat.add_div_left _ hs]
      exact Nat.succ_pos _
    · rw [List.getElem?_drop] at hi hj
      refine ⟨size + i, size + j, ?_, hi, hj⟩
      rw [Nat.add_div_left _ hs, Nat.add_div_left _ hs]
      exact Nat.succ_lt_succ hlt

/-- **A coach is named by one piece at most exactly if it is not split.**  The induction is on the
pieces. -/
theorem namings_chunks_le_one_iff (hs : 0 < size) {row : Cells} {coach : String}
    (hrow : coachOf kind row = .text coach) :
    namings kind (chunks size coaches) row ≤ 1 ↔ ¬IsSplit size coaches coach := by
  induction hn : coaches.length using Nat.strongRecOn generalizing coaches with
  | _ n ih =>
      by_cases hl : coaches = []
      · subst hl
        rw [chunks_nil]
        exact iff_of_true (Nat.zero_le _) (not_isSplit_of_nodup List.nodup_nil coach)
      · have hlt : (coaches.drop size).length < n := by
          have hpos : 0 < coaches.length := List.length_pos_iff.2 hl
          rw [List.length_drop]
          omega
        have hrest := ih _ hlt rfl
        have hnamed : 0 < namings kind (chunks size (coaches.drop size)) row ↔
            coach ∈ coaches.drop size := by
          rw [namings_pos_iff, flatten_chunks hs, isOneOf_iff hrow]
        rw [isSplit_iff hs, chunks_of_pos hs hl, namings_cons, not_or, ← hrest, not_and, ← hnamed,
          ← isOneOf_iff hrow]
        cases isOneOf kind (coaches.take size) row with
        | false => simp
        | true => simp; omega

/-- No coach is split exactly if each row is named by one piece at most. -/
theorem noneSplit_iff (hsound : IsSound s) (hs : 0 < size) :
    s.NoneSplit kind size coaches ↔
      ∀ row ∈ s.rows kind, namings kind (chunks size coaches) row ≤ 1 := by
  unfold NoneSplit records
  rw [List.forall_mem_map]
  refine forall₂_congr fun row hrow => ?_
  obtain ⟨coach, htext, hid⟩ := exists_identity?_decode (hsound.rows kind row hrow)
  rw [namings_chunks_le_one_iff hs htext, hid]
  constructor
  · intro h
    exact h coach rfl
  · rintro h _ ⟨⟩
    exact h

/-! ### Reading piece by piece -/

/-- What comes of reading the records of some coaches piece by piece. -/
structure ReadsByPieces (s : Store) (kind : RecordKind) (coaches : List String)
    (found : List Record) : Prop where
  /-- The records are those of the coaches. -/
  mem : ∀ r, r ∈ found ↔ r ∈ s.records kind ∧ r.isOf coaches = true
  /-- They stand in the order of their keys. -/
  sorted : found.Pairwise fun a b => keyLE kind a b = true
  /-- Each is there as often as there are pieces that name its coach. -/
  perm : found.Perm ((rowsNamed kind (chunks maxBound coaches) (s.rows kind)).map (decode kind))
  /-- Each is there once exactly if no coach is split. -/
  once : found.Perm ((s.records kind).filter (Record.isOf coaches)) ↔
    s.NoneSplit kind maxBound coaches
  /-- Then they stand in the order of the table as well, provided that the numbers of history
  records are read as they are. -/
  inOrder : (kind = .history → ∀ coach i, s.HasNumber coach i → Binary64.IsExact i) →
    (found = (s.records kind).filter (Record.isOf coaches) ↔ s.NoneSplit kind maxBound coaches)

section

variable {κ : Type} [LinearOrder κ] {place : Cells → κ}
  (hle : ∀ a ∈ s.rows kind, ∀ b ∈ s.rows kind,
    keyLE kind (decode kind a) (decode kind b) = decide (place a ≤ place b))
include hle

/-- Rows are read in the order of their places. -/
theorem pairwise_rowsGot (coaches : List String) :
    (s.rowsGot kind coaches).Pairwise fun a b => place a ≤ place b := by
  have hplaces : s.rowsGot kind coaches =
      ((chunks maxBound coaches).flatMap (rowsOf kind (s.rows kind))).mergeSort
        fun a b => decide (place a ≤ place b) :=
    mergeSort_congr fun a ha b hb => hle a (mem_flatMap_rowsOf.1 ha).1 b (mem_flatMap_rowsOf.1 hb).1
  rw [hplaces]
  refine (List.pairwise_mergeSort (fun a b d hab hbd => ?_) (fun a b => ?_) _).imp
    fun hab => of_decide_eq_true hab
  · rw [decide_eq_true_eq] at *
    exact le_trans hab hbd
  · rw [Bool.or_eq_true, decide_eq_true_eq, decide_eq_true_eq]
    exact le_total _ _

/-- Rows with places of their own that are read once are read in the order of the table. -/
theorem rowsGot_eq_filter (htable : (s.rows kind).Pairwise fun a b => place a ≤ place b)
    (hinj : ∀ a ∈ s.rows kind, ∀ b ∈ s.rows kind, place a = place b → a = b)
    (hperm : (s.rowsGot kind coaches).Perm ((s.rows kind).filter (isOneOf kind coaches))) :
    s.rowsGot kind coaches = (s.rows kind).filter (isOneOf kind coaches) := by
  refine hperm.eq_of_pairwise (fun a b ha hb hab hba => ?_) (pairwise_rowsGot hle coaches)
    (htable.filter _)
  exact hinj a (mem_rowsGot.1 ha).1 b (List.mem_of_mem_filter hb) (le_antisymm hab hba)

/-- What is read stands in the order of the keys. -/
theorem pairwise_keyLE_get (coaches : List String) :
    (s.get kind coaches).Pairwise fun a b => keyLE kind a b = true := by
  rw [get_eq_map, List.pairwise_map]
  refine (pairwise_rowsGot hle coaches).imp_of_mem fun {a b} ha hb hab => ?_
  rw [hle a (mem_rowsGot.1 ha).1 b (mem_rowsGot.1 hb).1]
  exact decide_eq_true hab

end

/-- The place of a master record is its coach number. -/
theorem keyLE_decode_master (hs : IsSound s) {a b : Cells} (ha : a ∈ s.rows .master)
    (hb : b ∈ s.rows .master) :
    keyLE .master (decode .master a) (decode .master b) =
      decide ((decode .master a).identity?.getD "" ≤ (decode .master b).identity?.getD "") := by
  rw [keyLE_master hs (List.mem_map_of_mem ha) (List.mem_map_of_mem hb), Bool.eq_iff_iff,
    coachLE_iff, decide_eq_true_eq]

theorem eq_of_identity?_decode (hs : IsSound s) {a b : Cells} (ha : a ∈ s.rows .master)
    (hb : b ∈ s.rows .master)
    (h : (decode .master a).identity?.getD "" = (decode .master b).identity?.getD "") : a = b := by
  obtain ⟨x, hx, hid⟩ := exists_identity?_decode (hs.rows .master a ha)
  obtain ⟨y, hy, hid'⟩ := exists_identity?_decode (hs.rows .master b hb)
  rw [hid, hid', Option.getD_some, Option.getD_some] at h
  refine eq_of_keyOf_eq (hs.table .master) ha hb ?_
  rw [keyOf_master, keyOf_master, hx, hy, h]

/-- History rows whose numbers are read as they are have places of their own. -/
theorem eq_of_placeOfInt (hs : IsSound s) {a b : Cells} (ha : a ∈ s.rows .history)
    (hb : b ∈ s.rows .history) (hexact : ∀ coach i, s.HasNumber coach i → Binary64.IsExact i)
    (h : Binary64.placeOfInt (numberOf a) = Binary64.placeOfInt (numberOf b)) : a = b := by
  obtain ⟨x, hx, -⟩ := (hs.rows .history a ha).coach
  obtain ⟨y, hy, -⟩ := (hs.rows .history b hb).coach
  have hnumber : numberOf a = numberOf b := by
    refine Binary64.eq_of_placeOfInt_eq ?_ ?_ h
    · exact hexact x _ (hasNumber_numberOf hs ha hx)
    · exact hexact y _ (hasNumber_numberOf hs hb hy)
  refine eq_of_keyOf_eq (hs.table .history) ha hb ?_
  rw [keyOf_history hs ha, keyOf_history hs hb, hnumber]

/-- Rows are read as often as they are named. -/
theorem rowsGot_perm_rowsNamed (s : Store) (kind : RecordKind) (coaches : List String) :
    (s.rowsGot kind coaches).Perm (rowsNamed kind (chunks maxBound coaches) (s.rows kind)) :=
  (List.mergeSort_perm _ _).trans (flatMap_rowsOf_perm kind _ _)

theorem length_rowsNamed (pieces : List (List String)) (rows : List Cells) :
    (rowsNamed kind pieces rows).length = (rows.map (namings kind pieces)).sum := by
  rw [rowsNamed, List.length_flatMap]
  simp only [List.length_replicate]

/-- If no coach is split, the rows of the coaches are read once. -/
theorem rowsGot_perm_of_noneSplit (hs : IsSound s) (h : s.NoneSplit kind maxBound coaches) :
    (s.rowsGot kind coaches).Perm ((s.rows kind).filter (isOneOf kind coaches)) := by
  have hgot := rowsGot_perm_rowsNamed s kind coaches
  rwa [rowsNamed_eq ((noneSplit_iff hs (by decide)).1 h), flatten_chunks (by decide)] at hgot

/-- **The records of the coaches are read once exactly if none of the coaches is split.** -/
theorem perm_get_iff (hs : IsSound s) :
    (s.get kind coaches).Perm ((s.records kind).filter (Record.isOf coaches)) ↔
      s.NoneSplit kind maxBound coaches := by
  rw [filter_isOf_records (hs.rows kind), get_eq_map]
  refine ⟨fun hperm => ?_, fun h => (rowsGot_perm_of_noneSplit hs h).map _⟩
  have hlength := hperm.length_eq
  rw [List.length_map, List.length_map, (rowsGot_perm_rowsNamed s kind coaches).length_eq,
    length_rowsNamed, ← List.countP_eq_length_filter] at hlength
  rw [noneSplit_iff hs (by decide), ← sum_namings_eq_iff, hlength, flatten_chunks (by decide)]

/-- If no coach is split, the records stand in the order of the table. -/
theorem get_eq_of_noneSplit (hs : IsSound s) (h : s.NoneSplit kind maxBound coaches)
    (hexact : kind = .history → ∀ coach i, s.HasNumber coach i → Binary64.IsExact i) :
    s.get kind coaches = (s.records kind).filter (Record.isOf coaches) := by
  have hrows := rowsGot_perm_of_noneSplit hs h
  rw [get_eq_map, filter_isOf_records (hs.rows kind)]
  refine congrArg (List.map (decode kind)) ?_
  cases kind with
  | master =>
      refine rowsGot_eq_filter (fun a ha b hb => keyLE_decode_master hs ha hb) ?_
        (fun a ha b hb => eq_of_identity?_decode hs ha hb) hrows
      have htable := pairwise_coachLE (hs.rows .master) (hs.table .master)
      rw [List.pairwise_map] at htable
      exact htable.imp fun hab => coachLE_iff.1 hab
  | history =>
      refine rowsGot_eq_filter (fun a ha b hb => keyLE_history hs ha hb) ?_
        (fun a ha b hb => eq_of_placeOfInt hs ha hb (hexact rfl)) hrows
      exact (pairwise_numberOf hs).imp fun hab => Binary64.placeOfInt_mono (Int.le_of_lt hab)

/-- **Reading piece by piece.** -/
theorem readsByPieces_get (hs : IsSound s) (kind : RecordKind) (coaches : List String) :
    ReadsByPieces s kind coaches (s.get kind coaches) := by
  refine ⟨fun r => ?_, ?_, ?_, perm_get_iff hs, fun hexact => ?_⟩
  · rw [get_eq_map, records, List.mem_map, List.mem_map]
    constructor
    · rintro ⟨row, hrow, rfl⟩
      obtain ⟨hmem, hof⟩ := mem_rowsGot.1 hrow
      exact ⟨⟨row, hmem, rfl⟩, (isOf_decode (hs.rows kind row hmem) coaches).trans hof⟩
    · rintro ⟨⟨row, hmem, rfl⟩, hof⟩
      have hone := (isOf_decode (hs.rows kind row hmem) coaches).symm.trans hof
      exact ⟨row, mem_rowsGot.2 ⟨hmem, hone⟩, rfl⟩
  · cases kind with
    | master => exact pairwise_keyLE_get (fun a ha b hb => keyLE_decode_master hs ha hb) coaches
    | history => exact pairwise_keyLE_get (fun a ha b hb => keyLE_history hs ha hb) coaches
  · rw [get_eq_map]
    exact (rowsGot_perm_rowsNamed s kind coaches).map _
  · exact ⟨fun heq => (perm_get_iff hs).1 (.of_eq heq), fun h => get_eq_of_noneSplit hs h hexact⟩

/-! ### Setting piece by piece -/

/-- What comes of setting one cell in the rows of some coaches piece by piece: the count and the
tables. -/
structure SetsByPieces (s : Store) (kind : RecordKind) (coaches : List String) (index : Nat)
    (cell : Cell) (n : Nat) (t : Store) : Prop where
  /-- The cell is set in the rows of the coaches, as one statement sets it. -/
  tables : t = s.withRows kind (setCell kind coaches index cell (s.rows kind))
  /-- Each of these rows is counted once for each piece that names its coach. -/
  count : n = ((s.rows kind).map (namings kind (chunks (maxBound - 1) coaches))).sum
  /-- The count is that of one statement exactly if no coach is split. -/
  once : n = (s.rows kind).countP (isOneOf kind coaches) ↔
    s.NoneSplit kind (maxBound - 1) coaches

/-- **Setting piece by piece.** -/
theorem setsByPieces_update (hs : IsSound s) {field : String} {v : Value} {n : Nat}
    (h : s.update kind coaches field v = .ok (n, t)) :
    ∃ index f, IsSettable kind field index f ∧ v.Fits f.kind ∧
      SetsByPieces s kind coaches index (cellFor f.kind v) n t := by
  have hflat : (chunks (maxBound - 1) coaches).flatten = coaches :=
    flatten_chunks (by decide) coaches
  obtain ⟨index, f, rows, hset, hfits, hcells, rfl⟩ := setCells_of_update h
  have hcount := congrArg Prod.fst hcells
  have hrows := congrArg Prod.snd hcells
  rw [setCells_fst hset.index? hset.ne_identity, Nat.zero_add] at hcount
  rw [setCells_snd hset.index? hset.ne_identity, hflat, ← setCell_eq] at hrows
  refine ⟨index, f, hset, hfits, congrArg (s.withRows kind) hrows.symm, hcount.symm, ?_⟩
  rw [noneSplit_iff hs (by decide), ← sum_namings_eq_iff, hflat, hcount]

end Store

namespace Work

open CoachLedger.Store (IsSettable NoneSplit ReadsByPieces SetsByPieces)

/-! ### Statement by statement -/

/-- **Cutting the list of coaches into pieces shows exactly where coaches are split.**  On every
connection to a store and for every list of coaches, reading their records does not fail unless the
engine does, and setting a field of theirs that succeeds changes their records and no others; both
are as with one statement exactly if no coach with records is split. -/
theorem pieces_showRepeats {c : Connection} (hs : c.tables.Reachable) (kind : RecordKind)
    (coaches : List String) :
    (∀ found d, get kind coaches c = (.ok found, d) →
      d.tables = c.tables ∧ ReadsByPieces c.tables kind coaches found) ∧
    (c.faults = [] → ∃ found d, get kind coaches c = (.ok found, d)) ∧
    ∀ field v n d, update kind coaches field v c = (.ok n, d) →
      ∃ index f, IsSettable kind field index f ∧ v.Fits f.kind ∧
        SetsByPieces c.tables kind coaches index (Store.cellFor f.kind v) n d.tables := by
  have hsound := Store.isSound_of_reachable hs
  refine ⟨fun found d h => ?_, fun hc => ?_, fun field v n d h => ?_⟩
  · obtain ⟨hget, -⟩ := (follows_get kind coaches).ok c found d h
    obtain ⟨rfl, htables⟩ := Prod.mk.inj (Except.ok.inj hget)
    exact ⟨htables.symm, Store.readsByPieces_get hsound kind coaches⟩
  · obtain ⟨-, hanswer⟩ := (follows_get kind coaches).steady c hc
    exact ⟨_, _, Prod.ext hanswer rfl⟩
  · exact Store.setsByPieces_update hsound ((follows_update kind coaches field v).ok c n d h).1

/-- A connection to a store whose only coach is `C1`. -/
def oneCoach : Connection :=
  ⟨Store.yard, [], []⟩

theorem reachable_oneCoach : oneCoach.tables.Reachable :=
  Store.reachable_yard

theorem identities_oneCoach :
    (oneCoach.tables.records .master).map Record.identity? = [some "C1"] := by
  decide

/-- Whether coaches are split is a matter of the one coach. -/
theorem noneSplit_oneCoach_iff {size : Nat} {coaches : List String} :
    oneCoach.tables.NoneSplit .master size coaches ↔ ¬Store.IsSplit size coaches "C1" := by
  have hids := identities_oneCoach
  obtain ⟨r, hr, hid⟩ := List.map_eq_singleton_iff.1 hids
  unfold NoneSplit
  rw [hr, List.forall_mem_singleton, hid]
  constructor
  · intro h
    exact h "C1" rfl
  · rintro h _ ⟨⟩
    exact h

/-- Setting the state of its battery succeeds. -/
theorem exists_update_oneCoach (coaches : List String) :
    ∃ n d, update .master coaches "battery_status" (.text "bad") oneCoach = (.ok n, d) := by
  obtain ⟨-, hanswer⟩ :=
    (follows_update .master coaches "battery_status" (.text "bad")).steady oneCoach rfl
  obtain ⟨index, hset⟩ :
      ∃ index, IsSettable .master "battery_status" index ⟨"battery_status", .text⟩ :=
    ⟨_, by decide, rfl, by decide, by decide⟩
  obtain ⟨n, hn⟩ := Store.update_eq_ok hset (v := .text "bad")
    (Value.fits_of_kind? rfl) oneCoach.tables coaches
  rw [hn] at hanswer
  exact ⟨n, _, Prod.ext hanswer rfl⟩

/-- A coach that is given twice, but in one piece, and one without records that is split. -/
def repeatedCoaches : List String :=
  "C2" :: "C1" :: "C1" :: (List.replicate 899 "C3" ++ ["C2"])

theorem not_isSplit_repeatedCoaches {size : Nat} (hs : 3 ≤ size) :
    ¬Store.IsSplit size repeatedCoaches "C1" := by
  have hplace {j : Nat} (hj : repeatedCoaches[j]? = some "C1") : j < 3 := by
    by_contra hge
    obtain ⟨k, rfl⟩ := Nat.exists_eq_add_of_le' (Nat.le_of_not_lt hge)
    have hmem := List.mem_of_getElem? (l := List.replicate 899 "C3" ++ ["C2"]) hj
    rw [List.mem_append, List.mem_singleton] at hmem
    rcases hmem with hmem | hmem
    · exact absurd (List.eq_of_mem_replicate hmem) (by decide)
    · exact absurd hmem (by decide)
  rintro ⟨i, j, hlt, -, hj⟩
  rw [Nat.div_eq_of_lt (Nat.lt_of_lt_of_le (hplace hj) hs)] at hlt
  exact Nat.not_lt_zero _ hlt

theorem pieces_showRepeats_repeated :
    oneCoach.tables.Reachable ∧
      (∃ found d, get .master repeatedCoaches oneCoach = (.ok found, d) ∧
        found.Perm ((oneCoach.tables.records .master).filter (Record.isOf repeatedCoaches))) ∧
      ∃ n d, update .master repeatedCoaches "battery_status" (.text "bad") oneCoach = (.ok n, d) ∧
        n = (oneCoach.tables.rows .master).countP (Store.isOneOf .master repeatedCoaches) := by
  obtain ⟨hreads, hsome, hsets⟩ :=
    pieces_showRepeats (c := oneCoach) reachable_oneCoach .master repeatedCoaches
  obtain ⟨found, d, hget⟩ := hsome rfl
  obtain ⟨n, d', hupdate⟩ := exists_update_oneCoach repeatedCoaches
  obtain ⟨index, f, -, -, hset⟩ := hsets _ _ n d' hupdate
  refine ⟨reachable_oneCoach, ⟨found, d, hget, (hreads found d hget).2.once.2 ?_⟩,
    n, d', hupdate, hset.once.2 ?_⟩
  · exact noneSplit_oneCoach_iff.2 (not_isSplit_repeatedCoaches (by decide))
  · exact noneSplit_oneCoach_iff.2 (not_isSplit_repeatedCoaches (by decide))

/-- A coach that is given first, and again after 899 others. -/
def splitCoaches : List String :=
  "C1" :: (List.replicate 899 "C2" ++ ["C1"])

theorem isSplit_splitCoaches {size : Nat} (hpos : 0 < size) (hs : size ≤ 900) :
    Store.IsSplit size splitCoaches "C1" := by
  refine ⟨0, 900, ?_, rfl, ?_⟩
  · rw [Nat.zero_div]
    exact Nat.div_pos hs hpos
  · rw [splitCoaches, List.getElem?_cons_succ,
      List.getElem?_append_right (by rw [List.length_replicate]), List.length_replicate]
    rfl

/-- **A coach that is given first and again after 899 others** is read more than once, and counted
more than once. -/
theorem not_readsOnce_split :
    oneCoach.tables.Reachable ∧
      (∃ found d, get .master splitCoaches oneCoach = (.ok found, d) ∧
        ¬found.Perm ((oneCoach.tables.records .master).filter (Record.isOf splitCoaches))) ∧
      ∃ n d, update .master splitCoaches "battery_status" (.text "bad") oneCoach = (.ok n, d) ∧
        n ≠ (oneCoach.tables.rows .master).countP (Store.isOneOf .master splitCoaches) := by
  have hsound := Store.isSound_of_reachable reachable_oneCoach
  obtain ⟨-, hanswer⟩ := (follows_get .master splitCoaches).steady oneCoach rfl
  obtain ⟨n, d, hupdate⟩ := exists_update_oneCoach splitCoaches
  obtain ⟨index, f, -, -, hset⟩ :=
    Store.setsByPieces_update hsound ((follows_update _ _ _ _).ok oneCoach n d hupdate).1
  refine ⟨reachable_oneCoach, ⟨_, _, Prod.ext hanswer rfl, fun hperm => ?_⟩, n, d, hupdate,
    fun hn => ?_⟩
  · exact noneSplit_oneCoach_iff.1 ((Store.perm_get_iff hsound).1 hperm)
      (isSplit_splitCoaches (by decide) (by decide))
  · exact noneSplit_oneCoach_iff.1 (hset.once.1 hn) (isSplit_splitCoaches (by decide) (by decide))

end Work

end CoachLedger
