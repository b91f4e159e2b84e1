/-
**The records of some coaches.**

The coaches are cut into pieces, and the rows of each piece are read with one statement, so that a
row is read once for each piece that names its coach.  If no coach is given twice, each row of the
coaches is read once, and the records are those of the coaches; master records come in the order of
the table.

Main definitions:

* `CoachLedger.Record.isOf` — a record is one of a coach of a list;
* `CoachLedger.Store.rowsNamed` — the rows that the pieces of a list name.

Main results:

* `CoachLedger.Store.flatMap_rowsOf_perm` — what is read piece by piece;
* `CoachLedger.Store.perm_get` — the records that are read, whatever their order;
* `CoachLedger.Store.get_master` — **the master records of some coaches**;
* `CoachLedger.Store.mem_identities_get` — the coaches of the master records that are read;
* `CoachLedger.Store.countP_isOneOf` — the number of their rows.
-/

import CoachLedger.Proofs.Store.Search
import Mathlib.Data.List.Nodup
import Mathlib.Data.List.Perm.Basic

set_option autoImplicit false

namespace CoachLedger

/-- The record is one of a coach of the list. -/
def Record.isOf (coaches : List String) (r : Record) : Bool :=
  r.identity?.any coaches.contains

theorem Record.isOf_iff {coaches : List String} {r : Record} {t : String}
    (h : r.identity? = some t) : r.isOf coaches = true ↔ t ∈ coaches := by
  rw [isOf, h]
  exact List.contains_iff_mem

/-- Only the members of the list matter. -/
theorem Record.isOf_congr {cs ds : List String} (h : ∀ t, t ∈ cs ↔ t ∈ ds) (r : Record) :
    r.isOf cs = r.isOf ds := by
  cases hid : r.identity? with
  | none => rw [isOf, isOf, hid]; rfl
  | some t => rw [Bool.eq_iff_iff, isOf_iff hid, isOf_iff hid, h]

namespace Store

open CoachLedger.Sql (Cell)

variable {kind : RecordKind} {s : Store} {row : Cells} {rows : List Cells}

/-! ### Rows and their coaches -/

theorem get_identity_decode {t : String} (h : coachOf kind row = .text t) :
    (decode kind row).get CoachLedger.identityField = .text t := by
  have hcell : cellAt kind row CoachLedger.identityField = .text t := h
  rw [get_decode row (field?_identity kind), hcell]
  rfl

/-- The coach of a row is the coach of its record. -/
theorem identity?_decode {t : String} (h : coachOf kind row = .text t) (hne : t ≠ "") :
    (decode kind row).identity? = some t := by
  rw [Record.identity?, get_identity_decode h]
  exact Option.filter_eq_some_iff.2 ⟨rfl, by simpa using hne⟩

theorem exists_identity?_decode (h : IsRow kind row) :
    ∃ t, coachOf kind row = .text t ∧ (decode kind row).identity? = some t := by
  obtain ⟨t, ht, hne⟩ := h.coach
  exact ⟨t, ht, identity?_decode ht hne⟩

theorem isOf_decode (h : IsRow kind row) (coaches : List String) :
    (decode kind row).isOf coaches = isOneOf kind coaches row := by
  obtain ⟨t, ht, hid⟩ := exists_identity?_decode h
  rw [Bool.eq_iff_iff, Record.isOf_iff hid, isOneOf_iff ht]

/-- The records of the rows of some coaches are those of the records that are of the coaches. -/
theorem filter_isOf_records (h : ∀ row ∈ s.rows kind, IsRow kind row) (coaches : List String) :
    (s.records kind).filter (Record.isOf coaches) =
      ((s.rows kind).filter (isOneOf kind coaches)).map (decode kind) := by
  rw [records, List.filter_map]
  refine congrArg (List.map (decode kind)) (List.filter_congr fun row hrow => ?_)
  exact isOf_decode (h row hrow) coaches

/-! ### Piece by piece -/

/-- The rows of some coaches, each as often as there are pieces that name its coach. -/
def rowsNamed (kind : RecordKind) (pieces : List (List String)) (rows : List Cells) : List Cells :=
  rows.flatMap fun row => List.replicate (namings kind pieces row) row

theorem filter_isOneOf_eq (piece : List String) (rows : List Cells) :
    rows.filter (isOneOf kind piece) =
      rows.flatMap fun row => List.replicate (if isOneOf kind piece row then 1 else 0) row := by
  induction rows with
  | nil => rfl
  | cons row rows ih =>
      rw [List.filter_cons, List.flatMap_cons, ih]
      split <;> rfl

/-- If no two pieces name the same of its coaches, these are the rows of all coaches. -/
theorem rowsNamed_eq {pieces : List (List String)} {rows : List Cells}
    (h : ∀ row ∈ rows, namings kind pieces row ≤ 1) :
    rowsNamed kind pieces rows = rows.filter (isOneOf kind pieces.flatten) := by
  rw [filter_isOneOf_eq, rowsNamed]
  refine List.flatMap_congr fun row hrow => congrArg (List.replicate · row) ?_
  have hle := h row hrow
  have hpos : 0 < namings kind pieces row ↔ isOneOf kind pieces.flatten row = true :=
    namings_pos_iff
  split
  · rename_i hof
    have := hpos.2 hof
    omega
  · rename_i hof
    have := mt hpos.1 hof
    omega

/-- **Piece by piece each row is read as often as there are pieces that name its coach.** -/
theorem flatMap_rowsOf_perm (kind : RecordKind) (pieces : List (List String)) (rows : List Cells) :
    (pieces.flatMap (rowsOf kind rows)).Perm (rowsNamed kind pieces rows) := by
  induction pieces with
  | nil =>
      have hnil : rowsNamed kind [] rows = [] := List.flatMap_eq_nil_iff.2 fun row _ => rfl
      rw [hnil]
      exact .nil
  | cons piece pieces ih =>
      have hpiece : (rowsOf kind rows piece).Perm (rows.filter (isOneOf kind piece)) :=
        List.mergeSort_perm _ _
      rw [filter_isOneOf_eq] at hpiece
      rw [List.flatMap_cons]
      refine (hpiece.append ih).trans ((List.flatMap_append_perm rows _ _).trans ?_)
      refine List.Perm.of_eq (List.flatMap_congr fun row _ => ?_)
      rw [List.replicate_append_replicate, namings_cons, Nat.add_comm]

/-- If no coach is given twice, each row of the coaches is read once. -/
theorem flatMap_rowsOf_chunks_perm (kind : RecordKind) {coaches : List String}
    (hd : coaches.Nodup) (rows : List Cells) :
    ((chunks maxBound coaches).flatMap (rowsOf kind rows)).Perm
      (rows.filter (isOneOf kind coaches)) := by
  have hflat : (chunks maxBound coaches).flatten = coaches := flatten_chunks (by decide) coaches
  have hperm := flatMap_rowsOf_perm kind (chunks maxBound coaches) rows
  rwa [rowsNamed_eq fun row _ => namings_le_one (by rwa [hflat]) row, hflat] at hperm

/-- **The records that are read, whatever their order.** -/
theorem perm_get (h : ∀ row ∈ s.rows kind, IsRow kind row) {coaches : List String}
    (hd : coaches.Nodup) :
    (s.get kind coaches).Perm ((s.records kind).filter (Record.isOf coaches)) := by
  have hrows := flatMap_rowsOf_chunks_perm kind hd (s.rows kind)
  rw [filter_isOf_records h]
  exact (List.mergeSort_perm _ _).trans (hrows.map _)

/-! ### In the order of the table -/

/-- No two rows of a table have the same key. -/
theorem nodup_keys (ht : IsTable kind rows) : (rows.map (keyOf kind)).Nodup := by
  rw [List.Nodup, List.pairwise_map]
  refine ht.sorted.imp_of_mem fun {a b} ha _ hab heq => ?_
  rw [KeyLT, ← heq, compare_key_self (ht.keys a ha)] at hab
  cases hab

theorem eq_of_keyOf_eq (ht : IsTable kind rows) {a b : Cells} (ha : a ∈ rows) (hb : b ∈ rows)
    (h : keyOf kind a = keyOf kind b) : a = b :=
  List.inj_on_of_nodup_map (nodup_keys ht) ha hb h

/-- Every record of a store is of a coach. -/
theorem exists_identity? (hs : IsSound s) {r : Record} (hr : r ∈ s.records kind) :
    ∃ t, r.identity? = some t := by
  obtain ⟨row, hrow, rfl⟩ := List.mem_map.1 hr
  obtain ⟨t, -, hid⟩ := exists_identity?_decode (hs.rows kind row hrow)
  exact ⟨t, hid⟩

/-- A record does not come after another one in the order of the coach numbers. -/
def coachLE (a b : Record) : Bool :=
  (Text.order (a.identity?.getD "") (b.identity?.getD "")).isLE

theorem coachLE_iff {a b : Record} :
    coachLE a b = true ↔ a.identity?.getD "" ≤ b.identity?.getD "" :=
  Text.order_isLE_iff

theorem keyOf_master (row : Cells) : keyOf .master row = coachOf .master row := rfl

/-- Master records are ordered by their coach numbers. -/
theorem keyLE_master (hs : IsSound s) {a b : Record} (ha : a ∈ s.records .master)
    (hb : b ∈ s.records .master) : keyLE .master a b = coachLE a b := by
  obtain ⟨x, hx, rfl⟩ := List.mem_map.1 ha
  obtain ⟨y, hy, rfl⟩ := List.mem_map.1 hb
  obtain ⟨t, ht, hid⟩ := exists_identity?_decode (hs.rows .master x hx)
  obtain ⟨u, hu, hid'⟩ := exists_identity?_decode (hs.rows .master y hy)
  have hget {row : Cells} {w : String} (h : coachOf .master row = .text w) :
      (decode .master row).get RecordKind.master.keyField = .text w := get_identity_decode h
  rw [keyLE, hget ht, hget hu, coachLE, hid, hid']
  rfl

/-- No two master records are of the same coach. -/
theorem eq_of_identity?_eq (hs : IsSound s) {a b : Record} (ha : a ∈ s.records .master)
    (hb : b ∈ s.records .master) (h : a.identity? = b.identity?) : a = b := by
  obtain ⟨x, hx, rfl⟩ := List.mem_map.1 ha
  obtain ⟨y, hy, rfl⟩ := List.mem_map.1 hb
  obtain ⟨t, ht, hid⟩ := exists_identity?_decode (hs.rows .master x hx)
  obtain ⟨u, hu, hid'⟩ := exists_identity?_decode (hs.rows .master y hy)
  have htu : t = u := Option.some.inj (hid.symm.trans (h.trans hid'))
  have hkey : keyOf .master x = keyOf .master y := by
    rw [keyOf_master, keyOf_master, ht, hu, htu]
  rw [eq_of_keyOf_eq (hs.table .master) hx hy hkey]

/-- Sorting by two orders that agree on the members gives the same list. -/
theorem mergeSort_congr {α : Type} {r q : α → α → Bool} {l : List α}
    (h : ∀ a ∈ l, ∀ b ∈ l, r a b = q a b) : l.mergeSort r = l.mergeSort q := by
  have := List.map_mergeSort (f := id) h
  rwa [List.map_id, List.map_id] at this

theorem pairwise_coachLE (hr : ∀ row ∈ rows, IsRow .master row) (ht : IsTable .master rows) :
    (rows.map (decode .master)).Pairwise fun a b => coachLE a b = true := by
  rw [List.pairwise_map]
  refine ht.sorted.imp_of_mem fun {a b} ha hb hab => ?_
  obtain ⟨t, htext, hid⟩ := exists_identity?_decode (hr a ha)
  obtain ⟨u, hutext, hid'⟩ := exists_identity?_decode (hr b hb)
  rw [KeyLT, keyOf_master, keyOf_master, htext, hutext, Cell.compare_text_text,
    Option.some.injEq] at hab
  rw [coachLE, hid, hid']
  exact congrArg Ordering.isLE hab

/-- What is read comes in the order of the coach numbers. -/
theorem pairwise_get (hs : IsSound s) {coaches : List String} (hd : coaches.Nodup) :
    (s.get .master coaches).Pairwise fun a b => coachLE a b = true := by
  have hmem : ∀ r, r ∈ s.get .master coaches → r ∈ s.records .master :=
    fun r hr => List.mem_of_mem_filter ((perm_get (hs.rows .master) hd).subset hr)
  unfold get at hmem ⊢
  dsimp only at hmem ⊢
  rw [mergeSort_congr (q := coachLE)]
  · refine List.pairwise_mergeSort (fun a b c hab hbc => ?_) (fun a b => ?_) _
    · rw [coachLE_iff] at *
      exact String.le_trans hab hbc
    · rw [Bool.or_eq_true, coachLE_iff, coachLE_iff]
      exact String.le_total _ _
  · intro a ha b hb
    exact keyLE_master hs (hmem a (List.mem_mergeSort.2 ha)) (hmem b (List.mem_mergeSort.2 hb))

/-- **The master records of some coaches**, none of which is given twice, are those of the table, in
its order. -/
theorem get_master (hs : IsSound s) {coaches : List String} (hd : coaches.Nodup) :
    s.get .master coaches = (s.records .master).filter (Record.isOf coaches) := by
  have hperm := perm_get (hs.rows .master) hd
  -- Both sides are in the order of the coach numbers, in which no two records are level.
  refine List.Perm.eq_of_pairwise (fun a b ha hb hab hba => ?_) (pairwise_get hs hd)
    ((pairwise_coachLE (hs.rows .master) (hs.table .master)).filter _) hperm
  have ha' : a ∈ s.records .master := List.mem_of_mem_filter (hperm.subset ha)
  have hb' : b ∈ s.records .master := List.mem_of_mem_filter hb
  obtain ⟨t, hid⟩ := exists_identity? hs ha'
  obtain ⟨u, hid'⟩ := exists_identity? hs hb'
  rw [coachLE_iff, hid, hid'] at hab hba
  have htu : t = u := String.le_antisymm hab hba
  exact eq_of_identity?_eq hs ha' hb' (by rw [hid, hid', htu])

/-! ### The coaches of the records -/

/-- There is a master record of the coach. -/
def knows (s : Store) (coach : String) : Bool :=
  (s.records .master).any fun r => r.identity? == some coach

theorem knows_iff {coach : String} :
    s.knows coach = true ↔ ∃ r ∈ s.records .master, r.identity? = some coach := by
  rw [knows, List.any_eq_true]
  simp only [beq_iff_eq]

/-- The records of some coaches are those of the ones that have a record. -/
theorem filter_isOf_knows (s : Store) (coaches : List String) :
    (s.records .master).filter (Record.isOf (coaches.filter s.knows)) =
      (s.records .master).filter (Record.isOf coaches) := by
  refine List.filter_congr ?_
  intro r hr
  cases hid : r.identity? with
  | none => rw [Record.isOf, Record.isOf, hid]; rfl
  | some t =>
      rw [Bool.eq_iff_iff, Record.isOf_iff hid, Record.isOf_iff hid, List.mem_filter]
      exact and_iff_left (knows_iff.2 ⟨r, hr, hid⟩)

/-- The coaches of the master records are all different. -/
theorem nodup_identities (hs : IsSound s) :
    ((s.records .master).filterMap Record.identity?).Nodup := by
  have hkeys := nodup_keys (hs.table .master)
  rw [List.Nodup, List.pairwise_map] at hkeys
  rw [List.Nodup, List.pairwise_filterMap, records, List.pairwise_map]
  refine hkeys.imp_of_mem fun {a b} ha hb hne t ht u hu heq => hne ?_
  obtain ⟨t', htext, hid⟩ := exists_identity?_decode (hs.rows .master a ha)
  obtain ⟨u', hutext, hid'⟩ := exists_identity?_decode (hs.rows .master b hb)
  rw [keyOf_master, keyOf_master, htext, hutext, ← Option.some.inj (ht.symm.trans hid),
    ← Option.some.inj (hu.symm.trans hid'), heq]

section

variable {coaches : List String} (hs : IsSound s) (hd : coaches.Nodup)
include hs hd

/-- **The coaches of the master records that are read** are those of the given ones that have a
record. -/
theorem mem_identities_get {t : String} :
    t ∈ (s.get .master coaches).filterMap Record.identity? ↔ t ∈ coaches ∧ s.knows t = true := by
  rw [get_master hs hd, List.mem_filterMap, knows_iff]
  constructor
  · rintro ⟨r, hr, hid⟩
    obtain ⟨hr, hof⟩ := List.mem_filter.1 hr
    exact ⟨(Record.isOf_iff hid).1 hof, r, hr, hid⟩
  · rintro ⟨ht, r, hr, hid⟩
    exact ⟨r, List.mem_filter.2 ⟨hr, (Record.isOf_iff hid).2 ht⟩, hid⟩

theorem nodup_identities_get : ((s.get .master coaches).filterMap Record.identity?).Nodup := by
  rw [get_master hs hd]
  exact (List.filter_sublist.filterMap _).nodup (nodup_identities hs)

theorem identities_get_perm :
    ((s.get .master coaches).filterMap Record.identity?).Perm (coaches.filter s.knows) := by
  refine (List.perm_ext_iff_of_nodup (nodup_identities_get hs hd) (hd.filter _)).2 ?_
  intro t
  rw [mem_identities_get hs hd, List.mem_filter]

end

/-- There are as many rows of coaches as there are coaches with a row, if none is given twice. -/
theorem countP_isOneOf (hs : IsSound s) {coaches : List String} (hd : coaches.Nodup) :
    (s.rows .master).countP (isOneOf .master coaches) = (coaches.filter s.knows).length := by
  have hsome : ∀ r ∈ s.get .master coaches, r.identity?.isSome = true := by
    rw [get_master hs hd]
    intro r hr
    obtain ⟨t, hid⟩ := exists_identity? hs (List.mem_of_mem_filter hr)
    rw [hid]
    rfl
  calc (s.rows .master).countP (isOneOf .master coaches)
      = ((s.records .master).filter (Record.isOf coaches)).length := by
        rw [filter_isOf_records (hs.rows .master), List.length_map, List.countP_eq_length_filter]
    _ = (s.get .master coaches).length := by rw [get_master hs hd]
    _ = ((s.get .master coaches).filterMap Record.identity?).length := by
        rw [List.length_filterMap_eq_countP, List.countP_eq_length.2 hsome]
    _ = (coaches.filter s.knows).length := (identities_get_perm hs hd).length_eq

end Store

end CoachLedger
