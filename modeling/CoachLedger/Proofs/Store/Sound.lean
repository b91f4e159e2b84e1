/-
**What every store is like.**

Whatever has been done to a store, the rows of a table are rows of its kind, stand in the order of
their keys, and no two of them have the same key.  No history record has a number past the last
one that was given.

Main definitions:

* `CoachLedger.Store.IsKey`, `CoachLedger.Store.KeyLT` — keys, and rows in the order of their keys;
* `CoachLedger.Store.IsSound` — what every store is like;
* `CoachLedger.Store.Reachable` — the stores that come of writing to a new store;
* `CoachLedger.Store.filled` — a new store that records have been put into.

Main results:

* `CoachLedger.Store.isTable_putRow` — a row is put in its place in the order;
* `CoachLedger.Store.isSound_upsertOne`, `CoachLedger.Store.isSound_update` — one step;
* `CoachLedger.Store.isSound_of_reachable` — **every store is like this**.
-/

import CoachLedger.Proofs.Store.Update

set_option autoImplicit false

namespace CoachLedger.Store

open CoachLedger.Sql (Cell)

variable {kind : RecordKind} {s t : Store}

/-! ### Keys -/

/-- The keys of a kind: texts for master records, integers for history records. -/
def IsKey (kind : RecordKind) (key : Cell) : Prop :=
  match kind with
  | .master => ∃ t, key = .text t
  | .history => ∃ i, key = .integer i

theorem compare_integer (i j : Int) :
    (Cell.integer i).compare (.integer j) = some (Ord.compare i j) := by
  have h : Ord.compare (Binary64.exactInt i) (Binary64.exactInt j) = Ord.compare i j := by
    rcases Int.lt_trichotomy i j with h | h | h
    · rw [Int.compare_eq_lt.2 h, Int.compare_eq_lt.2 (Binary64.exactInt_lt h)]
    · rw [h, Int.compare_eq_eq.2 rfl, Int.compare_eq_eq.2 rfl]
    · rw [Int.compare_eq_gt.2 h, Int.compare_eq_gt.2 (Binary64.exactInt_lt h)]
  rw [← h]
  rfl

/-- Two keys of a kind are in one of three orders, and in the middle one only if they are equal. -/
theorem compare_keys {a b : Cell} (ha : IsKey kind a) (hb : IsKey kind b) :
    (a.compare b = some .lt ∧ b.compare a = some .gt) ∨ (a = b ∧ a.compare b = some .eq) ∨
      (a.compare b = some .gt ∧ b.compare a = some .lt) := by
  cases kind with
  | master =>
      obtain ⟨u, rfl⟩ := ha
      obtain ⟨v, rfl⟩ := hb
      have hswap := Text.order_swap u v
      rw [Cell.compare_text_text, Cell.compare_text_text, ← hswap]
      cases h : Text.order u v with
      | lt => exact .inl ⟨rfl, rfl⟩
      | eq => exact .inr (.inl ⟨by rw [Text.order_eq_eq.1 h], rfl⟩)
      | gt => exact .inr (.inr ⟨rfl, rfl⟩)
  | history =>
      obtain ⟨i, rfl⟩ := ha
      obtain ⟨j, rfl⟩ := hb
      rw [compare_integer, compare_integer]
      rcases Int.lt_trichotomy i j with h | h | h
      · exact .inl ⟨by rw [Int.compare_eq_lt.2 h], by rw [Int.compare_eq_gt.2 h]⟩
      · exact .inr (.inl ⟨by rw [h], by rw [Int.compare_eq_eq.2 h]⟩)
      · exact .inr (.inr ⟨by rw [Int.compare_eq_gt.2 h], by rw [Int.compare_eq_lt.2 h]⟩)

theorem compare_keys_trans {a b c : Cell} (ha : IsKey kind a) (hb : IsKey kind b)
    (hc : IsKey kind c) (hab : a.compare b = some .lt) (hbc : b.compare c = some .lt) :
    a.compare c = some .lt := by
  cases kind with
  | master =>
      obtain ⟨u, rfl⟩ := ha
      obtain ⟨v, rfl⟩ := hb
      obtain ⟨w, rfl⟩ := hc
      rw [Cell.compare_text_text, Option.some.injEq] at *
      exact Text.order_trans hab hbc
  | history =>
      obtain ⟨i, rfl⟩ := ha
      obtain ⟨j, rfl⟩ := hb
      obtain ⟨l, rfl⟩ := hc
      rw [compare_integer, Option.some.injEq, Int.compare_eq_lt] at *
      exact Int.lt_trans hab hbc

theorem compare_key_self {a : Cell} (ha : IsKey kind a) : a.compare a = some .eq := by
  rcases compare_keys ha ha with ⟨h, h'⟩ | ⟨-, h⟩ | ⟨h, h'⟩
  · rw [h] at h'
    cases h'
  · exact h
  · rw [h] at h'
    cases h'

/-- The first row goes before the second one in the order of the keys. -/
def KeyLT (kind : RecordKind) (a b : Cells) : Prop :=
  (keyOf kind a).compare (keyOf kind b) = some .lt

/-- In a table the rows have keys and stand in their order. -/
structure IsTable (kind : RecordKind) (rows : List Cells) : Prop where
  keys : ∀ row ∈ rows, IsKey kind (keyOf kind row)
  sorted : rows.Pairwise (KeyLT kind)

theorem isTable_nil : IsTable kind [] :=
  ⟨by simp, .nil⟩

/-! ### Putting a row in -/

section PutRow

variable {key : Cell} {update : Cells → Cells} {fresh : Cells} {rows : List Cells}

/-- Each row of the table is one of before, the updated row of the key, or the fresh row. -/
theorem mem_putRow {row : Cells} (h : row ∈ putRow kind key update fresh rows) :
    row ∈ rows ∨ (∃ old ∈ rows, row = update old) ∨ row = fresh := by
  induction rows with
  | nil => exact .inr (.inr (by simpa [putRow] using h))
  | cons old rest ih =>
      rw [putRow] at h
      split at h
      · rcases List.mem_cons.1 h with rfl | h
        · exact .inl (by simp)
        · rcases ih h with h | ⟨r, hr, rfl⟩ | h
          · exact .inl (List.mem_cons_of_mem _ h)
          · exact .inr (.inl ⟨r, List.mem_cons_of_mem _ hr, rfl⟩)
          · exact .inr (.inr h)
      · rcases List.mem_cons.1 h with rfl | h
        · exact .inr (.inl ⟨old, by simp, rfl⟩)
        · exact .inl (List.mem_cons_of_mem _ h)
      · rcases List.mem_cons.1 h with rfl | h
        · exact .inr (.inr rfl)
        · exact .inl h

/-- Each row of the table is one of before, or has the key. -/
theorem key_of_mem_putRow (hu : ∀ row ∈ rows, keyOf kind (update row) = key)
    (hf : keyOf kind fresh = key) {row : Cells} (h : row ∈ putRow kind key update fresh rows) :
    row ∈ rows ∨ keyOf kind row = key := by
  rcases mem_putRow h with h | ⟨old, ho, rfl⟩ | rfl
  · exact .inl h
  · exact .inr (hu old ho)
  · exact .inr hf

/-- The induction goes along the rows before the place of the key. -/
theorem pairwise_putRow (ht : IsTable kind rows) (hk : IsKey kind key)
    (hu : ∀ row ∈ rows, keyOf kind (update row) = key) (hf : keyOf kind fresh = key) :
    (putRow kind key update fresh rows).Pairwise (KeyLT kind) := by
  induction rows with
  | nil => exact List.pairwise_singleton _ _
  | cons row rest ih =>
      obtain ⟨hrow, hrest⟩ := List.pairwise_cons.1 ht.sorted
      obtain ⟨hkr, hkrest⟩ := List.forall_mem_cons.1 ht.keys
      obtain ⟨hur, hurest⟩ := List.forall_mem_cons.1 hu
      rw [putRow]
      rcases compare_keys hkr hk with ⟨hlt, -⟩ | ⟨heq, hc⟩ | ⟨hgt, hlt⟩
      · rw [hlt]
        refine List.pairwise_cons.2 ⟨?_, ih ⟨hkrest, hrest⟩ hurest⟩
        intro r hr
        rcases key_of_mem_putRow hurest hf hr with h | h
        · exact hrow r h
        · rw [KeyLT, h]
          exact hlt
      · rw [hc]
        refine List.pairwise_cons.2 ⟨?_, hrest⟩
        intro r hr
        rw [KeyLT, hur, ← heq]
        exact hrow r hr
      · rw [hgt]
        refine List.pairwise_cons.2 ⟨?_, ht.sorted⟩
        intro r hr
        rw [KeyLT, hf]
        rcases List.mem_cons.1 hr with rfl | hr
        · exact hlt
        · exact compare_keys_trans hk hkr (hkrest r hr) hlt (hrow r hr)

/-- **A row is put in its place in the order.** -/
theorem isTable_putRow (ht : IsTable kind rows) (hk : IsKey kind key)
    (hu : ∀ row ∈ rows, keyOf kind (update row) = key) (hf : keyOf kind fresh = key) :
    IsTable kind (putRow kind key update fresh rows) := by
  refine ⟨?_, pairwise_putRow ht hk hu hf⟩
  intro row hr
  rcases key_of_mem_putRow hu hf hr with h | h
  · exact ht.keys row h
  · rw [h]
    exact hk

end PutRow

/-! ### Stores -/

/-- What every store is like. -/
structure IsSound (s : Store) : Prop where
  rows : ∀ kind, ∀ row ∈ s.rows kind, IsRow kind row
  table : ∀ kind, IsTable kind (s.rows kind)
  ids : ∀ row ∈ s.rows .history, ∀ i, keyOf .history row = .integer i → i ≤ s.lastHistoryId

theorem isSound_fresh : IsSound .fresh := by
  have hnil : ∀ kind, Store.fresh.rows kind = [] := fun kind => by cases kind <;> rfl
  refine ⟨?_, ?_, ?_⟩
  · intro kind row hr
    rw [hnil] at hr
    cases hr
  · intro kind
    rw [hnil]
    exact isTable_nil
  · intro row hr
    cases hr

/-- The key of a record that is put in. -/
theorem isKeyFor_keyFor {r : Record} (hr : r.IsValid) {coach : String}
    (hc : r.identity? = some coach) {key : Cell} (h : s.keyFor r (encode r) = some key) :
    IsKeyFor r key ∧ IsKey r.kind key := by
  unfold keyFor at h
  unfold IsKeyFor IsKey
  cases hk : r.kind with
  | master =>
      rw [hk] at h
      dsimp only at h ⊢
      obtain ⟨hget, -⟩ := get_identity hr hc
      rw [hget] at h
      exact ⟨⟨coach, hget, (Option.some.inj h).symm⟩, coach, (Option.some.inj h).symm⟩
  | history =>
      rw [hk] at h
      dsimp only at h ⊢
      split at h
      · exact ⟨⟨_, (Option.some.inj h).symm⟩, _, (Option.some.inj h).symm⟩
      · split at h
        · exact ⟨⟨_, (Option.some.inj h).symm⟩, _, (Option.some.inj h).symm⟩
        · cases h
      · cases h

/-- **What putting in one record does.** -/
theorem upsertOne_ok {r : Record} {n : Nat} (h : s.upsertOne r = .ok (n, t)) :
    ∃ coach key, r.identity? = some coach ∧ s.keyFor r (encode r) = some key ∧
      n = (if hasKey r.kind key (s.rows r.kind) && !setsMore r then 0 else 1) ∧
      t = (s.withRows r.kind (putRow r.kind key (writeRow r key) (writeRow r key (blank r.kind))
        (s.rows r.kind))).useKey r.kind key := by
  unfold upsertOne at h
  split at h
  · cases h
  · rename_i hid
    split at h
    · cases h
    · dsimp only at h
      split at h
      · cases h
      · rename_i key hkey
        obtain ⟨coach, hcoach⟩ := Option.ne_none_iff_exists'.1 fun (hn : r.identity? = none) =>
          hid (by rw [hn]; rfl)
        simp only [Except.ok.injEq, Prod.mk.injEq] at h
        exact ⟨coach, key, hcoach, hkey, h.1.symm, h.2.symm⟩

@[simp] theorem rows_withRows_self (s : Store) (kind : RecordKind) (rows : List Cells) :
    (s.withRows kind rows).rows kind = rows := by
  cases kind <;> rfl

theorem rows_withRows_of_ne (s : Store) {kind other : RecordKind} (h : other ≠ kind)
    (rows : List Cells) : (s.withRows kind rows).rows other = s.rows other := by
  cases kind <;> cases other <;> first | rfl | exact absurd rfl h

@[simp] theorem rows_useKey (s : Store) (kind other : RecordKind) (key : Cell) :
    (s.useKey kind key).rows other = s.rows other := by
  unfold useKey
  split <;> cases other <;> rfl

/-- A store with another table of a kind is sound if the table is one and no number in it is too
large. -/
theorem IsSound.withRows (hs : IsSound s) {rows : List Cells} (hrows : ∀ row ∈ rows, IsRow kind row)
    (htable : IsTable kind rows)
    (hids : kind = .history → ∀ row ∈ rows, ∀ i, keyOf .history row = .integer i →
      i ≤ s.lastHistoryId) : IsSound (s.withRows kind rows) := by
  refine ⟨?_, ?_, ?_⟩
  · intro other row hr
    by_cases ho : other = kind
    · subst ho
      rw [rows_withRows_self] at hr
      exact hrows row hr
    · rw [rows_withRows_of_ne s ho] at hr
      exact hs.rows other row hr
  · intro other
    by_cases ho : other = kind
    · subst ho
      rw [rows_withRows_self]
      exact htable
    · rw [rows_withRows_of_ne s ho]
      exact hs.table other
  · cases kind with
    | master => exact hs.ids
    | history => exact hids rfl

theorem le_lastHistoryId_useKey (s : Store) (kind : RecordKind) (key : Cell) :
    s.lastHistoryId ≤ (s.useKey kind key).lastHistoryId := by
  unfold useKey
  split
  · exact Int.le_max_left ..
  · exact Int.le_refl _

theorem IsSound.useKey (hs : IsSound s) (kind : RecordKind) (key : Cell) :
    IsSound (s.useKey kind key) := by
  refine ⟨?_, ?_, ?_⟩
  · intro other row hr
    rw [rows_useKey] at hr
    exact hs.rows other row hr
  · intro other
    rw [rows_useKey]
    exact hs.table other
  · intro row hr i hi
    rw [rows_useKey] at hr
    exact Int.le_trans (hs.ids row hr i hi) (le_lastHistoryId_useKey s kind key)

/-- A number that has been used is not past the last one. -/
theorem le_lastHistoryId_of_used {kind : RecordKind} (h : kind = .history) (s : Store) (i : Int) :
    i ≤ (s.useKey kind (.integer i)).lastHistoryId := by
  subst h
  exact Int.le_max_right ..

theorem withRows_useKey (s : Store) (kind : RecordKind) (key : Cell) (rows : List Cells) :
    (s.withRows kind rows).useKey kind key = (s.useKey kind key).withRows kind rows := by
  cases kind <;> cases key <;> rfl

/-- **Putting in a record leaves a store sound.** -/
theorem isSound_upsertOne (hs : IsSound s) {r : Record} (hr : r.IsValid) {n : Nat}
    (h : s.upsertOne r = .ok (n, t)) : IsSound t := by
  obtain ⟨coach, key, hc, hk, -, rfl⟩ := upsertOne_ok h
  obtain ⟨hkey, hkind⟩ := isKeyFor_keyFor hr hc hk
  have hblank : (blank r.kind).length = r.kind.fields.length := List.length_replicate
  have hlen : ∀ row ∈ s.rows r.kind, row.length = r.kind.fields.length :=
    fun row hrow => (hs.rows r.kind row hrow).length
  have hrows : ∀ row ∈ putRow r.kind key (writeRow r key) (writeRow r key (blank r.kind))
      (s.rows r.kind), IsRow r.kind row := by
    intro row hrow
    rcases mem_putRow hrow with h | ⟨old, ho, rfl⟩ | rfl
    · exact hs.rows r.kind row h
    · exact isRow_writeRow hr hkey (hlen old ho) (hs.rows r.kind old ho).suits hc
    · exact isRow_writeRow hr hkey hblank (suited_blank r.kind) hc
  have hupdate : ∀ row ∈ s.rows r.kind, keyOf r.kind (writeRow r key row) = key :=
    fun row hrow => keyOf_writeRow key (hlen row hrow)
  have hfresh : keyOf r.kind (writeRow r key (blank r.kind)) = key := keyOf_writeRow key hblank
  have htable := isTable_putRow (hs.table r.kind) hkind hupdate hfresh
  rw [withRows_useKey]
  refine (hs.useKey r.kind key).withRows hrows htable ?_
  intro hh row hrow i hi
  -- The number of the written row has been used, and that of any other row was there before.
  rcases key_of_mem_putRow hupdate hfresh hrow with hrow | hrow
  · rw [hh] at hrow
    exact Int.le_trans (hs.ids row hrow i hi) (le_lastHistoryId_useKey s r.kind key)
  · rw [← hh, hrow] at hi
    rw [hi]
    exact le_lastHistoryId_of_used hh s i

/-- **Putting in records one after the other leaves a store sound.** -/
theorem isSound_upsertFrom (hs : IsSound s) {rs : List Record} (hr : ∀ r ∈ rs, r.IsValid)
    {count n : Nat} (h : s.upsertFrom count rs = .ok (n, t)) : IsSound t := by
  induction rs generalizing s count with
  | nil =>
      simp only [upsertFrom, Except.ok.injEq, Prod.mk.injEq] at h
      rw [← h.2]
      exact hs
  | cons r rs ih =>
      obtain ⟨hr, hrs⟩ := List.forall_mem_cons.1 hr
      rw [upsertFrom] at h
      split at h
      · rename_i m u hu
        exact ih (isSound_upsertOne hs hr hu) hrs h
      · cases h

/-- A row with a settable cell set is a row. -/
theorem isRow_setIn {field : String} {index : Nat} {f : Field}
    (hset : IsSettable kind field index f) {c : Cell} (hc : Cell.Suits f.kind c)
    (coaches : List String) {row : Cells} (hrow : IsRow kind row) :
    IsRow kind (setIn kind coaches index c row) := by
  obtain ⟨i, hi, hfi, -⟩ := RecordKind.index?_of_field? hset.field?
  obtain rfl : i = index := Option.some.inj (hi.symm.trans hset.index?)
  refine ⟨?_, ?_, ?_⟩
  · rw [setIn]
    split
    · rw [List.length_set]
      exact hrow.length
    · exact hrow.length
  · rw [setIn]
    split
    · exact suited_set hrow.suits hfi hc
    · exact hrow.suits
  · rw [coachOf_setIn hset.index? hset.ne_identity]
    exact hrow.coach

theorem keyOf_setIn {field : String} {index : Nat} {f : Field}
    (hset : IsSettable kind field index f) (coaches : List String) (c : Cell) (row : Cells) :
    keyOf kind (setIn kind coaches index c row) = keyOf kind row := by
  rw [setIn]
  split
  · exact cellAt_set_of_ne hset.index? hset.ne_key.symm c
  · rfl

/-- A table whose rows are changed without their keys is a table. -/
theorem isTable_map {rows : List Cells} (ht : IsTable kind rows) {change : Cells → Cells}
    (hk : ∀ row, keyOf kind (change row) = keyOf kind row) : IsTable kind (rows.map change) := by
  refine ⟨?_, ?_⟩
  · intro row hr
    obtain ⟨old, ho, rfl⟩ := List.mem_map.1 hr
    rw [hk]
    exact ht.keys old ho
  · rw [List.pairwise_map]
    refine ht.sorted.imp ?_
    intro a b hab
    rw [KeyLT, hk, hk]
    exact hab

/-- **Setting a field leaves a store sound.** -/
theorem isSound_update (hs : IsSound s) {coaches : List String} {field : String} {v : Value}
    {n : Nat} (h : s.update kind coaches field v = .ok (n, t)) : IsSound t := by
  obtain ⟨index, f, hset, hfits, -, rfl⟩ := update_ok h
  have hkey := keyOf_setIn hset coaches (cellFor f.kind v)
  refine hs.withRows ?_ (isTable_map (hs.table kind) hkey) ?_
  · intro row hr
    obtain ⟨old, ho, rfl⟩ := List.mem_map.1 hr
    exact isRow_setIn hset (Cell.suits_cellFor hfits) coaches (hs.rows kind old ho)
  · rintro rfl row hr i hi
    obtain ⟨old, ho, rfl⟩ := List.mem_map.1 hr
    rw [hkey] at hi
    exact hs.ids old ho i hi

/-- The tables are what they are whatever becomes of the audit log and the version. -/
theorem IsSound.congr (hs : IsSound s) (hrows : ∀ kind, t.rows kind = s.rows kind)
    (hlast : t.lastHistoryId = s.lastHistoryId) : IsSound t := by
  refine ⟨?_, ?_, ?_⟩
  · intro kind
    rw [hrows]
    exact hs.rows kind
  · intro kind
    rw [hrows]
    exact hs.table kind
  · rw [hrows, hlast]
    exact hs.ids

/-- Logging changes the audit log only. -/
theorem log_ok {entry : Audit.Entry} {change : Option Audit.Change} {row : Audit.Row}
    (h : s.log entry change = .ok (row, t)) :
    ∃ l, s.audit = some l ∧ row = (l.append entry change).1 ∧
      t = { s with audit := some (l.append entry change).2 } := by
  unfold log at h
  split at h
  · cases h
  · rename_i l hl
    simp only [Except.ok.injEq, Prod.mk.injEq] at h
    exact ⟨l, hl, h.1.symm, h.2.symm⟩

/-! ### Reachable stores -/

/-- The stores that come of writing to a new store.  Somebody may remove the audit log, or put
another version on the store. -/
inductive Reachable : Store → Prop
  | fresh : Reachable .fresh
  | upsert {s t : Store} {rs : List Record} {n : Nat} (hs : Reachable s)
      (hr : ∀ r ∈ rs, r.IsValid) (h : s.upsert rs = .ok (n, t)) : Reachable t
  | update {s t : Store} {kind : RecordKind} {coaches : List String} {field : String} {v : Value}
      {n : Nat} (hs : Reachable s) (h : s.update kind coaches field v = .ok (n, t)) : Reachable t
  | log {s t : Store} {entry : Audit.Entry} {change : Option Audit.Change} {row : Audit.Row}
      (hs : Reachable s) (h : s.log entry change = .ok (row, t)) : Reachable t
  | removeLog {s : Store} (hs : Reachable s) : Reachable { s with audit := none }
  | stamp {s : Store} (hs : Reachable s) (version : Option Int) :
      Reachable { s with version := version }

/-- **Every store is sound.** -/
theorem isSound_of_reachable (h : Reachable s) : IsSound s := by
  induction h with
  | fresh => exact isSound_fresh
  | upsert hs hr h ih => exact isSound_upsertFrom ih hr h
  | update hs h ih => exact isSound_update ih h
  | log hs h ih =>
      obtain ⟨l, -, -, rfl⟩ := log_ok h
      exact ih.congr (fun kind => by cases kind <;> rfl) rfl
  | removeLog hs ih => exact ih.congr (fun kind => by cases kind <;> rfl) rfl
  | stamp hs version ih => exact ih.congr (fun kind => by cases kind <;> rfl) rfl

/-! ### Filled stores -/

/-- A record of the coach `C1` with one more field. -/
def recordOf (kind : RecordKind) (column : String) (v : Value) : Record :=
  ((Record.empty kind).put CoachLedger.identityField (.text "C1")).put column v

theorem isValid_recordOf {column : String} {v : Value} {f : Field}
    (hf : kind.field? column = some f) (hv : v.kind? = some f.kind) :
    (recordOf kind column v).IsValid := by
  have hcoach : ((Record.empty kind).put CoachLedger.identityField (.text "C1")).IsValid :=
    Record.isValid_put (Record.isValid_empty kind) (field?_identity kind) (Value.fits_of_kind? rfl)
  refine Record.isValid_put hcoach ?_ (Value.fits_of_kind? hv)
  rw [Record.kind_put]
  exact hf

/-- A new store that records have been put into. -/
def filled (rs : List Record) : Store :=
  match Store.fresh.upsert rs with
  | .ok (_, s) => s
  | .error _ => .fresh

theorem upsert_filled (rs : List Record) (h : (Store.fresh.upsert rs).isOk = true) :
    ∃ n, Store.fresh.upsert rs = .ok (n, filled rs) := by
  unfold filled
  cases hs : Store.fresh.upsert rs with
  | ok p => exact ⟨p.1, rfl⟩
  | error e =>
      rw [hs] at h
      cases h

theorem reachable_filled {rs : List Record} (hr : ∀ r ∈ rs, r.IsValid)
    (h : (Store.fresh.upsert rs).isOk = true) : (filled rs).Reachable := by
  obtain ⟨n, hn⟩ := upsert_filled rs h
  exact .upsert .fresh hr hn

/-- A new store can take a record of the coach `C1`. -/
theorem reachable_recordOf {column : String} {v : Value} {f : Field}
    (hf : kind.field? column = some f) (hv : v.kind? = some f.kind)
    (h : (Store.fresh.upsert [recordOf kind column v]).isOk = true) :
    (filled [recordOf kind column v]).Reachable :=
  reachable_filled (List.forall_mem_singleton.2 (isValid_recordOf hf hv)) h

/-- A store with one coach, whose battery is good. -/
def yard : Store :=
  filled [recordOf .master "battery_status" (.text "good")]

theorem reachable_yard : yard.Reachable :=
  reachable_recordOf (f := ⟨"battery_status", .text⟩) (by decide) rfl (by decide)

end CoachLedger.Store
