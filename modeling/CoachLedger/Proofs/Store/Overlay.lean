/-
**Putting records in, as an overlay.**

A table holds the values of the fields in the row of each key.  Putting a record in changes the row
of one key: the fields that the record sets replace those of the row, and a row that was not there
has no other values.  What is read from the store afterwards are these values, except that a number
that the database has given to a history record may be too large to be read exactly.

Main definitions:

* `CoachLedger.Store.contents` — what a store holds under each key;
* `CoachLedger.Store.Contents.put` — a record put over the row of a key;
* `CoachLedger.Store.Overlays` — records put in one after the other;
* `CoachLedger.Store.ReadsAs` — what is read from a store is what it holds.

Main results:

* `CoachLedger.Store.rowOf?_putRow` — the row of a key is written, and no other one;
* `CoachLedger.Store.contents_upsertOne` — one record is put over the row of its key;
* `CoachLedger.Store.upsert_overlays` — **putting records in is an exact overlay**.
-/

import CoachLedger.Proofs.Record.Json
import CoachLedger.Proofs.Store.Masters
import Mathlib.Logic.Function.Basic

set_option autoImplicit false

namespace CoachLedger

open CoachLedger.Sql (Cell)

/-! ### Values by name -/

namespace Record

/-- The record of a kind with the given values; a field without a value is not set. -/
def ofValues (kind : RecordKind) (values : String → Value) : Record :=
  ⟨kind, kind.fields.map fun f => if (values f.name).isNull then none else some (values f.name),
    by simp⟩

/-- The values that a record sets, and the given ones of the other fields. -/
def valuesOver (r : Record) (values : String → Value) (name : String) : Value :=
  ((r.slot? name).map Value.unsignedZero).getD (values name)

end Record

namespace Store

variable {kind : RecordKind} {s t : Store} {r : Record}

/-! ### The row of a key -/

/-- The row of a key. -/
def rowOf? (kind : RecordKind) (key : Cell) (rows : List Cells) : Option Cells :=
  rows.find? fun row => keyOf kind row == key

theorem rowOf?_cons_self {key : Cell} {row : Cells} (h : keyOf kind row = key) (rows : List Cells) :
    rowOf? kind key (row :: rows) = some row :=
  List.find?_cons_of_pos (by rw [h]; exact beq_self_eq_true _)

theorem rowOf?_cons_of_ne {key : Cell} {row : Cells} (h : keyOf kind row ≠ key)
    (rows : List Cells) : rowOf? kind key (row :: rows) = rowOf? kind key rows :=
  List.find?_cons_of_neg (by rw [beq_iff_eq]; exact h)

theorem hasKey_eq_isSome (key : Cell) (rows : List Cells) :
    hasKey kind key rows = (rowOf? kind key rows).isSome := by
  rw [hasKey, rowOf?, Bool.eq_iff_iff, List.find?_isSome, List.any_eq_true]

/-- There is only one row of a key. -/
theorem rowOf?_eq_some {rows : List Cells} (ht : IsTable kind rows) {key : Cell} {row : Cells} :
    rowOf? kind key rows = some row ↔ row ∈ rows ∧ keyOf kind row = key := by
  constructor
  · intro h
    exact ⟨List.mem_of_find?_eq_some h, by simpa using List.find?_some h⟩
  · rintro ⟨hrow, rfl⟩
    cases hfind : rowOf? kind (keyOf kind row) rows with
    | none =>
        have := List.find?_eq_none.1 hfind row hrow
        rw [beq_self_eq_true] at this
        exact absurd rfl this
    | some other =>
        have hkey : keyOf kind other = keyOf kind row := by simpa using List.find?_some hfind
        rw [eq_of_keyOf_eq ht (List.mem_of_find?_eq_some hfind) hrow hkey]

/-- **The row of the key is written, and no other one.**  The induction goes along the rows before
the place of the key. -/
theorem rowOf?_putRow {key : Cell} {update : Cells → Cells} {fresh : Cells} {rows : List Cells}
    (ht : IsTable kind rows) (hk : IsKey kind key)
    (hu : ∀ row ∈ rows, keyOf kind (update row) = key) (hf : keyOf kind fresh = key) (k : Cell) :
    rowOf? kind k (putRow kind key update fresh rows) =
      if k = key then some (((rowOf? kind key rows).map update).getD fresh)
      else rowOf? kind k rows := by
  induction rows with
  | nil =>
      rw [putRow]
      split
      · rename_i h
        exact rowOf?_cons_self (hf.trans h.symm) []
      · rename_i h
        exact rowOf?_cons_of_ne (by rw [hf]; exact Ne.symm h) []
  | cons row rest ih =>
      obtain ⟨hrow, hrest⟩ := List.pairwise_cons.1 ht.sorted
      obtain ⟨hkr, hkrest⟩ := List.forall_mem_cons.1 ht.keys
      obtain ⟨hur, hurest⟩ := List.forall_mem_cons.1 hu
      rw [putRow]
      rcases compare_keys hkr hk with ⟨hlt, hgt⟩ | ⟨heq, hc⟩ | ⟨hgt, hlt⟩
      · -- The row comes before the place of the key.
        have hne : keyOf kind row ≠ key := by
          intro h
          rw [h, compare_key_self hk] at hlt
          cases hlt
        rw [hlt]
        dsimp only
        rw [rowOf?_cons_of_ne hne]
        by_cases hkrow : keyOf kind row = k
        · rw [rowOf?_cons_self hkrow, rowOf?_cons_self hkrow, if_neg (hkrow ▸ hne)]
        · rw [rowOf?_cons_of_ne hkrow, rowOf?_cons_of_ne hkrow, ih ⟨hkrest, hrest⟩ hurest]
      · -- The row is the one of the key.
        rw [hc]
        dsimp only
        rw [rowOf?_cons_self heq]
        split
        · rename_i h
          exact rowOf?_cons_self (hur.trans h.symm) rest
        · rename_i h
          rw [rowOf?_cons_of_ne (by rw [hur]; exact Ne.symm h),
            rowOf?_cons_of_ne (by rw [heq]; exact Ne.symm h)]
      · -- There is no row of the key, because this one and all after it have greater keys.
        have hnone : rowOf? kind key (row :: rest) = none := by
          refine List.find?_eq_none.2 fun other ho heq => ?_
          have hother : key.compare (keyOf kind other) = some .lt := by
            rcases List.mem_cons.1 ho with rfl | ho
            · exact hlt
            · exact compare_keys_trans hk hkr (hkrest other ho) hlt (hrow other ho)
          rw [beq_iff_eq.1 heq, compare_key_self hk] at hother
          cases hother
        rw [hgt]
        dsimp only
        rw [hnone]
        split
        · rename_i h
          exact rowOf?_cons_self (hf.trans h.symm) _
        · rename_i h
          exact rowOf?_cons_of_ne (by rw [hf]; exact Ne.symm h) _

/-- A coach has a master record if there is a row of its number. -/
theorem knows_eq_isSome (hs : IsSound s) (coach : String) :
    s.knows coach = (rowOf? .master (.text coach) (s.rows .master)).isSome := by
  rw [Bool.eq_iff_iff, knows_iff, rowOf?, List.find?_isSome]
  constructor
  · rintro ⟨r, hr, hid⟩
    obtain ⟨row, hrow, rfl⟩ := List.mem_map.1 hr
    obtain ⟨t, ht, hid'⟩ := exists_identity?_decode (hs.rows .master row hrow)
    refine ⟨row, hrow, ?_⟩
    rw [keyOf_master, ht, Option.some.inj (hid.symm.trans hid'), beq_self_eq_true]
  · rintro ⟨row, hrow, hkey⟩
    obtain ⟨t, ht, hne⟩ := (hs.rows .master row hrow).coach
    rw [keyOf_master, ht, beq_iff_eq] at hkey
    obtain rfl := Cell.text.inj hkey
    exact ⟨_, List.mem_map_of_mem hrow, identity?_decode ht hne⟩

/-! ### What a store holds -/

/-- For each kind and key the values of the fields in the row, if there is one. -/
abbrev Contents := RecordKind → Cell → Option (String → Value)

/-- What a store holds. -/
def contents (s : Store) : Contents := fun kind key =>
  (rowOf? kind key (s.rows kind)).map fun row => (decode kind row).get

/-- The value that a key is read as. -/
def keyValue : Cell → Value
  | .text t => .text t
  | .integer i => .number (.ofInt i)
  | _ => .null

namespace Contents

/-- A record put over the row of a key, or over a row without values if there is none. -/
def put (c : Contents) (r : Record) (key : Cell) : Contents := fun kind k =>
  if kind = r.kind ∧ k = key then
    some (Function.update (r.valuesOver ((c kind k).getD fun _ => .null)) kind.keyField
      (keyValue key))
  else c kind k

/-- The key of the row that a record goes to. -/
inductive IsTarget (c : Contents) (r : Record) : Cell → Prop
  /-- A master record goes to the row of its coach. -/
  | coach {t : String} (hk : r.kind = .master)
      (ht : r.get CoachLedger.identityField = .text t) : IsTarget c r (.text t)
  /-- A history record with a number goes to the row of the number. -/
  | number {x : Binary64} {i : Int} (hk : r.kind = .history)
      (hx : r.get RecordKind.history.keyField = .number x) (hi : x.integer? = some i) :
      IsTarget c r (.integer i)
  /-- A history record without a number goes to a new row, past all that are there. -/
  | fresh {i : Int} (hk : r.kind = .history)
      (hnull : r.get RecordKind.history.keyField = .null)
      (hnew : ∀ j, (c .history (.integer j)).isSome = true → j < i) : IsTarget c r (.integer i)

/-- One for a master record that has nothing but the coach number of a row that is there. -/
def idle (c : Contents) (r : Record) (key : Cell) : Nat :=
  if r.kind = .master ∧ (c .master key).isSome = true ∧
    r.entries.map Prod.fst = [CoachLedger.identityField] then 1 else 0

end Contents

/-- Records put in one after the other, of which some number have nothing but the coach number of a
row that was there at their turn. -/
inductive Overlays : Contents → List Record → Nat → Contents → Prop
  | nil (c : Contents) : Overlays c [] 0 c
  | cons {c d : Contents} {r : Record} {rs : List Record} {key : Cell} {idle : Nat}
      (hkey : c.IsTarget r key) (h : Overlays (c.put r key) rs idle d) :
      Overlays c (r :: rs) (c.idle r key + idle) d

/-! ### Writing a record -/

/-- The values of a row that a record is written over. -/
theorem get_decode_writeRow (hr : r.IsValid) (hx : r.IsFinite) {key : Cell} (hk : IsKey r.kind key)
    {row : Cells} (hl : row.length = r.kind.fields.length) :
    (decode r.kind (writeRow r key row)).get =
      Function.update (r.valuesOver (decode r.kind row).get) r.kind.keyField (keyValue key) := by
  funext name
  by_cases hname : name = r.kind.keyField
  · subst hname
    rw [Function.update_self]
    have hcell : cellAt r.kind (writeRow r key row) r.kind.keyField = key := keyOf_writeRow key hl
    cases hkind : r.kind with
    | master =>
        rw [hkind] at hcell hk
        obtain ⟨t, rfl⟩ := hk
        rw [get_decode (f := ⟨CoachLedger.identityField, .text⟩) _ (by decide), hcell]
        rfl
    | history =>
        rw [hkind] at hcell hk
        obtain ⟨i, rfl⟩ := hk
        rw [get_decode (f := ⟨"id", .number⟩) _ (by decide), hcell]
        rfl
  · rw [Function.update_of_ne hname, Record.valuesOver]
    cases hf : r.kind.field? name with
    | none =>
        have hnone (row : Cells) : (decode r.kind row).get name = .null := by
          rw [Record.get, Record.slot?_eq_none (r := decode r.kind row) hf]
          rfl
        rw [hnone, hnone, Record.slot?_eq_none hf]
        rfl
    | some f =>
        have hcell : cellAt r.kind (writeRow r key row) name =
            cellAt r.kind (overlay (encode r) row) name := by
          rw [writeRow, withKey_eq]
          exact cellAt_set_of_ne (index?_keyField r.kind) hname key
        rw [get_decode _ hf, get_decode _ hf, hcell, cellAt_overlay hl hf]
        cases hs : r.slot? name with
        | none => rfl
        | some v =>
            exact Cell.toValue_cellFor_unsignedZero (Record.fits_slot? hr hf hs)
              (Record.ne_nan_of_isFinite hx hs)

theorem length_blank (kind : RecordKind) : (blank kind).length = kind.fields.length :=
  List.length_replicate

theorem get_decode_blank (kind : RecordKind) : (decode kind (blank kind)).get = fun _ => .null := by
  funext name
  cases hf : kind.field? name with
  | none =>
      rw [Record.get, Record.slot?_eq_none (r := decode kind (blank kind)) hf]
      rfl
  | some f =>
      obtain ⟨i, hi, hfi, -⟩ := RecordKind.index?_of_field? hf
      have hlt : i < kind.fields.length := (List.getElem?_eq_some_iff.1 hfi).1
      rw [get_decode _ hf, cellAt_eq hi, blank, List.getElem?_replicate, if_pos hlt,
        Option.getD_some, Cell.toValue_null]

/-- The cell of the number of a history record, if it has one. -/
theorem encode_keyField (r : Record) {f : Field} (hf : r.kind.field? r.kind.keyField = some f) :
    ((r.kind.index? r.kind.keyField).bind fun i => (encode r)[i]?).join =
      (r.slot? r.kind.keyField).map (cellFor f.kind) := by
  obtain ⟨i, hi, hfi, -⟩ := RecordKind.index?_of_field? hf
  rw [hi, Record.slot?_eq hi, Option.bind_some, getElem?_encode hfi]
  cases r.slots[i]? with
  | none => rfl
  | some slot => cases slot <;> rfl

theorem le_lastHistoryId_of_contents (hs : IsSound s) {j : Int}
    (h : (s.contents .history (.integer j)).isSome = true) : j ≤ s.lastHistoryId := by
  rw [contents, Option.isSome_map] at h
  obtain ⟨row, hrow⟩ := Option.isSome_iff_exists.1 h
  obtain ⟨hmem, hkey⟩ := (rowOf?_eq_some (hs.table .history)).1 hrow
  exact hs.ids row hmem j hkey

/-- A history record has the number that it sets as its key, or the one after the last if it sets
none. -/
theorem keyFor_history (hr : r.IsValid) (hk : r.kind = .history) {key : Cell}
    (h : s.keyFor r (encode r) = some key) :
    ∃ i, key = .integer i ∧
      ((∃ x, r.get RecordKind.history.keyField = .number x ∧ x.integer? = some i) ∨
        ((r.get RecordKind.history.keyField = .null ∨
            r.get RecordKind.history.keyField = .number .nan) ∧
          i = s.lastHistoryId + 1)) := by
  have hf : r.kind.field? r.kind.keyField = some ⟨"id", .number⟩ := by
    rw [hk]
    decide
  unfold keyFor at h
  rw [encode_keyField r hf, hk] at h
  rw [hk] at hf
  have hfresh (h : (if s.lastHistoryId < Cell.maxInteger then
      some (Cell.integer (s.lastHistoryId + 1)) else none) = some key) :
      key = .integer (s.lastHistoryId + 1) := by
    split at h
    · exact (Option.some.inj h).symm
    · cases h
  cases hslot : r.slot? RecordKind.history.keyField with
  | none =>
      rw [hslot] at h
      exact ⟨_, hfresh h, .inr ⟨.inl (by rw [Record.get, hslot]; rfl), rfl⟩⟩
  | some v =>
      have hget : r.get RecordKind.history.keyField = v := by rw [Record.get, hslot]; rfl
      have hfits := Record.fits_slot? hr (by rw [hk]; exact hf) hslot
      rw [hslot] at h
      cases v with
      | null => exact ⟨_, hfresh h, .inr ⟨.inl hget, rfl⟩⟩
      | number x =>
          dsimp only [Option.map_some, Option.getD_some] at h
          rcases Cell.cellFor_number x with ⟨i, hi, hcell⟩ | ⟨-, hcell⟩
          · rw [hcell] at h
            exact ⟨i, (Option.some.inj h).symm, .inl ⟨x, hget, hi⟩⟩
          · -- A real is no number of a row, and NaN is stored as null.
            rw [hcell] at h
            cases x with
            | nan => exact ⟨_, hfresh h, .inr ⟨.inr hget, rfl⟩⟩
            | signed negative rank le => cases h
      | text t => cases hfits _ rfl
      | date d => cases hfits _ rfl
      | boolean b => cases hfits _ rfl

/-- The key of a record is the one that it goes to. -/
theorem isTarget_keyFor (hs : IsSound s) (hr : r.IsValid)
    (hx : r.get r.kind.keyField ≠ .number .nan) {coach : String} (hc : r.identity? = some coach)
    {key : Cell} (h : s.keyFor r (encode r) = some key) : s.contents.IsTarget r key := by
  cases hk : r.kind with
  | master =>
      unfold keyFor at h
      rw [hk] at h
      obtain ⟨hget, -⟩ := get_identity hr hc
      obtain rfl : .text coach = key := by
        rw [hget] at h
        exact Option.some.inj h
      exact .coach hk hget
  | history =>
      rw [hk] at hx
      obtain ⟨i, rfl, ⟨x, hget, hi⟩ | ⟨hnull, rfl⟩⟩ := keyFor_history hr hk h
      · exact .number hk hget hi
      · refine .fresh hk (hnull.resolve_right hx) fun j hj => ?_
        exact Int.lt_add_one_of_le (le_lastHistoryId_of_contents hs hj)

/-- A record sets nothing but its key exactly if it is a master record with nothing but its coach
number. -/
theorem setsMore_eq_false_iff {coach : String} (hc : r.identity? = some coach) :
    setsMore r = false ↔
      r.kind = .master ∧ r.entries.map Prod.fst = [CoachLedger.identityField] := by
  have hmem : CoachLedger.identityField ∈ r.entries.map Prod.fst := by
    obtain ⟨ht, -⟩ := Option.filter_eq_some_iff.1 hc
    cases hs : r.slot? CoachLedger.identityField with
    | none =>
        rw [Record.get, hs] at ht
        cases ht
    | some v => exact List.mem_map.2 ⟨_, Record.mem_entries.2 hs, rfl⟩
  have hnodup : (r.entries.map Prod.fst).Nodup := by
    have := r.nodup_names_members
    rwa [Record.members, List.map_map] at this
  constructor
  · intro h
    have hall : ∀ name ∈ r.entries.map Prod.fst, name = r.kind.keyField := by
      intro name hname
      obtain ⟨e, he, rfl⟩ := List.mem_map.1 hname
      have := List.any_eq_false.1 h e he
      simpa using this
    have hkey := hall _ hmem
    refine ⟨?_, ?_⟩
    · cases hk : r.kind with
      | master => rfl
      | history =>
          rw [hk] at hkey
          exact absurd hkey (by decide)
    · rw [← hkey] at hall
      refine List.perm_singleton.1 ((List.perm_ext_iff_of_nodup hnodup (List.nodup_singleton _)).2 ?_)
      intro name
      rw [List.mem_singleton]
      exact ⟨hall name, fun h => h ▸ hmem⟩
  · rintro ⟨hk, hentries⟩
    refine List.any_eq_false.2 fun e he => ?_
    have : e.1 ∈ r.entries.map Prod.fst := List.mem_map_of_mem he
    rw [hentries, List.mem_singleton] at this
    rw [this, hk]
    decide

/-- **One record is written over the row of its key**, or over a blank row if there is none. -/
theorem rowOf?_upsertOne (hs : IsSound s) (hr : r.IsValid) {n : Nat}
    (h : s.upsertOne r = .ok (n, t)) :
    ∃ coach key, r.identity? = some coach ∧ s.keyFor r (encode r) = some key ∧
      n = (if hasKey r.kind key (s.rows r.kind) && !setsMore r then 0 else 1) ∧
      ∀ kind k, rowOf? kind k (t.rows kind) =
        if kind = r.kind ∧ k = key then
          some (writeRow r key ((rowOf? kind k (s.rows kind)).getD (blank kind)))
        else rowOf? kind k (s.rows kind) := by
  obtain ⟨coach, key, hc, hkey, hn, rfl⟩ := upsertOne_ok h
  obtain ⟨-, hiskey⟩ := isKeyFor_keyFor hr hc hkey
  refine ⟨coach, key, hc, hkey, hn, fun kind k => ?_⟩
  rw [rows_useKey]
  by_cases hkind : kind = r.kind
  · subst hkind
    have hlen : ∀ row ∈ s.rows r.kind, keyOf r.kind (writeRow r key row) = key :=
      fun row hrow => keyOf_writeRow key (hs.rows r.kind row hrow).length
    rw [rows_withRows_self, rowOf?_putRow (hs.table r.kind) hiskey hlen
      (keyOf_writeRow key (length_blank r.kind))]
    by_cases hk : k = key
    · subst hk
      rw [if_pos rfl, if_pos ⟨rfl, rfl⟩]
      cases rowOf? r.kind k (s.rows r.kind) <;> rfl
    · rw [if_neg hk, if_neg fun hand => hk hand.2]
  · rw [rows_withRows_of_ne s hkind, if_neg fun hand => hkind hand.1]

/-- **One record is put over the row of its key**, and counted unless it is idle. -/
theorem contents_upsertOne (hs : IsSound s) (hr : r.IsValid) (hx : r.IsFinite) {n : Nat}
    (h : s.upsertOne r = .ok (n, t)) :
    ∃ key, s.contents.IsTarget r key ∧ t.contents = s.contents.put r key ∧
      n + s.contents.idle r key = 1 := by
  obtain ⟨coach, key, hc, hkey, rfl, hrows⟩ := rowOf?_upsertOne hs hr h
  obtain ⟨-, hiskey⟩ := isKeyFor_keyFor hr hc hkey
  refine ⟨key, isTarget_keyFor hs hr (Record.get_ne_nan hx _) hc hkey, ?_, ?_⟩
  · funext kind k
    rw [contents, hrows, Contents.put, contents]
    split
    · rename_i hk
      obtain ⟨rfl, rfl⟩ := hk
      rw [Option.map_some]
      cases hrow : rowOf? r.kind k (s.rows r.kind) with
      | none =>
          rw [Option.getD_none, get_decode_writeRow hr hx hiskey (length_blank r.kind),
            get_decode_blank]
          rfl
      | some row =>
          have hmem := ((rowOf?_eq_some (hs.table r.kind)).1 hrow).1
          rw [Option.getD_some,
            get_decode_writeRow hr hx hiskey (hs.rows r.kind row hmem).length]
          rfl
    · rfl
  · rw [Contents.idle, hasKey_eq_isSome]
    cases hmore : setsMore r with
    | true =>
        rw [if_neg (by simp), if_neg]
        rintro ⟨hk, -, hentries⟩
        rw [(setsMore_eq_false_iff hc).2 ⟨hk, hentries⟩] at hmore
        cases hmore
    | false =>
        obtain ⟨hk, hentries⟩ := (setsMore_eq_false_iff hc).1 hmore
        have hsome : (s.contents .master key).isSome =
            (rowOf? r.kind key (s.rows r.kind)).isSome := by
          rw [contents, Option.isSome_map, hk]
        simp only [hk, hentries, hsome, true_and, and_true, Bool.not_false, Bool.and_true]
        split <;> rfl

/-- **Records put in one after the other are put over their rows one after the other.** -/
theorem overlays_upsertFrom (hs : IsSound s) {rs : List Record} (hr : ∀ r ∈ rs, r.IsValid)
    (hx : ∀ r ∈ rs, r.IsFinite) {count n : Nat} (h : s.upsertFrom count rs = .ok (n, t)) :
    ∃ idle, Overlays s.contents rs idle t.contents ∧ n + idle = count + rs.length := by
  induction rs generalizing s count with
  | nil =>
      simp only [upsertFrom, Except.ok.injEq, Prod.mk.injEq] at h
      obtain ⟨rfl, rfl⟩ := h
      exact ⟨0, .nil _, rfl⟩
  | cons r rs ih =>
      obtain ⟨hr, hrs⟩ := List.forall_mem_cons.1 hr
      obtain ⟨hx, hxs⟩ := List.forall_mem_cons.1 hx
      rw [upsertFrom] at h
      split at h
      · rename_i m u hu
        obtain ⟨key, hkey, hput, hcount⟩ := contents_upsertOne hs hr hx hu
        obtain ⟨idle, hover, hsum⟩ := ih (isSound_upsertOne hs hr hu) hrs hxs h
        refine ⟨s.contents.idle r key + idle, .cons hkey (hput ▸ hover), ?_⟩
        rw [List.length_cons]
        omega
      · cases h

/-- No row is lost, and the coaches of the master records that are put in have rows. -/
theorem knows_upsertFrom (hs : IsSound s) {rs : List Record} (hr : ∀ r ∈ rs, r.IsValid)
    {count n : Nat} (h : s.upsertFrom count rs = .ok (n, t)) {coach : String}
    (hc : s.knows coach = true ∨ ∃ r ∈ rs, r.kind = .master ∧ r.identity? = some coach) :
    t.knows coach = true := by
  induction rs generalizing s count with
  | nil =>
      simp only [upsertFrom, Except.ok.injEq, Prod.mk.injEq] at h
      rw [← h.2]
      rcases hc with hc | ⟨r, hr, -⟩
      · exact hc
      · cases hr
  | cons r rs ih =>
      obtain ⟨hr, hrs⟩ := List.forall_mem_cons.1 hr
      rw [upsertFrom] at h
      split at h
      · rename_i m u hu
        have hsound := isSound_upsertOne hs hr hu
        obtain ⟨coach', key, hid, hkey, -, hrows⟩ := rowOf?_upsertOne hs hr hu
        refine ih hsound hrs h ?_
        rw [knows_eq_isSome hsound, hrows]
        rw [knows_eq_isSome hs] at hc
        rcases hc with hc | ⟨r', hr', hkind, hid'⟩
        · left
          split
          · rfl
          · exact hc
        · rcases List.mem_cons.1 hr' with rfl | hr'
          · -- The record goes to the row of its coach.
            left
            obtain rfl : .text coach = key := by
              rw [keyFor, hkind] at hkey
              dsimp only at hkey
              rw [(get_identity hr hid').1] at hkey
              exact Option.some.inj hkey
            rw [if_pos ⟨hkind.symm, rfl⟩]
            rfl
          · exact .inr ⟨r', hr', hkind, hid'⟩
      · cases h

/-- Putting records in leaves the audit log and the version alone. -/
theorem audit_upsertFrom {rs : List Record} {count n : Nat}
    (h : s.upsertFrom count rs = .ok (n, t)) : t.audit = s.audit ∧ t.version = s.version := by
  induction rs generalizing s count with
  | nil =>
      simp only [upsertFrom, Except.ok.injEq, Prod.mk.injEq] at h
      rw [← h.2]
      exact ⟨rfl, rfl⟩
  | cons r rs ih =>
      rw [upsertFrom] at h
      split at h
      · rename_i m u hu
        obtain ⟨-, key, -, -, -, rfl⟩ := upsertOne_ok hu
        obtain ⟨haudit, hversion⟩ := ih h
        rw [haudit, hversion]
        cases r.kind <;> cases key <;> exact ⟨rfl, rfl⟩
      · cases h

/-! ### Reading back -/

/-- The values are those of a row of one of the coaches. -/
def IsOfCoach (coaches : List String) (values : String → Value) : Prop :=
  ∃ t ∈ coaches, values CoachLedger.identityField = .text t

/-- What is read from a store is what it holds: the records of the rows of the coaches, each of
them once if no coach is given twice. -/
structure ReadsAs (s : Store) (c : Contents) : Prop where
  mem : ∀ kind coaches r, r ∈ s.get kind coaches ↔
    ∃ key values, c kind key = some values ∧ IsOfCoach coaches values ∧
      r = .ofValues kind values
  once : ∀ kind coaches, coaches.Nodup → ∃ keys : List Cell, keys.Nodup ∧
    (∀ key, key ∈ keys ↔ ∃ values, c kind key = some values ∧ IsOfCoach coaches values) ∧
    (s.get kind coaches).Perm (keys.filterMap fun key => (c kind key).map (.ofValues kind))

/-- The record of a row has no more than the values of the row. -/
theorem decode_eq_ofValues (kind : RecordKind) (row : Cells) :
    decode kind row = .ofValues kind (decode kind row).get := by
  refine Record.eq_of_slots rfl fun i => ?_
  rw [Record.ofValues, List.getElem?_map]
  by_cases hi : i < kind.fields.length
  · have hslot := slots_decode kind row i
    rw [List.getElem?_eq_getElem hi, Option.map_some] at hslot ⊢
    have hget : (decode kind row).get kind.fields[i].name =
        (slotOf kind.fields[i].kind (row[i]?.getD .null)).getD .null := by
      rw [Record.get, Record.slot?_eq (r := decode kind row) (kind.index?_names hi), hslot]
      rfl
    rw [hslot, hget, slotOf]
    cases (row[i]?.getD Cell.null).toValue kind.fields[i].kind <;> rfl
  · rw [slots_decode, List.getElem?_eq_none (Nat.le_of_not_lt hi)]
    rfl

theorem isOfCoach_decode {row : Cells} (h : IsRow kind row) (coaches : List String) :
    IsOfCoach coaches (decode kind row).get ↔ isOneOf kind coaches row = true := by
  obtain ⟨t, ht, -⟩ := h.coach
  rw [isOneOf_iff ht, IsOfCoach, get_identity_decode ht]
  constructor
  · rintro ⟨u, hu, heq⟩
    rwa [Value.text.inj heq]
  · intro hmem
    exact ⟨t, hmem, rfl⟩

theorem contents_eq_some (hs : IsSound s) {key : Cell} {values : String → Value} :
    s.contents kind key = some values ↔
      ∃ row ∈ s.rows kind, keyOf kind row = key ∧ (decode kind row).get = values := by
  rw [contents, Option.map_eq_some_iff]
  constructor
  · rintro ⟨row, hrow, rfl⟩
    obtain ⟨hmem, hkey⟩ := (rowOf?_eq_some (hs.table kind)).1 hrow
    exact ⟨row, hmem, hkey, rfl⟩
  · rintro ⟨row, hmem, hkey, rfl⟩
    exact ⟨row, (rowOf?_eq_some (hs.table kind)).2 ⟨hmem, hkey⟩, rfl⟩

/-- The rows of the coaches are read, in whatever pieces. -/
theorem mem_flatMap_rowsOf {coaches : List String} {row : Cells} :
    row ∈ (chunks maxBound coaches).flatMap (rowsOf kind (s.rows kind)) ↔
      row ∈ s.rows kind ∧ isOneOf kind coaches row = true := by
  have hflat : (chunks maxBound coaches).flatten = coaches := flatten_chunks (by decide) coaches
  rw [List.mem_flatMap, ← congrArg (isOneOf kind · row) hflat, isOneOf_flatten, List.any_eq_true]
  simp only [rowsOf, List.mem_mergeSort, List.mem_filter]
  constructor
  · rintro ⟨cs, hcs, hrow, hof⟩
    exact ⟨hrow, cs, hcs, hof⟩
  · rintro ⟨hrow, cs, hcs, hof⟩
    exact ⟨cs, hcs, hrow, hof⟩

theorem mem_get {coaches : List String} :
    r ∈ s.get kind coaches ↔
      ∃ row ∈ s.rows kind, isOneOf kind coaches row = true ∧ decode kind row = r := by
  rw [get, List.mem_mergeSort, List.mem_map]
  simp only [mem_flatMap_rowsOf, and_assoc]

/-- **What is read from a store is what it holds.** -/
theorem readsAs_contents (hs : IsSound s) : ReadsAs s s.contents := by
  refine ⟨?_, ?_⟩
  · intro kind coaches r
    rw [mem_get]
    constructor
    · rintro ⟨row, hrow, hof, rfl⟩
      exact ⟨_, _, (contents_eq_some hs).2 ⟨row, hrow, rfl, rfl⟩,
        (isOfCoach_decode (hs.rows kind row hrow) coaches).2 hof, decode_eq_ofValues kind row⟩
    · rintro ⟨key, values, hvalues, hof, rfl⟩
      obtain ⟨row, hrow, -, rfl⟩ := (contents_eq_some hs).1 hvalues
      exact ⟨row, hrow, (isOfCoach_decode (hs.rows kind row hrow) coaches).1 hof,
        decode_eq_ofValues kind row⟩
  · intro kind coaches hd
    refine ⟨((s.rows kind).filter (isOneOf kind coaches)).map (keyOf kind), ?_, ?_, ?_⟩
    · exact (List.filter_sublist.map _).nodup (nodup_keys (hs.table kind))
    · intro key
      rw [List.mem_map]
      constructor
      · rintro ⟨row, hrow, rfl⟩
        obtain ⟨hrow, hof⟩ := List.mem_filter.1 hrow
        exact ⟨_, (contents_eq_some hs).2 ⟨row, hrow, rfl, rfl⟩,
          (isOfCoach_decode (hs.rows kind row hrow) coaches).2 hof⟩
      · rintro ⟨values, hvalues, hof⟩
        obtain ⟨row, hrow, rfl, rfl⟩ := (contents_eq_some hs).1 hvalues
        exact ⟨row, List.mem_filter.2
          ⟨hrow, (isOfCoach_decode (hs.rows kind row hrow) coaches).1 hof⟩, rfl⟩
    · refine (perm_get (hs.rows kind) hd).trans (.of_eq ?_)
      rw [filter_isOf_records (hs.rows kind), List.filterMap_map, ← List.filterMap_eq_map]
      refine List.filterMap_congr fun row hrow => ?_
      have hrow := List.mem_of_mem_filter hrow
      rw [Function.comp_apply, Function.comp_apply,
        (contents_eq_some hs).2 ⟨row, hrow, rfl, rfl⟩, Option.map_some, ← decode_eq_ofValues]

/-- The number of a history record is read as the number next to it, which is itself exactly if it
is the value of a number. -/
def ReadsNumbers (c : Contents) : Prop :=
  ∀ key values, c .history key = some values → ∃ i x, key = .integer i ∧
    values RecordKind.history.keyField = .number x ∧ x = .ofInt i ∧
    (x.integer? = some i ↔ Binary64.IsExact i)

theorem readsNumbers_contents (hs : IsSound s) : ReadsNumbers s.contents := by
  intro key values hvalues
  obtain ⟨row, hrow, rfl, rfl⟩ := (contents_eq_some hs).1 hvalues
  obtain ⟨i, hi⟩ := (hs.table .history).keys row hrow
  have hcell : cellAt .history row RecordKind.history.keyField = .integer i := hi
  refine ⟨i, .ofInt i, hi, ?_, rfl, Binary64.integer?_ofInt_iff⟩
  rw [get_decode (f := ⟨"id", .number⟩) row (by decide), hcell]
  rfl

/-! ### The overlay -/

/-- **Putting records in is an exact overlay**, and what is read afterwards is what the store holds.
The number of a history record is read exactly unless it is not the value of a number. -/
theorem upsert_overlays (hs : s.Reachable) {rs : List Record} (hr : ∀ r ∈ rs, r.IsValid)
    (hx : ∀ r ∈ rs, r.IsFinite) {n : Nat} (h : s.upsert rs = .ok (n, t)) :
    (∃ idle, Overlays s.contents rs idle t.contents ∧ n + idle = rs.length) ∧
      (t.audit = s.audit ∧ t.version = s.version) ∧ ReadsAs t t.contents ∧
      ReadsNumbers t.contents := by
  have hsound := isSound_of_reachable hs
  have hsound' := isSound_upsertFrom hsound hr h
  obtain ⟨idle, hover, hsum⟩ := overlays_upsertFrom hsound hr hx h
  exact ⟨⟨idle, hover, by rw [hsum, Nat.zero_add]⟩, audit_upsertFrom h, readsAs_contents hsound',
    readsNumbers_contents hsound'⟩

/-! ### A coach and its history -/

theorem isFinite_recordOf {column : String} (hhas : kind.has column = true) {v : Value}
    (hv : ∀ x, v = .number x → x.isFinite = true) : (recordOf kind column v).IsFinite := by
  refine Record.isFinite_put (Record.isFinite_put (Record.isFinite_empty kind) ?_ ?_) ?_ hv
  · exact Option.isSome_iff_exists.2 ⟨_, field?_identity kind⟩
  · exact fun x h => by cases h
  · rw [Record.kind_put]
    exact hhas

/-- One history record, with the last number up to which all integers are numbers. -/
def lastExactRecords : List Record :=
  [recordOf .history "id" (.number (.ofInt 9007199254740992))]

/-- A history record without a number. -/
def lateRecord : Record :=
  recordOf .history "remarks" (.text "late")

theorem isValid_lateRecord : lateRecord.IsValid :=
  isValid_recordOf (f := ⟨"remarks", .text⟩) (by decide) rfl

theorem isFinite_lateRecord : lateRecord.IsFinite :=
  isFinite_recordOf (by decide) fun _ h => by cases h

theorem reachable_lastExactRecords : (filled lastExactRecords).Reachable :=
  reachable_recordOf (f := ⟨"id", .number⟩) (by decide) rfl (by decide +kernel)

/-- A history record is given the next number. -/
theorem upsert_overlays_late :
    (filled lastExactRecords).Reachable ∧ lateRecord.IsValid ∧ lateRecord.IsFinite ∧
      ∃ n t idle, (filled lastExactRecords).upsert [lateRecord] = .ok (n, t) ∧
        Overlays (filled lastExactRecords).contents [lateRecord] idle t.contents ∧
        n + idle = 1 ∧ ReadsAs t t.contents := by
  refine ⟨reachable_lastExactRecords, isValid_lateRecord, isFinite_lateRecord, ?_⟩
  cases h : (filled lastExactRecords).upsert [lateRecord] with
  | error e =>
      have hok : ((filled lastExactRecords).upsert [lateRecord]).isOk = true := by decide +kernel
      rw [h] at hok
      cases hok
  | ok p =>
      obtain ⟨⟨idle, hover, hsum⟩, -, hreads, -⟩ :=
        upsert_overlays reachable_lastExactRecords (List.forall_mem_singleton.2 isValid_lateRecord)
          (List.forall_mem_singleton.2 isFinite_lateRecord) h
      exact ⟨p.1, p.2, idle, rfl, hover, hsum, hreads⟩

/-- **The next number is not read as itself**, but as the number of the record before. -/
theorem not_readsNumbers_late :
    (filled lastExactRecords).Reachable ∧ lateRecord.IsValid ∧ lateRecord.IsFinite ∧
      ∃ n t, (filled lastExactRecords).upsert [lateRecord] = .ok (n, t) ∧
        ∃ values, t.contents .history (.integer 9007199254740993) = some values ∧
          values "id" = .number (.ofInt 9007199254740992) ∧
          (Binary64.ofInt 9007199254740992).integer? = some 9007199254740992 := by
  refine ⟨reachable_lastExactRecords, isValid_lateRecord, isFinite_lateRecord, ?_⟩
  have hread : ((filled lastExactRecords).upsert [lateRecord]).toOption.map (fun p =>
      (p.2.contents .history (.integer 9007199254740993)).map fun values => values "id") =
      some (some (.number (.ofInt 9007199254740992))) := by
    decide +kernel
  cases h : (filled lastExactRecords).upsert [lateRecord] with
  | error e =>
      rw [h] at hread
      cases hread
  | ok p =>
      rw [h] at hread
      obtain ⟨values, hvalues, hid⟩ := Option.map_eq_some_iff.1 (Option.some.inj hread)
      exact ⟨p.1, p.2, rfl, values, hvalues, hid, by decide +kernel⟩

end Store

end CoachLedger
