/-
**The histories of coaches side by side.**

The history records of a coach are compared in their order: the first one that the coach had before
with the first one that it has afterwards, and so on.  So an entry of the change may stand for two
records, namely if a record has been given to another coach, or has been put before those that a
coach had.  If neither has been done, each record that is new or has been changed is shown by
itself.

Main definitions:

* `CoachLedger.Ledger.ShowsSideBySide` — the histories of the coaches are shown side by side;
* `CoachLedger.Ledger.ShowsRow`, `CoachLedger.Ledger.ShowsRows` — each history record that is
  another one afterwards is shown by itself.

Main results:

* `CoachLedger.Ledger.change?_history` — the change between two snapshots, row by row;
* `CoachLedger.Ledger.showsSideBySide` — it is side by side for each coach;
* `CoachLedger.Ledger.showsRows` — **if the history is kept, each record is shown by itself**;
* `CoachLedger.Ledger.keepsHistory_of_showsRows` — **and only if it is kept**.
-/

import CoachLedger.Audit.Log
import CoachLedger.Proofs.Audit.Records
import CoachLedger.Proofs.Store.HistoryUpsert

set_option autoImplicit false

namespace CoachLedger.Ledger

open CoachLedger.Audit (coachFragment entryOfRecords hasKey sideBySide)
open CoachLedger.Store (Cells KeepsHistory coachOf numberOf)

/-! ### What is shown -/

/-- The entry of a pair of history rows. -/
def entryOfRows (p : Option Cells × Option Cells) : Option Audit.Change :=
  entryOfRecords (p.1.map (Store.decode .history), p.2.map (Store.decode .history))

/-- The pairs of history rows of some coaches that are compared. -/
def historyPairs (s t : Store) (coaches : List String) : List (Option Cells × Option Cells) :=
  Audit.pairUp (coachOf .history) (s.rowsGot .history coaches) (t.rowsGot .history coaches)

/-- An audit row shows these entries: the sides of all of them, or nothing if there are none. -/
structure ShowsEntries (row : Audit.Row) (entries : List Audit.Change) : Prop where
  old : row.oldValues = Audit.arrayOf? (entries.map Audit.Change.old)
  new : row.newValues = Audit.arrayOf? (entries.map Audit.Change.new)

/-- An audit row shows the histories of some coaches, those of each coach side by side. -/
def ShowsSideBySide (s t : Store) (coaches : List String) (row : Audit.Row) : Prop :=
  ∃ pairs : List (Option Cells × Option Cells),
    (∀ p ∈ pairs, ∃ c ∈ coaches, hasKey (coachOf .history) (.text c) p = true) ∧
    (∀ c ∈ coaches, pairs.filter (hasKey (coachOf .history) (.text c)) =
      sideBySide (s.historyOf c) (t.historyOf c)) ∧
    ShowsEntries row (pairs.filterMap entryOfRows)

/-- The entry shows what has become of the history record of a number: the whole record beside null
if it is new, or else the fields whose values are other ones, as they were and as they are. -/
structure ShowsRow (s t : Store) (i : Int) (e : Audit.Change) : Prop where
  added : s.historyRecord? i = none →
    ∃ c r, t.historyRecord? i = some r ∧ r.get CoachLedger.identityField = .text c ∧
      e = ⟨.null, coachFragment c r.members⟩
  changed : ∀ r, s.historyRecord? i = some r →
    ∃ (c : String) (r' : Record) (names : List String), t.historyRecord? i = some r' ∧
      r'.get CoachLedger.identityField = .text c ∧ names.Nodup ∧
      (∀ n, n ∈ names ↔ r.get n ≠ r'.get n) ∧
      e = ⟨coachFragment c (names.map fun n => (n, (r.get n).toJson)),
        coachFragment c (names.map fun n => (n, (r'.get n).toJson))⟩

/-- An audit row shows, each by itself and once, the history records that are new or have a value
that is another one. -/
def ShowsRows (s t : Store) (row : Audit.Row) : Prop :=
  ∃ (ids : List Int) (entry : Int → Audit.Change), ids.Nodup ∧
    (∀ i, i ∈ ids ↔ s.historyRecord? i ≠ t.historyRecord? i) ∧
    (∀ i ∈ ids, ShowsRow s t i (entry i)) ∧ ShowsEntries row (ids.map entry)

section

variable {s t : Store} {coaches : List String} {row : Cells} {i : Int}

/-- For one coach, the two histories are shown side by side. -/
theorem ShowsSideBySide.of_singleton {c : String} {row : Audit.Row}
    (h : ShowsSideBySide s t [c] row) :
    ShowsEntries row ((sideBySide (s.historyOf c) (t.historyOf c)).filterMap entryOfRows) := by
  obtain ⟨pairs, hkeys, hside, hrow⟩ := h
  have hall : pairs.filter (hasKey (coachOf .history) (.text c)) = pairs :=
    List.filter_eq_self.2 fun p hp => by
      obtain ⟨d, hd, hkey⟩ := hkeys p hp
      rwa [List.mem_singleton.1 hd] at hkey
  rwa [← hside c (List.mem_singleton_self c), hall]

/-! ### The entry of a number -/

/-- The entry of the history records of a number. -/
def rowChange? (s t : Store) (i : Int) : Option Audit.Change :=
  entryOfRecords (s.historyRecord? i, t.historyRecord? i)

/-- The entry of a number shows what has become of the record. -/
theorem showsRow_of_rowChange? (hs : Store.IsSound s) (ht : Store.IsSound t) {r' : Record}
    (hr' : t.historyRecord? i = some r')
    {e : Audit.Change} (he : rowChange? s t i = some e) : ShowsRow s t i e := by
  obtain ⟨c, hcoach⟩ := Store.hasCoach_of_historyRecord? ht hr'
  rw [rowChange?, hr'] at he
  refine ⟨fun hnone => ⟨c, r', hr', hcoach, ?_⟩, fun r hr => ?_⟩
  · rw [hnone, Audit.entryOfRecords_none hcoach] at he
    exact (Option.some.inj he).symm
  · rw [hr] at he
    obtain ⟨names, hnodup, hmem, rfl⟩ := Audit.entryOfRecords_some hcoach he
    refine ⟨c, r', names, hr', hcoach, hnodup, fun n => ?_, rfl⟩
    rw [hmem, Ne, Store.toJson_get_inj hs ht hr hr']

/-- A number has an entry exactly if its record is another one afterwards. -/
theorem isSome_rowChange? (hs : Store.IsSound s) (ht : Store.IsSound t) {r' : Record}
    (hr' : t.historyRecord? i = some r') :
    (rowChange? s t i).isSome = true ↔ s.historyRecord? i ≠ t.historyRecord? i := by
  rw [Store.historyRecord?_ne_iff hr', rowChange?, hr', Audit.isSome_entryOfRecords]
  refine or_congr_right (exists_congr fun r => and_congr_right fun hr =>
    exists_congr fun name => ?_)
  rw [Ne, Store.toJson_get_inj hs ht hr hr']

/-! ### The change between two snapshots -/

/-- The rows that are read are those of the coaches. -/
theorem coach_of_mem_rowsGot (hs : Store.IsSound s) (h : row ∈ s.rowsGot .history coaches) :
    ∃ c ∈ coaches, coachOf .history row = .text c := by
  obtain ⟨hrow, hof⟩ := Store.mem_rowsGot.1 h
  obtain ⟨c, hc, -⟩ := (hs.rows .history row hrow).coach
  exact ⟨c, (Store.isOneOf_iff hc coaches).1 hof, hc⟩

theorem mem_rowsGot_of_coach {c : String} (hc : c ∈ coaches) (hrow : row ∈ s.rows .history)
    (hcoach : coachOf .history row = .text c) : row ∈ s.rowsGot .history coaches :=
  Store.mem_rowsGot.2 ⟨hrow, (Store.isOneOf_iff hcoach coaches).2 hc⟩

/-- Each number is read once. -/
theorem nodup_numbers_rowsGot (hs : Store.IsSound s) (hd : coaches.Nodup) :
    ((s.rowsGot .history coaches).map numberOf).Nodup := by
  have hrows : ((s.rows .history).map numberOf).Nodup := by
    rw [List.Nodup, List.pairwise_map]
    exact (Store.pairwise_numberOf hs).imp fun hab => Int.ne_of_lt hab
  exact ((Store.rowsGot_perm hd).map numberOf).nodup_iff.2
    ((List.filter_sublist.map numberOf).nodup hrows)

section

variable (hs : Store.IsSound s) (ht : Store.IsSound t) (hd : coaches.Nodup)
include hs ht hd

/-- **The change between two snapshots, row by row.** -/
theorem change?_history {o : Audit.Options} (ho : o.identityField = CoachLedger.identityField)
    (halign : o.alignment = .byIdentity) :
    Audit.change? o (Record.listToJson (s.get .history coaches))
        (Record.listToJson (t.get .history coaches)) =
      Audit.ofEntries? ((historyPairs s t coaches).filterMap entryOfRows) := by
  have hbefore : ∀ r ∈ s.get .history coaches, r.kind = .history ∧ r.HasCoach :=
    fun r hr => Store.hasCoach_of_mem_records hs (Store.mem_records_of_get hs hd hr)
  have hafter : ∀ r ∈ t.get .history coaches, r.kind = .history ∧ r.HasCoach :=
    fun r hr => Store.hasCoach_of_mem_records ht (Store.mem_records_of_get ht hd hr)
  have hpairs : Audit.pairUp
      (fun row => (Store.decode .history row).get CoachLedger.identityField)
      (s.rowsGot .history coaches) (t.rowsGot .history coaches) = historyPairs s t coaches := by
    refine Audit.pairUp_congr fun a ha b hb => ?_
    obtain ⟨c, -, hc⟩ := coach_of_mem_rowsGot hs ha
    obtain ⟨d, -, hd⟩ := coach_of_mem_rowsGot ht hb
    rw [Store.get_identity_decode hc, Store.get_identity_decode hd, hc, hd, Value.text.injEq,
      Sql.Cell.text.injEq]
  rw [Audit.change?_byIdentity ho hbefore hafter halign, Store.get_eq_map, Store.get_eq_map,
    Audit.pairUp_map, List.filterMap_map, hpairs]
  rfl

theorem showsEntries_of_change {o : Audit.Options}
    (ho : o.identityField = CoachLedger.identityField) (halign : o.alignment = .byIdentity)
    {row : Audit.Row}
    (hold : row.oldValues = (Audit.change? o (Record.listToJson (s.get .history coaches))
      (Record.listToJson (t.get .history coaches))).map Audit.Change.old)
    (hnew : row.newValues = (Audit.change? o (Record.listToJson (s.get .history coaches))
      (Record.listToJson (t.get .history coaches))).map Audit.Change.new) :
    ShowsEntries row ((historyPairs s t coaches).filterMap entryOfRows) := by
  rw [change?_history hs ht hd ho halign] at hold hnew
  exact ⟨hold.trans (Audit.map_ofEntries? _).1, hnew.trans (Audit.map_ofEntries? _).2⟩

/-- **Row by row is side by side for each coach.** -/
theorem showsSideBySide {row : Audit.Row}
    (hrow : ShowsEntries row ((historyPairs s t coaches).filterMap entryOfRows)) :
    ShowsSideBySide s t coaches row := by
  refine ⟨_, fun p hp => ?_, fun c hc => ?_, hrow⟩
  · obtain ⟨k, hk⟩ := Audit.exists_hasKey hp
    obtain ⟨hbefore, hafter⟩ := Audit.mem_of_mem_pairUp hp
    -- The key is that of a row that was read before or afterwards.
    obtain ⟨a, ha, hak⟩ := (Option.any_eq_true _ _).1 hk
    obtain ⟨c, hc, hcoach⟩ : ∃ c ∈ coaches, coachOf .history a = .text c := by
      rcases Option.or_eq_some_iff.1 ha with ha | ⟨-, ha⟩
      · exact coach_of_mem_rowsGot ht (hafter a ha)
      · exact coach_of_mem_rowsGot hs (hbefore a ha)
    refine ⟨c, hc, ?_⟩
    rwa [← hcoach, beq_iff_eq.1 hak]
  · rw [historyPairs, Audit.filter_pairUp]
    exact congrArg₂ sideBySide (Store.filter_rowsGot hs hd hc) (Store.filter_rowsGot ht hd hc)

/-! ### Histories that are kept -/

variable (hkeeps : KeepsHistory s t)
include hkeeps

/-- **Each row is paired with itself**, if the history is kept. -/
theorem historyPairs_eq :
    historyPairs s t coaches =
      (t.rowsGot .history coaches).map
        (Audit.withOld numberOf (s.rowsGot .history coaches)) := by
  refine Audit.pairUp_eq_map (nodup_numbers_rowsGot ht hd) fun k => ?_
  by_cases hk : ∃ c ∈ coaches, k = .text c
  · obtain ⟨c, hc, rfl⟩ := hk
    have hfilter := Store.numbers_isPrefix hs ht hkeeps c
    rw [← Store.filter_rowsGot hs hd hc, ← Store.filter_rowsGot ht hd hc] at hfilter
    exact hfilter
  · -- No row has another key.
    have hnil : ((s.rowsGot .history coaches).filter fun a => coachOf .history a == k) = [] := by
      refine List.filter_eq_nil_iff.2 fun a ha hak => hk ?_
      obtain ⟨c, hc, hcoach⟩ := coach_of_mem_rowsGot hs ha
      exact ⟨c, hc, (beq_iff_eq.1 hak).symm.trans hcoach⟩
    rw [hnil]
    exact List.nil_prefix

omit hd in
/-- The row that is paired with one of a coach is the one of its number. -/
theorem find?_rowsGot (hrow : row ∈ t.rowsGot .history coaches) :
    ((s.rowsGot .history coaches).find? fun a => numberOf a == numberOf row) =
      s.historyRow? (numberOf row) := by
  cases hold : s.historyRow? (numberOf row) with
  | none =>
      refine List.find?_eq_none.2 fun a ha heq => ?_
      have hfound := Store.historyRow?_numberOf hs (Store.mem_rowsGot.1 ha).1
      rw [beq_iff_eq.1 heq, hold] at hfound
      cases hfound
  | some a =>
      obtain ⟨hmem, hnumber⟩ := (Store.historyRow?_eq_some hs).1 hold
      -- The coach has kept the row, so that it has been read before.
      obtain ⟨c, hc, hcoach⟩ := coach_of_mem_rowsGot ht hrow
      have hnow := Store.hasNumber_numberOf ht (Store.mem_rowsGot.1 hrow).1 hcoach
      obtain ⟨d, hd', -⟩ := (hs.rows .history a hmem).coach
      have hthen : s.HasNumber d (numberOf row) := (Store.hasNumber_iff hs).2 ⟨a, hold, hd'⟩
      obtain rfl := (hkeeps.kept d _ hthen).unique hnow
      have hgot := mem_rowsGot_of_coach hc hmem hd'
      cases hfind : (s.rowsGot .history coaches).find? fun b => numberOf b == numberOf row with
      | none => exact absurd (beq_iff_eq.2 hnumber) (List.find?_eq_none.1 hfind a hgot)
      | some b =>
          have hfound := List.find?_some hfind
          rw [← hold, ← beq_iff_eq.1 hfound, Store.historyRow?_numberOf hs
            (Store.mem_rowsGot.1 (List.mem_of_find?_eq_some hfind)).1]

/-- **The change between two snapshots is that of each number**, if the history is kept. -/
theorem historyEntries_eq :
    (historyPairs s t coaches).filterMap entryOfRows =
      ((t.rowsGot .history coaches).map numberOf).filterMap (rowChange? s t) := by
  rw [historyPairs_eq hs ht hd hkeeps, List.filterMap_map, List.filterMap_map]
  refine List.filterMap_congr fun row hrow => ?_
  have hnow := Store.historyRow?_numberOf ht (Store.mem_rowsGot.1 hrow).1
  rw [Function.comp_apply, Function.comp_apply, Audit.withOld, find?_rowsGot hs ht hkeeps hrow,
    rowChange?, Store.historyRecord?, Store.historyRecord?, hnow]
  rfl

/-- **Each record that is new or has been changed is shown by itself**, if the history is kept and
only the coaches have other records. -/
theorem showsRows
    (hother : ∀ i, t.historyRow? i = s.historyRow? i ∨ ∃ c ∈ coaches, t.HasNumber c i)
    {row : Audit.Row}
    (hrow : ShowsEntries row ((historyPairs s t coaches).filterMap entryOfRows)) :
    ShowsRows s t row := by
  rw [historyEntries_eq hs ht hd hkeeps] at hrow
  obtain ⟨entry, hentry, hentries⟩ := Audit.exists_entry (rowChange? s t)
    ((t.rowsGot .history coaches).map numberOf)
  have hrecord : ∀ i ∈ (t.rowsGot .history coaches).map numberOf,
      ∃ r, t.historyRecord? i = some r := by
    intro i hi
    obtain ⟨row, hrow, rfl⟩ := List.mem_map.1 hi
    have hnow := Store.historyRow?_numberOf ht (Store.mem_rowsGot.1 hrow).1
    exact ⟨_, by rw [Store.historyRecord?, hnow]; rfl⟩
  rw [hentries] at hrow
  refine ⟨_, entry, (nodup_numbers_rowsGot ht hd).filter _, fun i => ?_, fun i hi => ?_, hrow⟩
  · rw [List.mem_filter]
    constructor
    · rintro ⟨hi, hsome⟩
      obtain ⟨r, hr⟩ := hrecord i hi
      exact (isSome_rowChange? hs ht hr).1 hsome
    · intro hne
      have hi : i ∈ (t.rowsGot .history coaches).map numberOf := by
        rcases hother i with hsame | ⟨c, hc, hnumber⟩
        · exact absurd (by rw [Store.historyRecord?, Store.historyRecord?, hsame]) hne
        · obtain ⟨row, hrow, hcoach⟩ := (Store.hasNumber_iff ht).1 hnumber
          obtain ⟨hmem, rfl⟩ := (Store.historyRow?_eq_some ht).1 hrow
          exact List.mem_map_of_mem (mem_rowsGot_of_coach hc hmem hcoach)
      obtain ⟨r, hr⟩ := hrecord i hi
      exact ⟨hi, (isSome_rowChange? hs ht hr).2 hne⟩
  · obtain ⟨hi, hsome⟩ := List.mem_filter.1 hi
    obtain ⟨r, hr⟩ := hrecord i hi
    obtain ⟨e, he⟩ := Option.isSome_iff_exists.1 hsome
    rw [hentry i e he]
    exact showsRow_of_rowChange? hs ht hr he

end

/-! ### Histories that are not kept -/

/-- A pair is one of a row beside what the row of its number was. -/
def IsOwn (s : Store) (p : Option Cells × Option Cells) : Prop :=
  ∃ b, p = (s.historyRow? (numberOf b), some b)

theorem ShowsEntries.unique {row : Audit.Row} {es fs : List Audit.Change}
    (h : ShowsEntries row es) (h' : ShowsEntries row fs) : es = fs := by
  have hold := Audit.arrayOf?_inj (h.old.symm.trans h'.old)
  have hnew := Audit.arrayOf?_inj (h.new.symm.trans h'.new)
  have hpair (gs : List Audit.Change) :
      gs = ((gs.map Audit.Change.old).zip (gs.map Audit.Change.new)).map fun p => ⟨p.1, p.2⟩ := by
    rw [List.zip_map', List.map_map]
    exact (List.map_id gs).symm
  rw [hpair es, hpair fs, hold, hnew]

/-- An entry of a number has a new side, and no old side only if the record is new. -/
theorem ShowsRow.sides {e : Audit.Change} (h : ShowsRow s t i e) :
    e.new ≠ .null ∧ (e.old = .null ↔ s.historyRecord? i = none) := by
  cases hr : s.historyRecord? i with
  | none =>
      obtain ⟨c, r, -, -, rfl⟩ := h.added hr
      exact ⟨fun h => (by cases h), iff_of_true rfl rfl⟩
  | some r =>
      obtain ⟨c, r', names, -, -, -, -, rfl⟩ := h.changed r hr
      exact ⟨fun h => (by cases h), iff_of_false (fun h => by cases h) fun h => by cases h⟩

section

variable (hs : Store.IsSound s) (ht : Store.IsSound t)
  (hexact : ∀ c i, s.HasNumber c i → Binary64.IsExact i)
  (hexact' : ∀ c i, t.HasNumber c i → Binary64.IsExact i)
include hs ht hexact hexact'

/-- Rows whose numbers are written in the same way have the same number. -/
theorem numberOf_eq_of_toJson {a b : Cells} (ha : a ∈ s.rows .history) (hb : b ∈ t.rows .history)
    (h : ((Store.decode .history a).get RecordKind.history.keyField).toJson =
      ((Store.decode .history b).get RecordKind.history.keyField).toJson) :
    numberOf a = numberOf b := by
  have hnumber {u : Store} (hu : Store.IsSound u) {row : Cells} (hrow : row ∈ u.rows .history) :
      ∃ c, u.HasNumber c (numberOf row) := by
    obtain ⟨c, hc, -⟩ := (hu.rows .history row hrow).coach
    exact ⟨c, Store.hasNumber_numberOf hu hrow hc⟩
  obtain ⟨c, hc⟩ := hnumber hs ha
  obtain ⟨d, hd⟩ := hnumber ht hb
  rw [Store.get_keyField_history hs ha, Store.get_keyField_history ht hb] at h
  exact Value.numberToJson_ofInt_inj (hexact c _ hc) (hexact' d _ hd) h

/-- **A pair whose entry is one of a number is a row beside itself.** -/
theorem isOwn_of_showsRow {p : Option Cells × Option Cells} (hp : p ≠ (none, none))
    (hold : ∀ a ∈ p.1, a ∈ s.rows .history) (hnew : ∀ b ∈ p.2, b ∈ t.rows .history)
    (hshown : ∀ e, entryOfRows p = some e → ∃ i, ShowsRow s t i e) : IsOwn s p := by
  obtain ⟨_ | a, _ | b⟩ := p
  · exact absurd rfl hp
  · -- The entry of a new row shows its number, which no row had.
    obtain ⟨i, hi⟩ := hshown _ rfl
    have hnone := hi.sides.2.1 rfl
    obtain ⟨c, r, hr, -, he⟩ := hi.added hnone
    have hmembers : (Store.decode .history b).members = r.members :=
      (List.cons.inj (Json.object.inj (Audit.Change.mk.inj he).2)).2
    obtain ⟨row, hrow, rfl⟩ := Option.map_eq_some_iff.1 hr
    obtain ⟨hmem, rfl⟩ := (Store.historyRow?_eq_some ht).1 hrow
    have hnumber : numberOf row = numberOf b := by
      refine numberOf_eq_of_toJson ht ht hexact' hexact' hmem (hnew b rfl) ?_
      rw [← Record.valueOf_members, ← Record.valueOf_members, hmembers]
    exact ⟨b, by rw [← hnumber, Option.map_eq_none_iff.1 hnone]⟩
  · obtain ⟨i, hi⟩ := hshown _ rfl
    exact absurd rfl hi.sides.1
  · have hnumber : numberOf a = numberOf b := by
      refine numberOf_eq_of_toJson hs ht hexact hexact' (hold a rfl) (hnew b rfl) ?_
      by_contra hne
      -- The entry shows the numbers, which the entry of a number never does.
      have hmem := Record.mem_changedFields.2 hne
      have hentry : entryOfRows (some a, some b) = some _ := if_neg (List.ne_nil_of_mem hmem)
      obtain ⟨i, hi⟩ := hshown _ hentry
      cases hr : s.historyRecord? i with
      | none => cases hi.sides.2.2 hr
      | some r =>
          obtain ⟨c, r', names, hr', -, -, hnames, he⟩ := hi.changed r hr
          have hshowing := congrArg (List.map Prod.fst)
            (List.cons.inj (Json.object.inj (Audit.Change.mk.inj he).1)).2
          rw [Record.names_showing] at hshowing
          have hin : RecordKind.history.keyField ∈ names := by
            rw [← Record.names_showing r names]
            exact hshowing ▸ hmem
          refine (hnames _).1 hin ?_
          rw [Store.get_keyField_of_historyRecord? hs hr,
            Store.get_keyField_of_historyRecord? ht hr']
    exact ⟨b, by rw [← hnumber, Store.historyRow?_numberOf hs (hold a rfl)]⟩

/-- The histories of the coaches that are shown consist of rows beside themselves. -/
theorem isOwn_of_showsRows {row : Audit.Row} (hside : ShowsSideBySide s t coaches row)
    (hrows : ShowsRows s t row) {c : String} (hc : c ∈ coaches) :
    ∀ p ∈ sideBySide (s.historyOf c) (t.historyOf c), IsOwn s p := by
  obtain ⟨pairs, -, hpairs, hshown⟩ := hside
  obtain ⟨ids, entry, -, -, hentry, hshown'⟩ := hrows
  intro p hp
  obtain ⟨hold, hnew⟩ := Audit.mem_of_mem_sideBySide hp
  rw [← hpairs c hc] at hp
  obtain ⟨hp, hkey⟩ := List.mem_filter.1 hp
  refine isOwn_of_showsRow hs ht hexact hexact' (fun hnone => ?_)
    (fun a ha => (Store.mem_historyOf.1 (hold a ha)).1)
    (fun b hb => (Store.mem_historyOf.1 (hnew b hb)).1) fun e he => ?_
  · rw [hnone] at hkey
    cases hkey
  · have hmem : e ∈ pairs.filterMap entryOfRows := List.mem_filterMap.2 ⟨p, hp, he⟩
    rw [hshown.unique hshown'] at hmem
    obtain ⟨i, hi, rfl⟩ := List.mem_map.1 hmem
    exact ⟨i, hentry i hi⟩

end

/-- If rows stand beside themselves, the rows of before are the first ones. -/
theorem numbers_isPrefix_of_isOwn (hs : Store.IsSound s) {olds news : List Cells}
    (h : ∀ p ∈ sideBySide olds news, IsOwn s p) : olds.map numberOf <+: news.map numberOf := by
  induction olds generalizing news with
  | nil => exact List.nil_prefix
  | cons a olds ih =>
      cases news with
      | nil =>
          obtain ⟨b, hb⟩ := h (some a, none) (List.mem_cons_self ..)
          cases (Prod.mk.inj hb).2
      | cons b news =>
          rw [Audit.sideBySide_cons_cons] at h
          obtain ⟨hown, hrest⟩ := List.forall_mem_cons.1 h
          obtain ⟨b', hb⟩ := hown
          obtain ⟨ha, hb⟩ := Prod.mk.inj hb
          obtain rfl := Option.some.inj hb
          have hnumber := ((Store.historyRow?_eq_some hs).1 ha.symm).2
          rw [List.map_cons, List.map_cons, hnumber]
          exact (List.prefix_cons_inj _).2 (ih hrest)

/-- **The records are shown by themselves only if the history is kept**, provided that all numbers
are read exactly. -/
theorem keepsHistory_of_showsRows (hs : Store.IsSound s) (ht : Store.IsSound t)
    (hother : ∀ i, t.historyRow? i = s.historyRow? i ∨ ∃ c ∈ coaches, t.HasNumber c i)
    (hexact : ∀ c i, t.HasNumber c i → Binary64.IsExact i) {row : Audit.Row}
    (hside : ShowsSideBySide s t coaches row) (hrows : ShowsRows s t row) : KeepsHistory s t := by
  have hexact' : ∀ c i, s.HasNumber c i → Binary64.IsExact i := fun c i hi => by
    rcases hother i with hsame | ⟨d, -, hd⟩
    · exact hexact c i ((Store.HasNumber.congr hsame).2 hi)
    · exact hexact d i hd
  have hown {c : String} (hc : c ∈ coaches) :=
    isOwn_of_showsRows hs ht hexact' hexact hside hrows hc
  refine ⟨fun c i hi => ?_, fun c i hi => ?_⟩
  · rcases hother i with hsame | ⟨d, hd, hi'⟩
    · exact (Store.HasNumber.congr hsame).2 hi
    · -- Among the rows of the coach that has it now, the row stands beside what it was.
      obtain ⟨b, hb, hcoach⟩ := (Store.hasNumber_iff ht).1 hi'
      obtain ⟨hmem, rfl⟩ := (Store.historyRow?_eq_some ht).1 hb
      obtain ⟨a, ha, hcoach'⟩ := (Store.hasNumber_iff hs).1 hi
      have hnews : b ∈ (sideBySide (s.historyOf d) (t.historyOf d)).filterMap Prod.snd := by
        rw [Audit.sideBySide_eq_pairUp, Audit.filterMap_snd_pairUp]
        exact Store.mem_historyOf.2 ⟨hmem, hcoach⟩
      obtain ⟨p, hp, hpb⟩ := List.mem_filterMap.1 hnews
      obtain ⟨b', rfl⟩ := hown hd p hp
      obtain rfl := Option.some.inj hpb
      have hold := (Audit.mem_of_mem_sideBySide hp).1 a ha
      rw [(Store.mem_historyOf.1 hold).2, Sql.Cell.text.injEq] at hcoach'
      rwa [← hcoach']
  · rcases hother i with hsame | ⟨d, hd, hi'⟩
    · exact .inl ((Store.HasNumber.congr hsame).1 hi)
    · obtain rfl := hi'.unique hi
      obtain ⟨rest, hrest⟩ := numbers_isPrefix_of_isOwn hs (hown hd)
      have hsorted := Store.pairwise_numbers ht d
      rw [Store.hasNumber_iff_mem ht, ← hrest] at hi
      rw [← hrest] at hsorted
      rcases List.mem_append.1 hi with hi | hi
      · exact .inl ((Store.hasNumber_iff_mem hs).2 hi)
      · exact .inr fun j hj =>
          (List.pairwise_append.1 hsorted).2.2 j ((Store.hasNumber_iff_mem hs).1 hj) i hi

end

end CoachLedger.Ledger
