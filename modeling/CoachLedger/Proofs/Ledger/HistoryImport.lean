/-
**What the audit log shows of an import of history records.**

An import of history records shows the histories of its coaches side by side.  If the coaches keep
their history, each record that is new or has been changed is shown by itself, and only then.  They
keep it if each record of the import goes to a row that its coach has, or comes after all of them.

Main definitions:

* `CoachLedger.Ledger.ShowsHistory` — what the audit row of an import of history records shows.

Main results:

* `CoachLedger.Ledger.importItems_showsHistory` — **what an import of history records shows**.
-/

import CoachLedger.Proofs.Ledger.HistoryPairs
import CoachLedger.Proofs.Ledger.ImportSteps

set_option autoImplicit false

namespace CoachLedger.Ledger

open CoachLedger.Audit (sideBySide)
open CoachLedger.Store (KeepsHistory numberOf)

/-! ### What an import does -/

variable {l m : Ledger} {i : Import}

/-- What the audit row of an import of history records shows. -/
structure ShowsHistory (l : Ledger) (rs : List Record) (row : Audit.Row) (m : Ledger) : Prop where
  sideBySide : ShowsSideBySide l.store m.store (coachesOf rs) row
  /-- Each record is shown by itself if the history is kept. -/
  rows : KeepsHistory l.store m.store → ShowsRows l.store m.store row
  /-- It is so only then, provided that all numbers are read exactly. -/
  only : (∀ c i, m.store.HasNumber c i → Binary64.IsExact i) →
    ShowsRows l.store m.store row → KeepsHistory l.store m.store
  /-- The history is kept if the records follow it. -/
  keeps : (∀ r ∈ rs, l.store.FollowsHistory r) → KeepsHistory l.store m.store

/-- **What the audit row of an import of history records shows.** -/
theorem showsHistory_importAll (hs : l.store.Reachable)
    (ho : l.options.identityField = CoachLedger.identityField) (hkind : i.kind = .history)
    (hr : ∀ r ∈ i.records, r.IsValid ∧ r.kind = .history) {n : Nat} {row : Audit.Row}
    (h : l.importAll i = .ok ((n, row), m)) : ShowsHistory l i.records row m := by
  have hsound := Store.isSound_of_reachable hs
  have hd := nodup_coachesOf i.records
  obtain ⟨t, hupsert, hsound', hrows, hold, hnew⟩ :=
    shows_importAll hs (fun r hmem => (hr r hmem).1) h
  have hsame : ∀ j, m.store.historyRow? j = t.historyRow? j := fun j => by
    rw [Store.historyRow?, Store.historyRow?, hrows]
  have hnumber : ∀ c j, m.store.HasNumber c j ↔ t.HasNumber c j :=
    fun c j => Store.HasNumber.congr (hsame j)
  have hother : ∀ j, m.store.historyRow? j = l.store.historyRow? j ∨
      ∃ c ∈ coachesOf i.records, m.store.HasNumber c j := fun j => by
    rw [hsame]
    refine (Store.historyRow?_upsertFrom hsound hr hupsert j).imp_right ?_
    rintro ⟨r, hmem, c, hc, hj⟩
    exact ⟨c, mem_coachesOf.2 ⟨r, hmem, hc⟩, (hnumber c j).2 hj⟩
  rw [importSnapshot, importSnapshot, hkind] at hold hnew
  have hshown := showsEntries_of_change hsound hsound' hd
    (o := { l.options with alignment := .byIdentity }) ho rfl hold hnew
  have hside := showsSideBySide hsound hsound' hd hshown
  refine ⟨hside, fun hkeeps => showsRows hsound hsound' hd hkeeps hother hshown,
    fun hexact => keepsHistory_of_showsRows hsound hsound' hother hexact hside, fun hfollows => ?_⟩
  obtain ⟨hkept, hadded⟩ := Store.keepsHistory_upsertFrom hsound (.refl _) hr hfollows hupsert
  exact ⟨fun c j hj => (hnumber c j).2 (hkept c j hj),
    fun c j hj => hadded c j ((hnumber c j).1 hj)⟩

/-- **What an import of history records shows**, whichever statements the engine fails: the
histories of the coaches side by side.  Each record that is new or has been changed is shown by
itself if the history is kept, and only then.  It is kept if the records follow it. -/
theorem importItems_showsHistory (hs : l.store.Reachable)
    (ho : l.options.identityField = CoachLedger.identityField) {faults : List Bool}
    {actor source : String} {items : List Json} {n : Nat} {row : Audit.Row}
    (h : l.importItems faults .history actor source items = (.ok (n, row), m)) :
    ∃ rs, AreRecords .history items rs ∧ IsImported l ⟨.history, rs, actor, source⟩ n row m ∧
      ShowsHistory l rs row m := by
  rcases l.importItems_cases faults .history actor source items with
    ⟨e, himport, -⟩ | ⟨rs, n', row', m', himport, hrs, hall⟩
  · rw [himport] at h
    cases h
  · rw [himport] at h
    cases h
    exact ⟨rs, hrs, isImported_importAll hall, showsHistory_importAll hs ho rfl hrs.forall hall⟩

/-! ### A coach with one history record -/

/-- A history record with a number that leaves room before it. -/
def firstRecord : Record :=
  (Store.recordOf .history "id" (.number (.ofInt 5))).put "remarks" (.text "first")

/-- A ledger with this record. -/
def firstLedger : Ledger :=
  ⟨Store.filled [firstRecord], .standard, none⟩

/-- The record with another remark. -/
def againItem : Json :=
  .object [("id", .ofInt 5), ("coachno", .string "C1"), ("remarks", .string "again")]

/-- Another record of the coach. -/
def nextItem : Json :=
  .object [("coachno", .string "C1"), ("remarks", .string "next")]

/-- Another record of the coach, with a number before that of the first one. -/
def earlierItem : Json :=
  .object [("id", .ofInt 3), ("coachno", .string "C1"), ("remarks", .string "earlier")]

theorem isValid_firstRecord : firstRecord.IsValid := by
  have hnumbered : (Store.recordOf .history "id" (.number (.ofInt 5))).IsValid :=
    Store.isValid_recordOf (f := ⟨"id", .number⟩) (by decide) rfl
  have hfield : (Store.recordOf .history "id" (.number (.ofInt 5))).kind.field? "remarks" =
      some ⟨"remarks", .text⟩ := by
    rw [Store.recordOf, Record.kind_put, Record.kind_put]
    decide
  exact Record.isValid_put hnumbered hfield (Value.fits_of_kind? rfl)

theorem reachable_firstLedger : firstLedger.store.Reachable := by
  have hok : (Store.fresh.upsert [firstRecord]).isOk = true := by decide +kernel
  dsimp only [firstLedger]
  exact Store.reachable_filled (List.forall_mem_singleton.2 isValid_firstRecord) hok

/-- A record without a number follows every history. -/
theorem followsHistory_of_null {s : Store} {r : Record}
    (h : r.get RecordKind.history.keyField = .null) : s.FollowsHistory r := by
  intro x i hx
  rw [h] at hx
  cases hx

theorem followsHistory_again {r : Record} (h : Record.ofJson .history againItem = .ok r) :
    firstLedger.store.FollowsHistory r := by
  have hread : (Record.ofJson .history againItem).toOption.map (fun r =>
      (r.get RecordKind.history.keyField, r.identity?)) =
      some (.number (.ofInt 5), some "C1") := by decide +kernel
  have hfirst : (firstLedger.store.historyRecord? 5).map (fun r =>
      r.get CoachLedger.identityField) = some (.text "C1") := by decide +kernel
  rw [h] at hread
  obtain ⟨hid, hcoach⟩ := Prod.mk.inj (Option.some.inj hread)
  intro x i hx hi
  obtain rfl := Value.number.inj (hx.symm.trans hid)
  have hfive : (Binary64.ofInt 5).integer? = some 5 := by decide +kernel
  obtain rfl := Option.some.inj (hi.symm.trans hfive)
  exact ⟨"C1", hcoach, .inl (Option.map_eq_some_iff.1 hfirst)⟩

theorem followsHistory_next {r : Record} (h : Record.ofJson .history nextItem = .ok r) :
    firstLedger.store.FollowsHistory r := by
  have hread : (Record.ofJson .history nextItem).toOption.map (fun r =>
      r.get RecordKind.history.keyField) = some .null := by decide +kernel
  rw [h] at hread
  exact followsHistory_of_null (Option.some.inj hread)

/-- The changed record and the next one are shown by themselves. -/
theorem importItems_showsHistory_next :
    firstLedger.store.Reachable ∧
      firstLedger.options.identityField = CoachLedger.identityField ∧
      ∃ n row m, firstLedger.importItems [] .history "clerk" "next.json" [againItem, nextItem] =
        (.ok (n, row), m) ∧
        (∃ rs, AreRecords .history [againItem, nextItem] rs ∧
          IsImported firstLedger ⟨.history, rs, "clerk", "next.json"⟩ n row m ∧
          ShowsHistory firstLedger rs row m) ∧
        ShowsRows firstLedger.store m.store row := by
  refine ⟨reachable_firstLedger, rfl, ?_⟩
  have hok : (firstLedger.importItems [] .history "clerk" "next.json"
      [againItem, nextItem]).1.isOk = true := by decide +kernel
  cases himport : firstLedger.importItems [] .history "clerk" "next.json" [againItem, nextItem] with
  | mk x m =>
      rw [himport] at hok
      cases x with
      | error e => cases hok
      | ok p =>
          obtain ⟨rs, hrs, hdone, hshows⟩ :=
            importItems_showsHistory reachable_firstLedger rfl himport
          refine ⟨p.1, p.2, m, rfl, ⟨rs, hrs, hdone, hshows⟩, hshows.rows (hshows.keeps ?_)⟩
          obtain ⟨r, _, hr, hnext, rfl⟩ := List.forall₂_cons_left_iff.1 hrs
          obtain ⟨r', _, hr', hnil, rfl⟩ := List.forall₂_cons_left_iff.1 hnext
          obtain rfl := List.forall₂_nil_left_iff.1 hnil
          exact List.forall_mem_cons.2
            ⟨followsHistory_again hr, List.forall_mem_singleton.2 (followsHistory_next hr')⟩

theorem coachesOf_earlier {rs : List Record} (h : AreRecords .history [earlierItem] rs) :
    coachesOf rs = ["C1"] := by
  obtain ⟨r, _, hr, hnil, rfl⟩ := List.forall₂_cons_left_iff.1 h
  obtain rfl := List.forall₂_nil_left_iff.1 hnil
  have hread : (Record.ofJson .history earlierItem).toOption.map (fun r =>
      coachesOf [r]) = some ["C1"] := by decide +kernel
  rw [hr] at hread
  exact Option.some.inj hread

/-- The number in the first entry of a side. -/
def firstNumber? : Option Json → Option Int
  | some (.array (.object members :: _)) =>
      match Json.member? members "id" with
      | some (.number (.integer i)) => some i
      | _ => none
  | _ => none

/-- Only a record that was there has an old side with a number. -/
theorem isSome_historyRecord?_of_firstNumber? {s t : Store} {entry : Int → Audit.Change}
    {ids : List Int} (hshows : ∀ i ∈ ids, ShowsRow s t i (entry i)) {number : Int}
    (h : firstNumber? (Audit.arrayOf? ((ids.map entry).map Audit.Change.old)) = some number) :
    ∃ i ∈ ids, ∃ r, s.historyRecord? i = some r := by
  cases ids with
  | nil => cases h
  | cons i ids =>
      refine ⟨i, List.mem_cons_self .., ?_⟩
      cases hr : s.historyRecord? i with
      | some r => exact ⟨r, rfl⟩
      | none =>
          obtain ⟨c, r, -, -, he⟩ := (hshows i (List.mem_cons_self ..)).added hr
          rw [List.map_cons, List.map_cons, he] at h
          cases h

/-- **The first record is compared with the one before it**, and shown although it is unchanged. -/
theorem not_showsRows_earlier :
    firstLedger.store.Reachable ∧
      firstLedger.options.identityField = CoachLedger.identityField ∧
      ∃ n row m, firstLedger.importItems [] .history "clerk" "earlier.json" [earlierItem] =
        (.ok (n, row), m) ∧ firstNumber? row.oldValues = some 5 ∧
        firstNumber? row.newValues = some 3 ∧
        m.store.historyRecord? 5 = firstLedger.store.historyRecord? 5 ∧
        ¬ShowsRows firstLedger.store m.store row := by
  refine ⟨reachable_firstLedger, rfl, ?_⟩
  have hok : (firstLedger.importItems [] .history "clerk" "earlier.json"
      [earlierItem]).1.isOk = true := by decide +kernel
  have hnumbers : (firstLedger.store.rows .history).map numberOf = [5] := by decide +kernel
  have hsame : (firstLedger.importItems [] .history "clerk" "earlier.json"
      [earlierItem]).2.store.historyRecord? 5 = firstLedger.store.historyRecord? 5 := by
    decide +kernel
  have hold : firstNumber? (Audit.arrayOf? (((sideBySide (firstLedger.store.historyOf "C1")
      ((firstLedger.importItems [] .history "clerk" "earlier.json"
        [earlierItem]).2.store.historyOf "C1")).filterMap entryOfRows).map Audit.Change.old)) =
      some 5 := by decide +kernel
  have hnew : firstNumber? (Audit.arrayOf? (((sideBySide (firstLedger.store.historyOf "C1")
      ((firstLedger.importItems [] .history "clerk" "earlier.json"
        [earlierItem]).2.store.historyOf "C1")).filterMap entryOfRows).map Audit.Change.new)) =
      some 3 := by decide +kernel
  rcases firstLedger.importItems_cases [] .history "clerk" "earlier.json" [earlierItem] with
    ⟨e, himport, -⟩ | ⟨rs, n, row, m, himport, hrs, hall⟩
  · rw [himport] at hok
    cases hok
  · rw [himport] at hsame hold hnew ⊢
    have hside := (showsHistory_importAll reachable_firstLedger rfl rfl hrs.forall hall).sideBySide
    rw [coachesOf_earlier hrs] at hside
    rw [← hside.of_singleton.old] at hold
    rw [← hside.of_singleton.new] at hnew
    refine ⟨n, row, m, rfl, hold, hnew, hsame, ?_⟩
    rintro ⟨ids, entry, -, hmem, hshows, hentries⟩
    rw [hentries.old] at hold
    obtain ⟨i, hi, r, hr⟩ := isSome_historyRecord?_of_firstNumber? hshows hold
    -- The only record that was there is unchanged.
    obtain ⟨row, hrow, -⟩ := Option.map_eq_some_iff.1 hr
    obtain ⟨hmem', rfl⟩ := (Store.historyRow?_eq_some
      (Store.isSound_of_reachable reachable_firstLedger)).1 hrow
    have hfive : numberOf row ∈ (firstLedger.store.rows .history).map numberOf :=
      List.mem_map_of_mem hmem'
    rw [hnumbers, List.mem_singleton] at hfive
    rw [hfive] at hi
    exact (hmem 5).1 hi hsame.symm

end CoachLedger.Ledger
