/-
**What the audit log shows of an import of master records.**

An import of master records puts them in and logs what has become of the coaches in it.  A coach
that had no record is shown with its new record beside null, and a coach that had one with the
fields that are written differently, unless there are none.  All of this is done, or nothing is.

A field without a value counts as null.  So a number that JSON cannot write is not told from a field
without a value, which is the only way in which the JSON of a record can change without being shown.

Main definitions:

* `CoachLedger.Ledger.IsRewritten` — some field of a coach is written differently;
* `CoachLedger.Ledger.ShowsCoach` — an entry shows what has become of a coach;
* `CoachLedger.Ledger.ShowsMasters` — what the audit row of an import of master records shows.

Main results:

* `CoachLedger.Ledger.changeEntries_eq` — the change between two snapshots, coach by coach;
* `CoachLedger.Ledger.isRewritten_iff_toJson` — a record is rewritten if its JSON is another one;
* `CoachLedger.Ledger.importItems_auditExact` — **an import is done as a whole and shown exactly, or
  not done at all**.
-/

import CoachLedger.Proofs.Ledger.ImportSteps
import CoachLedger.Proofs.Store.Overlay

set_option autoImplicit false

namespace CoachLedger

/-! ### What an entry shows -/

namespace Ledger

open CoachLedger.Audit (coachFragment entryOfRecords)

/-- Some field in the master record of a coach is written differently, a field without a value
counting as null. -/
def IsRewritten (s t : Store) (c : String) : Prop :=
  ∃ field, (s.fieldOf c field).toJson ≠ (t.fieldOf c field).toJson

/-- The entry shows what has become of a coach: its whole record beside null if it had none, or else
the fields that are written differently, as they were and as they are. -/
structure ShowsCoach (s t : Store) (c : String) (e : Audit.Change) : Prop where
  inserted : s.knows c = false →
    ∃ r, t.masterOf? c = some r ∧ e = ⟨.null, coachFragment c r.members⟩
  changed : s.knows c = true →
    ∃ names : List String, names.Nodup ∧
      (∀ n, n ∈ names ↔ (s.fieldOf c n).toJson ≠ (t.fieldOf c n).toJson) ∧
      e = ⟨coachFragment c (names.map fun n => (n, (s.fieldOf c n).toJson)),
        coachFragment c (names.map fun n => (n, (t.fieldOf c n).toJson))⟩

/-- An audit row shows what has become of some coaches: in ascending order those that had no record
or have a field that is written differently. -/
def ShowsCoaches (s t : Store) (coaches : List String) (row : Audit.Row) : Prop :=
  ∃ (changed : List String) (entry : String → Audit.Change), changed.Pairwise (· < ·) ∧
    (∀ c, c ∈ changed ↔ c ∈ coaches ∧ (s.knows c = false ∨ IsRewritten s t c)) ∧
    (∀ c ∈ changed, ShowsCoach s t c (entry c)) ∧
    row.oldValues = Audit.arrayOf? (changed.map fun c => (entry c).old) ∧
    row.newValues = Audit.arrayOf? (changed.map fun c => (entry c).new)

section

variable {s t : Store} {c : String}

/-- The entry of the records of a coach. -/
def coachChange? (s t : Store) (c : String) : Option Audit.Change :=
  entryOfRecords (s.masterOf? c, t.masterOf? c)

theorem knows_eq_false_iff : s.knows c = false ↔ s.masterOf? c = none := by
  rw [← Bool.not_eq_true, Store.knows_iff_masterOf?, Bool.not_eq_true, Option.isSome_eq_false_iff,
    Option.isNone_iff_eq_none]

theorem fieldOf_of_masterOf? {r : Record} (h : s.masterOf? c = some r) (field : String) :
    s.fieldOf c field = r.get field := by
  rw [Store.fieldOf, h]
  rfl

/-- A coach with a record has an entry if it had none or has a field that is written differently. -/
theorem isSome_coachChange? (ht : t.knows c = true) :
    (coachChange? s t c).isSome = true ↔ s.knows c = false ∨ IsRewritten s t c := by
  obtain ⟨r', hr'⟩ := Option.isSome_iff_exists.1 (Store.knows_iff_masterOf?.1 ht)
  rw [coachChange?, hr', Audit.isSome_entryOfRecords, knows_eq_false_iff, IsRewritten]
  cases hr : s.masterOf? c with
  | none => exact iff_of_true (.inl rfl) (.inl rfl)
  | some r =>
      simp only [reduceCtorEq, Option.some.injEq, exists_eq_left', false_or,
        fieldOf_of_masterOf? hr, fieldOf_of_masterOf? hr']

/-- The entry of a coach shows what has become of it. -/
theorem showsCoach_of_coachChange? (hsound : Store.IsSound t) {e : Audit.Change}
    (ht : t.knows c = true) (he : coachChange? s t c = some e) : ShowsCoach s t c e := by
  obtain ⟨r', hr'⟩ := Option.isSome_iff_exists.1 (Store.knows_iff_masterOf?.1 ht)
  obtain ⟨hmem, hid⟩ := (Store.masterOf?_eq_some hsound).1 hr'
  have hcoach := Store.get_identity_of_identity? hsound hmem hid
  rw [coachChange?, hr'] at he
  refine ⟨fun hnew => ⟨r', hr', ?_⟩, fun hknown => ?_⟩
  · rw [knows_eq_false_iff.1 hnew, Audit.entryOfRecords_none hcoach] at he
    exact (Option.some.inj he).symm
  · obtain ⟨r, hr⟩ := Option.isSome_iff_exists.1 (Store.knows_iff_masterOf?.1 hknown)
    rw [hr] at he
    simp only [fieldOf_of_masterOf? hr, fieldOf_of_masterOf? hr']
    exact Audit.entryOfRecords_some hcoach he

/-! ### Coach by coach -/

/-- The key by which records are paired: the coach numbers. -/
theorem map_get_identity (hs : Store.IsSound s) {coaches : List String} (hd : coaches.Nodup) :
    (s.get .master coaches).map (fun r => r.get CoachLedger.identityField) =
      ((s.get .master coaches).filterMap Record.identity?).map Value.text := by
  rw [List.map_filterMap, ← List.filterMap_eq_map]
  refine List.filterMap_congr fun r hr => ?_
  obtain ⟨t, ht, hid, -⟩ := Store.exists_get_identity hs (Store.mem_records_of_get hs hd hr)
  rw [Function.comp_apply, ht, hid]
  rfl

theorem nodup_map_get_identity (hs : Store.IsSound s) {coaches : List String}
    (hd : coaches.Nodup) :
    ((s.get .master coaches).map fun r => r.get CoachLedger.identityField).Nodup := by
  rw [map_get_identity hs hd]
  exact (Store.nodup_identities_get hs hd).map fun a b h => Value.text.inj h

section

variable {coaches : List String} (hs : Store.IsSound s) (ht : Store.IsSound t)
  (hd : coaches.Nodup) (hkeep : ∀ c, s.knows c = true → t.knows c = true)
include hs ht hd hkeep

/-- The records of the coaches after an import are paired with those before it. -/
theorem pairUp_get :
    Audit.pairUp (fun r => r.get CoachLedger.identityField) (s.get .master coaches)
        (t.get .master coaches) =
      (t.get .master coaches).map
        (Audit.withOld (fun r => r.get CoachLedger.identityField) (s.get .master coaches)) := by
  refine Audit.pairUp_eq_map_of_nodup (nodup_map_get_identity hs hd)
    (nodup_map_get_identity ht hd) ?_
  rw [map_get_identity hs hd, map_get_identity ht hd]
  refine List.map_subset _ fun c hc => ?_
  obtain ⟨hc, hknown⟩ := (Store.mem_identities_get hs hd).1 hc
  exact (Store.mem_identities_get ht hd).2 ⟨hc, hkeep c hknown⟩

omit ht hkeep in
/-- The record that is paired with one of a coach is that of the coach. -/
theorem find?_get {r : Record} (hr : r.get CoachLedger.identityField = .text c) (hc : c ∈ coaches) :
    ((s.get .master coaches).find? fun a =>
      a.get CoachLedger.identityField == r.get CoachLedger.identityField) = s.masterOf? c := by
  have hfind {a : Record} (ha : a ∈ s.records .master) :
      (a.get CoachLedger.identityField == r.get CoachLedger.identityField) =
        (a.identity? == some c) := by
    obtain ⟨u, hu, hid, -⟩ := Store.exists_get_identity hs ha
    rw [hr, hu, hid, Bool.eq_iff_iff, beq_iff_eq, beq_iff_eq, Value.text.injEq, Option.some.injEq]
  rw [Store.get_master hs hd, List.find?_filter, Store.masterOf?]
  refine List.find?_congr fun a ha => ?_
  rw [hfind ha]
  cases hid : a.identity? == some c with
  | false => simp
  | true => simp [(Record.isOf_iff (beq_iff_eq.1 hid)).2 hc]

/-- **The change between the two snapshots, coach by coach.** -/
theorem changeEntries_eq :
    (Audit.pairUp (fun r => r.get CoachLedger.identityField) (s.get .master coaches)
        (t.get .master coaches)).filterMap entryOfRecords =
      ((t.get .master coaches).filterMap Record.identity?).filterMap (coachChange? s t) := by
  rw [pairUp_get hs ht hd hkeep, List.filterMap_map, List.filterMap_filterMap]
  refine List.filterMap_congr fun r hr => ?_
  have hmem := Store.mem_records_of_get ht hd hr
  obtain ⟨c, hc, hid, -⟩ := Store.exists_get_identity ht hmem
  have hin : c ∈ coaches :=
    ((Store.mem_identities_get ht hd).1 (List.mem_filterMap.2 ⟨r, hr, hid⟩)).1
  rw [Function.comp_apply, Audit.withOld, find?_get hs hd hc hin, hid, Option.bind_some,
    coachChange?, (Store.masterOf?_eq_some ht).2 ⟨hmem, hid⟩]

/-- A change between two snapshots shows what has become of the coaches. -/
theorem showsCoaches_of_get (hall : ∀ c ∈ coaches, t.knows c = true) {o : Audit.Options}
    (ho : o.identityField = CoachLedger.identityField) (halign : o.alignment = .byIdentity)
    {row : Audit.Row}
    (hold : row.oldValues = (Audit.change? o (Record.listToJson (s.get .master coaches))
      (Record.listToJson (t.get .master coaches))).map Audit.Change.old)
    (hnew : row.newValues = (Audit.change? o (Record.listToJson (s.get .master coaches))
      (Record.listToJson (t.get .master coaches))).map Audit.Change.new) :
    ShowsCoaches s t coaches row := by
  have hbefore : ∀ r ∈ s.get .master coaches, r.kind = .master ∧ r.HasCoach :=
    fun r hr => Store.hasCoach_of_mem_records hs (Store.mem_records_of_get hs hd hr)
  have hafter : ∀ r ∈ t.get .master coaches, r.kind = .master ∧ r.HasCoach :=
    fun r hr => Store.hasCoach_of_mem_records ht (Store.mem_records_of_get ht hd hr)
  rw [Audit.change?_byIdentity ho hbefore hafter halign,
    changeEntries_eq hs ht hd hkeep] at hold hnew
  obtain ⟨ids, hids⟩ : ∃ ids, (t.get .master coaches).filterMap Record.identity? = ids :=
    ⟨_, rfl⟩
  obtain ⟨entry, hentry, hentries⟩ := Audit.exists_entry (coachChange? s t) ids
  have hmem : ∀ c, c ∈ ids ↔ c ∈ coaches := by
    intro c
    rw [← hids, Store.mem_identities_get ht hd]
    exact and_iff_left_of_imp (hall c)
  rw [hids, hentries] at hold hnew
  refine ⟨ids.filter fun c => (coachChange? s t c).isSome, entry, ?_, ?_, ?_, ?_, ?_⟩
  · rw [← hids]
    exact (Store.ascending_identities_get ht hd).sublist List.filter_sublist
  · intro c
    rw [List.mem_filter, hmem]
    exact and_congr_right fun hc => isSome_coachChange? (hall c hc)
  · intro c hc
    obtain ⟨hc, hsome⟩ := List.mem_filter.1 hc
    obtain ⟨e, he⟩ := Option.isSome_iff_exists.1 hsome
    rw [hentry c e he]
    exact showsCoach_of_coachChange? ht (hall c ((hmem c).1 hc)) he
  · rw [hold, (Audit.map_ofEntries? _).1, List.map_map]
    rfl
  · rw [hnew, (Audit.map_ofEntries? _).2, List.map_map]
    rfl

end

/-! ### Changes of JSON -/

/-- A field that is written as null is not set, in a record of finite numbers. -/
theorem slot?_eq_none_of_toJson {r : Record} (hs : Store.IsSound s) (hr : s.masterOf? c = some r)
    (hx : r.IsFinite) {name : String} (h : (r.get name).toJson = .null) : r.slot? name = none := by
  have hmem := ((Store.masterOf?_eq_some hs).1 hr).1
  cases hslot : r.slot? name with
  | none => rfl
  | some v =>
      have hget : r.get name = v := by rw [Record.get, hslot]; rfl
      rw [hget] at h
      refine absurd h (Value.toJson_ne_null ?_ fun x hv => hx name x (hget.trans hv))
      rintro rfl
      exact Store.slot?_ne_null hmem name hslot

/-- **If the numbers are finite, a record is rewritten exactly if its JSON is another one.** -/
theorem isRewritten_iff_toJson {r r' : Record} (hs : Store.IsSound s) (ht : Store.IsSound t)
    (hr : s.masterOf? c = some r) (hr' : t.masterOf? c = some r') (hx : r.IsFinite)
    (hx' : r'.IsFinite) : IsRewritten s t c ↔ r.toJson ≠ r'.toJson := by
  have hkind : r.kind = r'.kind := by
    obtain ⟨-, -, -, hk⟩ := Store.exists_get_identity hs ((Store.masterOf?_eq_some hs).1 hr).1
    obtain ⟨-, -, -, hk'⟩ := Store.exists_get_identity ht ((Store.masterOf?_eq_some ht).1 hr').1
    rw [hk, hk']
  constructor
  · rintro ⟨name, hne⟩ heq
    have hmembers : r.members = r'.members := Json.object.inj heq
    rw [fieldOf_of_masterOf? hr, fieldOf_of_masterOf? hr', ← Record.valueOf_members,
      ← Record.valueOf_members, hmembers] at hne
    exact hne rfl
  · intro hne
    by_contra hsame
    refine hne (Record.toJson_congr hkind fun name => ?_)
    have hget : (r.get name).toJson = (r'.get name).toJson := by
      by_contra hname
      refine hsame ⟨name, ?_⟩
      rwa [fieldOf_of_masterOf? hr, fieldOf_of_masterOf? hr']
    -- A field that is set in one of the records is not written as null, so it is set in both.
    cases hv : r.slot? name with
    | none =>
        have hnull : (r'.get name).toJson = .null := by
          rw [← hget, Record.get, hv]
          rfl
        rw [slot?_eq_none_of_toJson ht hr' hx' hnull]
    | some v =>
        cases hw : r'.slot? name with
        | none =>
            have hnull : (r.get name).toJson = .null := by
              rw [hget, Record.get, hw]
              rfl
            rw [slot?_eq_none_of_toJson hs hr hx hnull] at hv
            cases hv
        | some w =>
            rw [Record.get, Record.get, hv, hw] at hget
            exact congrArg some hget

end

/-! ### What an import does -/

variable {l m : Ledger} {i : Import}

/-- What the audit row of an import of master records shows. -/
structure ShowsMasters (l : Ledger) (rs : List Record) (row : Audit.Row) (m : Ledger) : Prop where
  shows : ShowsCoaches l.store m.store (coachesOf rs) row
  absent : (row.oldValues = none ∧ row.newValues = none) ↔
    ∀ c ∈ coachesOf rs, l.store.knows c = true ∧ ¬IsRewritten l.store m.store c
  rewritten : ∀ c r r', l.store.masterOf? c = some r → m.store.masterOf? c = some r' →
    r.IsFinite → r'.IsFinite → (IsRewritten l.store m.store c ↔ r.toJson ≠ r'.toJson)

/-- Nothing is shown exactly if there is nothing to show. -/
theorem ShowsCoaches.absent_iff {s t : Store} {coaches : List String} {row : Audit.Row}
    (h : ShowsCoaches s t coaches row) : (row.oldValues = none ∧ row.newValues = none) ↔
      ∀ c ∈ coaches, s.knows c = true ∧ ¬IsRewritten s t c := by
  obtain ⟨changed, entry, -, hmem, -, hold, hnew⟩ := h
  rw [hold, hnew, Audit.arrayOf?_eq_none, Audit.arrayOf?_eq_none, List.map_eq_nil_iff,
    List.map_eq_nil_iff, and_self, List.eq_nil_iff_forall_not_mem]
  refine forall_congr' fun c => ?_
  rw [hmem, not_and, not_or, Bool.not_eq_false]

/-- **What the audit row of an import of master records shows.** -/
theorem showsMasters_importAll (hs : l.store.Reachable)
    (ho : l.options.identityField = CoachLedger.identityField) (hkind : i.kind = .master)
    (hr : ∀ r ∈ i.records, r.IsValid ∧ r.kind = .master) {n : Nat} {row : Audit.Row}
    (h : l.importAll i = .ok ((n, row), m)) : ShowsMasters l i.records row m := by
  have hsound := Store.isSound_of_reachable hs
  have hvalid : ∀ r ∈ i.records, r.IsValid := fun r hmem => (hr r hmem).1
  obtain ⟨t, hupsert, hsound', hrows, hold, hnew⟩ := shows_importAll hs hvalid h
  -- No coach is lost, and those of the import have records afterwards.
  have hknows : ∀ c, m.store.knows c = t.knows c := fun c => by
    rw [Store.knows, Store.knows, Store.records, Store.records, hrows]
  have hkeep : ∀ c, l.store.knows c = true → m.store.knows c = true := fun c hc => by
    rw [hknows]
    exact Store.knows_upsertFrom hsound hvalid hupsert (.inl hc)
  have hall : ∀ c ∈ coachesOf i.records, m.store.knows c = true := fun c hc => by
    obtain ⟨r, hmem, hid⟩ := mem_coachesOf.1 hc
    rw [hknows]
    exact Store.knows_upsertFrom hsound hvalid hupsert (.inr ⟨r, hmem, (hr r hmem).2, hid⟩)
  have hshows : ShowsCoaches l.store m.store (coachesOf i.records) row := by
    rw [importSnapshot, importSnapshot, hkind] at hold hnew
    exact showsCoaches_of_get hsound hsound' (nodup_coachesOf _) hkeep hall
      (o := { l.options with alignment := .byIdentity }) ho rfl hold hnew
  exact ⟨hshows, hshows.absent_iff,
    fun c r r' hr hr' => isRewritten_iff_toJson hsound hsound' hr hr'⟩

/-- **An import of master records is done as a whole and shown exactly, or not done at all.**
Whichever statements the engine fails, it either fails and leaves the ledger as it was, or it does
all that it is to do.  Without a fault of the engine it fails only if an item is no record, if the
records cannot be put in, or if there is no audit log. -/
theorem importItems_auditExact (hs : l.store.Reachable)
    (ho : l.options.identityField = CoachLedger.identityField) (faults : List Bool)
    (actor source : String) (items : List Json) :
    (∃ e, l.importItems faults .master actor source items = (.error e, l) ∧
      (faults = [] → CannotImport l .master items)) ∨
    ∃ rs n row m, l.importItems faults .master actor source items = (.ok (n, row), m) ∧
      AreRecords .master items rs ∧ IsImported l ⟨.master, rs, actor, source⟩ n row m ∧
      ShowsMasters l rs row m := by
  rcases l.importItems_cases faults .master actor source items with
    h | ⟨rs, n, row, m, himport, hrs, hall⟩
  · exact .inl h
  · exact .inr ⟨rs, n, row, m, himport, hrs, isImported_importAll hall,
      showsMasters_importAll hs ho rfl hrs.forall hall⟩

/-- One coach, which was built in no year that can be written. -/
def endlessRecords : List Record :=
  [Store.recordOf .master "built_year" (.number (.infinity false))]

/-- A ledger with this coach. -/
def endlessLedger : Ledger :=
  ⟨Store.filled endlessRecords, .standard, none⟩

/-- The year of the coach is cleared. -/
def clearedItems : List Json :=
  [.object [("coachno", .string "C1"), ("built_year", .null)]]

theorem reachable_endlessLedger : endlessLedger.store.Reachable :=
  show (Store.filled endlessRecords).Reachable from
    Store.reachable_recordOf (f := ⟨"built_year", .number⟩) (by decide) rfl (by decide)

/-- Clearing the year is an import that is done. -/
theorem importItems_auditExact_cleared :
    endlessLedger.store.Reachable ∧
      endlessLedger.options.identityField = CoachLedger.identityField ∧
      ∃ rs n row m, endlessLedger.importItems [] .master "clerk" "coaches.json" clearedItems =
        (.ok (n, row), m) ∧ AreRecords .master clearedItems rs ∧
        IsImported endlessLedger ⟨.master, rs, "clerk", "coaches.json"⟩ n row m ∧
        ShowsMasters endlessLedger rs row m := by
  refine ⟨reachable_endlessLedger, rfl, ?_⟩
  rcases importItems_auditExact reachable_endlessLedger rfl [] "clerk" "coaches.json" clearedItems
    with ⟨e, himport, -⟩ | h
  · have hok : (endlessLedger.importItems [] .master "clerk" "coaches.json"
        clearedItems).1.isOk = true := by decide +kernel
    rw [himport] at hok
    cases hok
  · exact h

/-- **It changes the JSON of the coach, and the audit row shows nothing.** -/
theorem not_showsCoaches_cleared :
    endlessLedger.store.Reachable ∧
      endlessLedger.options.identityField = CoachLedger.identityField ∧
      ∃ n row m r r', endlessLedger.importItems [] .master "clerk" "coaches.json" clearedItems =
        (.ok (n, row), m) ∧ endlessLedger.store.masterOf? "C1" = some r ∧
        m.store.masterOf? "C1" = some r' ∧ r.toJson ≠ r'.toJson ∧
        row.oldValues = none ∧ row.newValues = none := by
  refine ⟨reachable_endlessLedger, rfl, ?_⟩
  have hshown : (endlessLedger.importItems [] .master "clerk" "coaches.json"
      clearedItems).1.toOption.map (fun p => (p.2.oldValues.isNone, p.2.newValues.isNone)) =
      some (true, true) := by decide +kernel
  have hbefore : (endlessLedger.store.masterOf? "C1").map (fun r => r.slot? "built_year") =
      some (some (.number (.infinity false))) := by decide +kernel
  have hafter : ((endlessLedger.importItems [] .master "clerk" "coaches.json"
      clearedItems).2.store.masterOf? "C1").map (fun r => r.slot? "built_year") = some none := by
    decide +kernel
  cases himport : endlessLedger.importItems [] .master "clerk" "coaches.json" clearedItems with
  | mk x m =>
      rw [himport] at hshown hafter
      cases x with
      | error e => cases hshown
      | ok p =>
          obtain ⟨r, hr, hslot⟩ := Option.map_eq_some_iff.1 hbefore
          obtain ⟨r', hr', hslot'⟩ := Option.map_eq_some_iff.1 hafter
          obtain ⟨hold, hnew⟩ := Prod.mk.inj (Option.some.inj hshown)
          refine ⟨p.1, p.2, m, r, r', rfl, hr, hr', fun hjson => ?_,
            Option.isNone_iff_eq_none.1 hold, Option.isNone_iff_eq_none.1 hnew⟩
          -- Only the first object has a member for the year.
          have hmembers : r.members = r'.members := Json.object.inj hjson
          have hmember := r.member?_members "built_year"
          rw [hmembers, Record.member?_members, hslot, hslot'] at hmember
          cases hmember

end Ledger

end CoachLedger
