/-
**The change between two snapshots of records.**

Every record of a store has a coach number, so the two fragments of a change between snapshots are
tagged with coach numbers, and entries are paired by them.  A pair of two records shows the fields
that differ, and a record without a partner is shown as a whole beside null.

Main definitions:

* `CoachLedger.Record.HasCoach` — the record has a coach number;
* `CoachLedger.Audit.entryOfRecords` — the entry that shows a pair of records.

Main results:

* `CoachLedger.Audit.entryAt?_toJson` — the entry of a pair of records;
* `CoachLedger.Audit.isSome_entryOfRecords`, `CoachLedger.Audit.entryOfRecords_some` — which records
  have an entry, and what it shows;
* `CoachLedger.Audit.change?_positional`, `CoachLedger.Audit.change?_byIdentity` — **the change
  between two snapshots, pair by pair**.
-/

import CoachLedger.Proofs.Audit.Alignment
import CoachLedger.Proofs.Record.Json

set_option autoImplicit false

namespace CoachLedger

/-- The record has a coach number. -/
def Record.HasCoach (r : Record) : Prop :=
  ∃ t, r.get CoachLedger.identityField = .text t

namespace Audit

variable {o : Options} {r s : Record}

/-! ### Tags -/

/-- Some members tagged with the coach number of a record. -/
def tagged (r : Record) (members : List (String × Json)) : Json :=
  .object ((tagField, (r.get CoachLedger.identityField).toJson) :: members)

/-- Some members tagged with a coach number. -/
def coachFragment (coach : String) (members : List (String × Json)) : Json :=
  .object ((tagField, .string coach) :: members)

theorem tagged_eq_coachFragment {coach : String}
    (h : r.get CoachLedger.identityField = .text coach) (members : List (String × Json)) :
    tagged r members = coachFragment coach members := by
  rw [tagged, h]
  rfl

theorem present?_null (name : String) : present? .null name = none := rfl

theorem present?_toJson (h : r.HasCoach) :
    present? r.toJson CoachLedger.identityField =
      some (r.get CoachLedger.identityField).toJson := by
  obtain ⟨t, ht⟩ := h
  have hslot : r.slot? CoachLedger.identityField = some (.text t) := by
    rw [Record.get] at ht
    cases hs : r.slot? CoachLedger.identityField with
    | none =>
        rw [hs] at ht
        cases ht
    | some v =>
        rw [hs] at ht
        exact congrArg some ht
  rw [Record.toJson_eq, present?, ht]
  rw [Record.member?_members, hslot]
  rfl

/-- The new record gives the tag, whatever the position. -/
theorem tagOf_new (ho : o.identityField = CoachLedger.identityField) (h : s.HasCoach) (old : Json)
    (position : Nat) :
    tagOf o old s.toJson position = (s.get CoachLedger.identityField).toJson := by
  unfold tagOf
  dsimp only
  rw [ho, present?_toJson h]
  rfl

theorem tagOf_old (ho : o.identityField = CoachLedger.identityField) (h : r.HasCoach)
    (position : Nat) :
    tagOf o r.toJson .null position = (r.get CoachLedger.identityField).toJson := by
  unfold tagOf
  dsimp only
  rw [ho, present?_toJson h, present?_null]
  rfl

theorem untagged_eq_self {members : List (String × Json)} (h : tagField ∉ members.map Prod.fst) :
    untagged members = members := by
  refine List.filter_eq_self.2 fun m hm => bne_iff_ne.2 fun heq => h ?_
  rw [← heq]
  exact List.mem_map_of_mem hm

theorem untagged_members (r : Record) : untagged r.members = r.members :=
  untagged_eq_self fun h => r.kind.tagField_not_mem_names (r.names_members_sublist.subset h)

theorem untagged_showing (t r s : Record) :
    untagged (t.showing (Record.changedFields r s)) = t.showing (Record.changedFields r s) := by
  refine untagged_eq_self fun h => ?_
  rw [Record.names_showing] at h
  rcases Record.mem_names_of_changedFields h with h | h
  · exact r.kind.tagField_not_mem_names h
  · exact s.kind.tagField_not_mem_names h

/-! ### Entries -/

/-- The entry that shows a pair of records: the fields that differ, or a record without a partner as
a whole. -/
def entryOfRecords : Option Record × Option Record → Option Change
  | (none, none) => none
  | (none, some s) => some ⟨.null, tagged s s.members⟩
  | (some r, none) => some ⟨tagged r r.members, .null⟩
  | (some r, some s) =>
      if Record.changedFields r s = [] then none
      else
        some ⟨tagged s (r.showing (Record.changedFields r s)),
          tagged s (s.showing (Record.changedFields r s))⟩

/-- A record of a snapshot as an entry of an array, null if there is none. -/
def entryJson (r : Option Record) : Json :=
  (r.map Record.toJson).getD .null

/-- **The entry of a pair of records**, whatever the position. -/
theorem entryAt?_toJson (ho : o.identityField = CoachLedger.identityField)
    {p : Option Record × Option Record} (hold : ∀ r ∈ p.1, r.HasCoach)
    (hnew : ∀ s ∈ p.2, s.HasCoach) (position : Nat) :
    entryAt? o (entryJson p.1) (entryJson p.2) position = entryOfRecords p := by
  obtain ⟨a, b⟩ := p
  cases a with
  | none =>
      cases b with
      | none => rfl
      | some s =>
          have htag := tagOf_new ho (hnew s rfl) .null position
          have happears : change? o .null s.toJson = some ⟨.null, s.toJson⟩ :=
            change?_null o s.toJson
          rw [entryOfRecords, entryAt?, entryJson, entryJson, Option.map_none, Option.getD_none,
            Option.map_some, Option.getD_some, happears, Option.map_some, htag, Record.toJson_eq,
            withTag_object, untagged_members]
          rfl
  | some r =>
      cases b with
      | none =>
          have htag := tagOf_old ho (hold r rfl) position
          have hgone : change? o r.toJson .null = some ⟨r.toJson, .null⟩ := rfl
          rw [entryOfRecords, entryAt?, entryJson, entryJson, Option.map_none, Option.getD_none,
            Option.map_some, Option.getD_some, hgone, Option.map_some, htag, Record.toJson_eq,
            withTag_object, untagged_members]
          rfl
      | some s =>
          have htag := tagOf_new ho (hnew s rfl) r.toJson position
          rw [entryOfRecords, entryAt?, entryJson, entryJson, Option.map_some, Option.getD_some,
            Option.map_some, Option.getD_some, htag, Record.change?_toJson]
          split
          · rfl
          · rw [Option.map_some, withTag_object, withTag_object, untagged_showing, untagged_showing]
            rfl

/-- Two records with the same object have no entry. -/
theorem entryOfRecords_of_eq {p : Option Record × Option Record}
    (h : p.1.map Record.toJson = p.2.map Record.toJson) : entryOfRecords p = none := by
  obtain ⟨a, b⟩ := p
  cases a with
  | none =>
      cases b with
      | none => rfl
      | some s => cases h
  | some r =>
      cases b with
      | none => cases h
      | some s =>
          have hmembers : r.members = s.members := Json.object.inj (Option.some.inj h)
          refine if_pos (Record.changedFields_eq_nil.2 fun name => ?_)
          rw [← Record.valueOf_members, hmembers, Record.valueOf_members]

/-- A record has an entry exactly if it was not there or a field of it is written differently. -/
theorem isSome_entryOfRecords {a : Option Record} :
    (entryOfRecords (a, some s)).isSome = true ↔
      a = none ∨ ∃ r, a = some r ∧ ∃ name, (r.get name).toJson ≠ (s.get name).toJson := by
  cases a with
  | none => exact iff_of_true rfl (.inl rfl)
  | some r =>
      rw [entryOfRecords]
      by_cases hnil : Record.changedFields r s = []
      · rw [if_pos hnil]
        refine iff_of_false (fun h => by cases h) ?_
        rintro (h | ⟨r', hr', name, hne⟩)
        · cases h
        · obtain rfl := Option.some.inj hr'
          exact hne (Record.changedFields_eq_nil.1 hnil name)
      · rw [if_neg hnil]
        obtain ⟨name, hname⟩ := List.exists_mem_of_ne_nil _ hnil
        exact iff_of_true rfl (.inr ⟨r, rfl, name, Record.mem_changedFields.1 hname⟩)

section

variable {coach : String} (hs : s.get CoachLedger.identityField = .text coach)
include hs

/-- The entry of a record that was not there. -/
theorem entryOfRecords_none :
    entryOfRecords (none, some s) = some ⟨.null, coachFragment coach s.members⟩ := by
  rw [← tagged_eq_coachFragment hs]
  rfl

/-- **The entry of a record that was there** shows the fields that are written differently. -/
theorem entryOfRecords_some {e : Change} (he : entryOfRecords (some r, some s) = some e) :
    ∃ names : List String, names.Nodup ∧
      (∀ n, n ∈ names ↔ (r.get n).toJson ≠ (s.get n).toJson) ∧
      e = ⟨coachFragment coach (names.map fun n => (n, (r.get n).toJson)),
        coachFragment coach (names.map fun n => (n, (s.get n).toJson))⟩ := by
  rw [entryOfRecords] at he
  split at he
  · cases he
  · refine ⟨Record.changedFields r s, Record.nodup_changedFields r s,
      fun n => Record.mem_changedFields, ?_⟩
    rw [← tagged_eq_coachFragment hs, ← tagged_eq_coachFragment hs]
    exact (Option.some.inj he).symm

end

/-! ### Snapshots -/

variable {kind : RecordKind} {before after : List Record}

/-- The change between two snapshots whose entries are paired like the records of a list of
pairs. -/
theorem change?_of_pairs (ho : o.identityField = CoachLedger.identityField)
    (hbefore : ∀ r ∈ before, r.kind = kind ∧ r.HasCoach)
    (hafter : ∀ s ∈ after, s.kind = kind ∧ s.HasCoach)
    {pairs : List (Option Record × Option Record)}
    (hmem : ∀ p ∈ pairs, (∀ r ∈ p.1, r ∈ before) ∧ ∀ s ∈ p.2, s ∈ after)
    (hpairs : pairsOf o (before.map Record.toJson) (after.map Record.toJson) =
      pairs.map (Prod.map (Option.map Record.toJson) (Option.map Record.toJson))) :
    change? o (Record.listToJson before) (Record.listToJson after) =
      ofEntries? (pairs.filterMap entryOfRecords) := by
  have hentry : ∀ p ∈ pairs, ∀ position,
      entryAt? o (entryJson p.1) (entryJson p.2) position = entryOfRecords p := by
    intro p hp position
    obtain ⟨hold, hnew⟩ := hmem p hp
    exact entryAt?_toJson ho (fun r hr => (hbefore r (hold r hr)).2)
      (fun s hs => (hafter s (hnew s hs)).2) position
  have hentries : (pairsOf o (before.map Record.toJson) (after.map Record.toJson)).filterMap
      (fun p => entryAt? o (p.1.getD .null) (p.2.getD .null) 0) =
      pairs.filterMap entryOfRecords := by
    rw [hpairs, List.filterMap_map]
    exact List.filterMap_congr fun p hp => hentry p hp 0
  rw [Record.listToJson, Record.listToJson, ← hentries]
  refine change?_array ?_ ?_
  · intro p hp position
    rw [hpairs] at hp
    obtain ⟨q, hq, rfl⟩ := List.mem_map.1 hp
    exact (hentry q hq position).trans (hentry q hq 0).symm
  · intro hsame
    -- Snapshots that count as equal are equal, so that each entry is paired with itself.
    have heq := Record.map_toJson_of_sameItems (fun r hr => (hbefore r hr).1)
      (fun s hs => (hafter s hs).1) hsame
    rw [hentries]
    refine List.filterMap_eq_nil_iff.2 fun p hp => entryOfRecords_of_eq ?_
    have hself : Prod.map (Option.map Record.toJson) (Option.map Record.toJson) p ∈
        pairsOf o (after.map Record.toJson) (after.map Record.toJson) := by
      rw [heq] at hpairs
      rw [hpairs]
      exact List.mem_map_of_mem hp
    rw [pairsOf_self] at hself
    obtain ⟨x, -, hx⟩ := List.mem_map.1 hself
    exact (congrArg Prod.fst hx).symm.trans (congrArg Prod.snd hx)

section

variable (ho : o.identityField = CoachLedger.identityField)
  (hbefore : ∀ r ∈ before, r.kind = kind ∧ r.HasCoach)
  (hafter : ∀ s ∈ after, s.kind = kind ∧ s.HasCoach)
include ho hbefore hafter

/-- **By position the snapshots are compared side by side.** -/
theorem change?_positional (halign : o.alignment = .positional) :
    change? o (Record.listToJson before) (Record.listToJson after) =
      ofEntries? ((sideBySide before after).filterMap entryOfRecords) := by
  refine change?_of_pairs ho hbefore hafter (fun p hp => mem_of_mem_sideBySide hp) ?_
  rw [pairsOf_positional halign, sideBySide, List.zipWithAll_map, sideBySide, List.map_zipWithAll]
  rfl

/-- **By identity the records are paired by their coach numbers.** -/
theorem change?_byIdentity (halign : o.alignment = .byIdentity) :
    change? o (Record.listToJson before) (Record.listToJson after) =
      ofEntries? ((pairUp (fun r => r.get CoachLedger.identityField) before after).filterMap
        entryOfRecords) := by
  have hidentifier {r : Record} (h : r.HasCoach) : identifier? o r.toJson =
      some (r.get CoachLedger.identityField).toJson.canonical := by
    rw [identifier?, ho, present?_toJson h]
    rfl
  refine change?_of_pairs ho hbefore hafter (fun p hp => mem_of_mem_pairUp hp) ?_
  rw [pairsOf_byIdentity halign, pairUp_map]
  refine congrArg (List.map _) (pairUp_congr fun r hr s hs => ?_)
  obtain ⟨t, ht⟩ := (hbefore r hr).2
  obtain ⟨u, hu⟩ := (hafter s hs).2
  rw [hidentifier (hbefore r hr).2, hidentifier (hafter s hs).2, ht, hu, Option.some.injEq]
  constructor
  · intro h
    have hjson := Json.canonical_inj (Value.isScalar_toJson _) (Value.isScalar_toJson _) h
    rw [Json.string.inj hjson]
  · intro h
    rw [h]

end

/-- Records that are changed without their coach numbers are compared with themselves, whatever the
alignment. -/
theorem change?_map (ho : o.identityField = CoachLedger.identityField)
    (hbefore : ∀ r ∈ before, r.kind = kind ∧ r.HasCoach) {f : Record → Record}
    (hf : ∀ r ∈ before, (f r).kind = r.kind ∧
      (f r).get CoachLedger.identityField = r.get CoachLedger.identityField) :
    change? o (Record.listToJson before) (Record.listToJson (before.map f)) =
      ofEntries? (before.filterMap fun r => entryOfRecords (some r, some (f r))) := by
  have hafter : ∀ s ∈ before.map f, s.kind = kind ∧ s.HasCoach := by
    intro s hs
    obtain ⟨r, hr, rfl⟩ := List.mem_map.1 hs
    obtain ⟨hkind, hget⟩ := hf r hr
    obtain ⟨hk, t, ht⟩ := hbefore r hr
    exact ⟨hkind.trans hk, t, hget.trans ht⟩
  cases halign : o.alignment with
  | positional =>
      rw [change?_positional ho hbefore hafter halign, sideBySide_map_right, List.filterMap_map]
      rfl
  | byIdentity =>
      rw [change?_byIdentity ho hbefore hafter halign, pairUp_map_right fun r hr => (hf r hr).2,
        List.filterMap_map]
      rfl

/-! ### Fragments -/

/-- An array, unless there is nothing in it. -/
def arrayOf? : List Json → Option Json
  | [] => none
  | js => some (.array js)

/-- The fragments are the sides of the entries. -/
theorem map_ofEntries? (es : List Change) :
    (ofEntries? es).map Change.old = arrayOf? (es.map Change.old) ∧
      (ofEntries? es).map Change.new = arrayOf? (es.map Change.new) := by
  cases es <;> exact ⟨rfl, rfl⟩

/-- The entries of the things that have one. -/
theorem exists_entry {ι : Type} (shown : ι → Option Change) (l : List ι) :
    ∃ entry : ι → Change, (∀ a e, shown a = some e → entry a = e) ∧
      l.filterMap shown = (l.filter fun a => (shown a).isSome).map entry := by
  have hentry : ∀ a e, shown a = some e → (shown a).getD ⟨.null, .null⟩ = e := fun a e he => by
    rw [he]
    rfl
  refine ⟨fun a => (shown a).getD ⟨.null, .null⟩, hentry, ?_⟩
  rw [← List.filterMap_eq_map, List.filterMap_filter]
  refine List.filterMap_congr fun a _ => ?_
  cases he : shown a with
  | none => rfl
  | some e => simp [he]

theorem arrayOf?_inj {js ks : List Json} (h : arrayOf? js = arrayOf? ks) : js = ks := by
  cases js with
  | nil =>
      cases ks with
      | nil => rfl
      | cons k ks => cases h
  | cons j js =>
      cases ks with
      | nil => cases h
      | cons k ks => exact Json.array.inj (Option.some.inj h)

theorem arrayOf?_eq_none {js : List Json} : arrayOf? js = none ↔ js = [] := by
  cases js with
  | nil => exact iff_of_true rfl rfl
  | cons j js => exact iff_of_false (fun h => by cases h) (List.cons_ne_nil j js)

end Audit

end CoachLedger
