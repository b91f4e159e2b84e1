/-
**Putting in records that are refused.**

Some records are refused whatever the tables hold: those without a coach number, those whose coach
number starts with NUL, and history records whose number is no integer that a row can have.  One
more is refused because of what came before it: a history record without a number, after the
greatest one has been used.  Records are put in all or none, so that a list with a record that is
refused changes nothing, wherever in the list the record stands, and this is so as well inside of
transactions that were open before, which stay as they are.  The exception is the record that finds
no number: the engine then undoes these transactions with everything that was written in them.

Main definitions:

* `CoachLedger.Record.IsUnfit` — the record is refused by all tables;
* `CoachLedger.Record.NeedsNumber` — the record is given a number when it is put in;
* `CoachLedger.Store.RunsOut` — one of the records finds no number.

Main results:

* `CoachLedger.Store.upsertOne_error_iff`, `CoachLedger.Store.upsert_error_iff` — **which records
  are refused**;
* `CoachLedger.Work.putAll_error` — what a failure on the way leaves open;
* `CoachLedger.Work.upsert_restores`, `CoachLedger.Work.upsert_gaveUp` — what a failure of the
  whole leaves behind;
* `CoachLedger.Work.upsert_refused` — **putting in a list with a record that is refused fails and
  leaves the tables and the open transactions as they were**, unless numbers run out inside of a
  transaction;
* `CoachLedger.Work.upsert_abandons` — **a record that finds no number undoes what its caller wrote
  before**.
-/

import CoachLedger.Proofs.Store.Connection
import CoachLedger.Proofs.Store.Overlay

set_option autoImplicit false

namespace CoachLedger

open CoachLedger.Sql (Affinity Cell)

/-! ### Numbers of rows -/

/-- An integer in the range where all of them are exact is one that a row can have. -/
theorem Binary64.bounds_of_exactInteger? {x : Binary64} {i : Int} (h : x.exactInteger? = some i) :
    x.integer? = some i ∧ Cell.minInteger < i ∧ i < Cell.maxInteger := by
  obtain ⟨hint, hle⟩ := Option.filter_eq_some_iff.1 h
  have hbound : i.natAbs ≤ Binary64.maxExactInteger := by simpa using hle
  unfold Binary64.maxExactInteger at hbound
  unfold Cell.minInteger Cell.maxInteger
  exact ⟨hint, by omega, by omega⟩

/-- A number is stored as the integer that it is if a row can have that integer. -/
theorem Sql.Cell.cellFor_number_eq_integer {x : Binary64} {i : Int} :
    Store.cellFor .number (.number x) = .integer i ↔
      x.integer? = some i ∧ Cell.minInteger < i ∧ i < Cell.maxInteger := by
  unfold Store.cellFor Cell.ofValue Cell.stored
  dsimp only
  cases hex : x.exactInteger? with
  | some j =>
      obtain ⟨hint, hlt, hgt⟩ := Binary64.bounds_of_exactInteger? hex
      constructor
      · intro h
        obtain rfl : j = i := Cell.integer.inj h
        exact ⟨hint, hlt, hgt⟩
      · rintro ⟨h, -, -⟩
        rw [hint] at h
        exact congrArg Cell.integer (Option.some.inj h)
  | none =>
      dsimp only
      rw [Affinity.ofKind, Cell.towards_ofNumber]
      cases x with
      | nan =>
          constructor
          · intro h
            cases h
          · rintro ⟨h, -, -⟩
            cases h
      | signed negative rank le =>
          simp only [Cell.ofNumber, Cell.settle]
          cases hint : (Binary64.signed negative rank le).integer? with
          | none => simp
          | some j =>
              dsimp only
              split
              · rename_i hb
                simp only [Cell.integer.injEq, Option.some.injEq]
                constructor
                · rintro rfl
                  exact ⟨rfl, hb⟩
                · exact And.left
              · rename_i hb
                simp only [reduceCtorEq, Option.some.injEq, false_iff, not_and]
                rintro rfl hlt hgt
                exact hb ⟨hlt, hgt⟩

namespace Record

variable {r : Record}

/-- **The record is refused whatever the tables hold**: it has no coach number, or one that starts
with NUL, or it is a history record whose number is no integer that a row can have. -/
def IsUnfit (r : Record) : Prop :=
  r.identity? = none ∨
    (∃ s, r.get CoachLedger.identityField = .text s ∧ s.toList.head? = some '\x00') ∨
    (r.kind = .history ∧ ∃ x, r.get RecordKind.history.keyField = .number x ∧ x ≠ .nan ∧
      ∀ i, x.integer? = some i → i ≤ Cell.minInteger ∨ Cell.maxInteger ≤ i)

/-- The record is given a number when it is put in. -/
def NeedsNumber (r : Record) : Prop :=
  r.kind = .history ∧ (r.get RecordKind.history.keyField = .null ∨
    r.get RecordKind.history.keyField = .number .nan)

end Record

namespace Store

variable {s t : Store} {r : Record}

/-- **One of the records, put in one after the other, finds no number.** -/
def RunsOut (s : Store) : List Record → Prop
  | [] => False
  | r :: rs =>
      (r.identity? ≠ none ∧ s.isOutOfNumbers r = true) ∨
        ∃ n t, s.upsertOne r = .ok (n, t) ∧ RunsOut t rs

/-! ### One record -/

theorem get_keyField_eq (hk : r.kind = .history) :
    r.kind.field? r.kind.keyField = some ⟨"id", .number⟩ := by
  rw [hk]
  decide

/-- The number of a history record is stored as null exactly if the record needs one, and as an
integer exactly if it has one that a row can have. -/
theorem key_cases (hr : r.IsValid) (hk : r.kind = .history) :
    let cell :=
      (((r.kind.index? r.kind.keyField).bind fun i => (encode r)[i]?).join).getD .null
    (r.NeedsNumber ∧ cell = .null) ∨
      (∃ x i, r.get RecordKind.history.keyField = .number x ∧ cell = .integer i ∧
        x.integer? = some i ∧ Cell.minInteger < i ∧ i < Cell.maxInteger) ∨
      ∃ x negative rank, r.get RecordKind.history.keyField = .number x ∧ x ≠ .nan ∧
        cell = .real negative rank ∧
        ∀ i, x.integer? = some i → i ≤ Cell.minInteger ∨ Cell.maxInteger ≤ i := by
  have hf := get_keyField_eq hk
  intro cell
  have hcell : cell = ((r.slot? RecordKind.history.keyField).map (cellFor .number)).getD .null := by
    simp only [cell]
    rw [encode_keyField r hf, hk]
  cases hslot : r.slot? RecordKind.history.keyField with
  | none =>
      rw [hslot] at hcell
      exact .inl ⟨⟨hk, .inl (by rw [Record.get, hslot]; rfl)⟩, hcell⟩
  | some v =>
      have hget : r.get RecordKind.history.keyField = v := by rw [Record.get, hslot]; rfl
      have hfits : v.Fits .number := Record.fits_slot? hr (by rw [← hk]; exact hf) hslot
      rw [hslot, Option.map_some, Option.getD_some] at hcell
      cases v with
      | null => exact .inl ⟨⟨hk, .inl hget⟩, hcell⟩
      | number x =>
          rcases Cell.cellFor_number x with ⟨i, -, hint⟩ | ⟨-, hnumber⟩
          · obtain ⟨hi, hlt, hgt⟩ := Cell.cellFor_number_eq_integer.1 hint
            exact .inr (.inl ⟨x, i, hget, hcell.trans hint, hi, hlt, hgt⟩)
          · cases x with
            | nan => exact .inl ⟨⟨hk, .inr hget⟩, hcell⟩
            | signed negative rank le =>
                refine .inr (.inr ⟨_, negative, _, hget, by simp, hcell.trans hnumber, ?_⟩)
                intro i hi
                by_contra hb
                rw [not_or, not_le, not_le] at hb
                have := Cell.cellFor_number_eq_integer.2 ⟨hi, hb⟩
                rw [hnumber] at this
                cases this
      | text t => cases hfits _ rfl
      | date d => cases hfits _ rfl
      | boolean b => cases hfits _ rfl

/-- A record is out of numbers if it needs one and the greatest one has been used. -/
theorem isOutOfNumbers_iff (hr : r.IsValid) :
    s.isOutOfNumbers r = true ↔ r.NeedsNumber ∧ Cell.maxInteger ≤ s.lastHistoryId := by
  cases hk : r.kind with
  | master => simp [isOutOfNumbers, hk, Record.NeedsNumber]
  | history =>
      have hcases := key_cases hr hk
      unfold isOutOfNumbers
      rw [hk] at hcases ⊢
      dsimp only at hcases ⊢
      rcases hcases with ⟨hneeds, hcell⟩ | ⟨x, i, hget, hcell, hi, -⟩ |
        ⟨x, b, k, hget, hx, hcell, -⟩
      · simp [hcell, hneeds]
      · have hx : x ≠ .nan := by
          rintro rfl
          cases hi
        simp [hcell, Record.NeedsNumber, hget, hx]
      · simp [hcell, Record.NeedsNumber, hget, hx]

/-- The engine refuses a coach number exactly if it starts with NUL. -/
theorem acceptsCoach_eq_false {coach : String} (hr : r.IsValid) (hc : r.identity? = some coach) :
    acceptsCoach r = false ↔ coach.toList.head? = some '\x00' := by
  obtain ⟨hget, hne⟩ := get_identity hr hc
  have hzero (c : Char) : c.toNat = 0 ↔ c = '\x00' := by
    constructor
    · intro h
      exact Char.ext (UInt32.toNat.inj h)
    · rintro rfl
      rfl
  unfold acceptsCoach
  rw [hget]
  dsimp only
  cases hs : coach.toList with
  | nil => exact absurd (String.toList_eq_nil_iff.1 hs) hne
  | cons c cs => simp [hzero]

/-- A record finds no key exactly if its number is none that a row can have, or if it needs one
and none is left. -/
theorem keyFor_eq_none (hr : r.IsValid) :
    s.keyFor r (encode r) = none ↔
      (r.kind = .history ∧ ∃ x, r.get RecordKind.history.keyField = .number x ∧ x ≠ .nan ∧
        ∀ i, x.integer? = some i → i ≤ Cell.minInteger ∨ Cell.maxInteger ≤ i) ∨
      s.isOutOfNumbers r = true := by
  rw [isOutOfNumbers_iff hr]
  cases hk : r.kind with
  | master => simp [keyFor, hk, Record.NeedsNumber]
  | history =>
      have hcases := key_cases hr hk
      unfold keyFor
      rw [hk] at hcases ⊢
      dsimp only at hcases ⊢
      rcases hcases with ⟨hneeds, hcell⟩ | ⟨x, i, hget, hcell, hi, hlt, hgt⟩ |
        ⟨x, b, k, hget, hx, hcell, hnone⟩
      · have hnumber : ¬ ∃ x, r.get RecordKind.history.keyField = .number x ∧ x ≠ .nan ∧
            ∀ i, x.integer? = some i → i ≤ Cell.minInteger ∨ Cell.maxInteger ≤ i := by
          rintro ⟨x, hget, hx, -⟩
          rcases hneeds.2 with h | h
          · rw [hget] at h
            cases h
          · rw [hget] at h
            exact hx (Value.number.inj h)
        simp [hcell, hneeds, hnumber]
      · have hx : x ≠ .nan := by
          rintro rfl
          cases hi
        simp [hcell, Record.NeedsNumber, hget, hi, hx, hlt, hgt]
      · rw [hcell]
        simp only [true_iff]
        exact .inl ⟨trivial, x, hget, hx, hnone⟩

/-- **Which records are refused**: those that are refused whatever the tables hold, and those that
find no number. -/
theorem upsertOne_error_iff (hr : r.IsValid) :
    (∃ e, s.upsertOne r = .error e) ↔
      r.IsUnfit ∨ (r.identity? ≠ none ∧ s.isOutOfNumbers r = true) := by
  unfold Record.IsUnfit upsertOne
  cases hc : r.identity? with
  | none => simp
  | some coach =>
      obtain ⟨hget, -⟩ := get_identity hr hc
      have hcoach := acceptsCoach_eq_false hr hc
      have hkey := keyFor_eq_none (s := s) hr
      simp only [Option.isNone_some, Bool.false_eq_true, if_false, hget]
      cases ha : acceptsCoach r with
      | false => simp [hcoach.1 ha]
      | true =>
          have hnul : coach.toList.head? ≠ some '\x00' := by
            intro h
            rw [hcoach.2 h] at ha
            cases ha
          cases hkf : s.keyFor r (encode r) with
          | none => simpa [hnul, or_assoc] using hkey.1 hkf
          | some key =>
              have hno := hkey.not.1 (by rw [hkf]; exact Option.some_ne_none key)
              simpa [hnul, not_or] using hno

/-! ### Lists of records -/

theorem upsertFrom_cons_error {count : Nat} {rs : List Record} {e : Failure}
    (h : s.upsertOne r = .error e) : s.upsertFrom count (r :: rs) = .error e := by
  rw [upsertFrom, h]

theorem upsertFrom_cons_ok {count n : Nat} {rs : List Record} (h : s.upsertOne r = .ok (n, t)) :
    s.upsertFrom count (r :: rs) = t.upsertFrom (count + n) rs := by
  rw [upsertFrom, h]

theorem upsertFrom_error_iff {rs : List Record} (hr : ∀ r ∈ rs, r.IsValid) (count : Nat) :
    (∃ e, s.upsertFrom count rs = .error e) ↔ (∃ r ∈ rs, r.IsUnfit) ∨ s.RunsOut rs := by
  induction rs generalizing s count with
  | nil => simp [upsertFrom, RunsOut]
  | cons r rs ih =>
      have hone := upsertOne_error_iff (s := s) (hr r (by simp))
      have hrest : ∀ r ∈ rs, r.IsValid := fun r' h => hr r' (by simp [h])
      cases h : s.upsertOne r with
      | error e =>
          rw [h] at hone
          have hbad := hone.1 ⟨e, rfl⟩
          constructor
          · intro _
            rcases hbad with hunfit | hout
            · exact .inl ⟨r, by simp, hunfit⟩
            · exact .inr (.inl hout)
          · exact fun _ => ⟨e, upsertFrom_cons_error h⟩
      | ok p =>
          obtain ⟨n, t⟩ := p
          have hgood : ¬ (r.IsUnfit ∨ (r.identity? ≠ none ∧ s.isOutOfNumbers r = true)) := by
            intro hbad
            obtain ⟨e, he⟩ := hone.2 hbad
            rw [h] at he
            cases he
          rw [not_or] at hgood
          have hturn : s.RunsOut (r :: rs) ↔ t.RunsOut rs := by
            simp [RunsOut, hgood.2, h]
          rw [upsertFrom_cons_ok h, ih hrest, hturn]
          simp [hgood.1]

/-- **A list of records is refused** exactly if one of them is refused whatever the tables hold, or
one of them finds no number when its turn comes. -/
theorem upsert_error_iff {rs : List Record} (hr : ∀ r ∈ rs, r.IsValid) :
    (∃ e, s.upsert rs = .error e) ↔ (∃ r ∈ rs, r.IsUnfit) ∨ s.RunsOut rs :=
  upsertFrom_error_iff hr 0

/-- Numbers run out only for a record that needs one. -/
theorem not_runsOut {rs : List Record} (hr : ∀ r ∈ rs, r.IsValid)
    (hneeds : ∀ r ∈ rs, ¬ r.NeedsNumber) : ¬ s.RunsOut rs := by
  induction rs generalizing s with
  | nil => exact id
  | cons r rs ih =>
      rintro (⟨-, hout⟩ | ⟨n, t, -, hout⟩)
      · exact hneeds r (by simp) ((isOutOfNumbers_iff (hr r (by simp))).1 hout).1
      · exact ih (fun r' h => hr r' (by simp [h])) (fun r' h => hneeds r' (by simp [h])) hout

/-- A record that needs a number takes the next one, as long as there is one. -/
theorem upsertOne_needsNumber (hr : r.IsValid) (hfit : ¬ r.IsUnfit) (hneeds : r.NeedsNumber)
    (hlt : s.lastHistoryId < Cell.maxInteger) :
    ∃ n t, s.upsertOne r = .ok (n, t) ∧ t.lastHistoryId = s.lastHistoryId + 1 ∧
      t.rows .master = s.rows .master := by
  cases h : s.upsertOne r with
  | error e =>
      rcases (upsertOne_error_iff hr).1 ⟨e, h⟩ with hunfit | ⟨-, hout⟩
      · exact absurd hunfit hfit
      · have hle := ((isOutOfNumbers_iff hr).1 hout).2
        omega
  | ok p =>
      obtain ⟨n, t⟩ := p
      obtain ⟨coach, key, -, hkey, -, rfl⟩ := upsertOne_ok h
      have hk := hneeds.1
      obtain ⟨i, rfl, ⟨x, hget, hi⟩ | ⟨-, rfl⟩⟩ := keyFor_history hr hk hkey
      · rcases hneeds.2 with hnull | hnan
        · rw [hnull] at hget
          cases hget
        · rw [hnan] at hget
          cases hget
          cases hi
      · refine ⟨n, _, rfl, ?_, ?_⟩
        · rw [hk]
          exact max_eq_right (Int.le_of_lt (Int.lt_succ _))
        · rw [rows_useKey, rows_withRows_of_ne]
          rw [hk]
          decide

/-- Records that need numbers take the next ones. -/
theorem upsertFrom_needsNumber {rs : List Record} (hr : ∀ r ∈ rs, r.IsValid)
    (hfit : ∀ r ∈ rs, ¬ r.IsUnfit) (hneeds : ∀ r ∈ rs, r.NeedsNumber)
    (hle : s.lastHistoryId + rs.length ≤ Cell.maxInteger) (count : Nat) :
    ∃ n t, s.upsertFrom count rs = .ok (n, t) ∧
      t.lastHistoryId = s.lastHistoryId + rs.length ∧ t.rows .master = s.rows .master := by
  induction rs generalizing s count with
  | nil => exact ⟨count, s, rfl, by simp, rfl⟩
  | cons r rs ih =>
      rw [List.length_cons] at hle
      obtain ⟨n, t, hone, hlast, hrows⟩ := upsertOne_needsNumber (s := s) (hr r (by simp))
        (hfit r (by simp)) (hneeds r (by simp)) (by omega)
      obtain ⟨m, u, hrest, hlast', hrows'⟩ := ih (s := t) (fun r' h => hr r' (by simp [h]))
        (fun r' h => hfit r' (by simp [h])) (fun r' h => hneeds r' (by simp [h]))
        (by omega) (count + n)
      refine ⟨m, u, (upsertFrom_cons_ok hone).trans hrest, ?_, hrows'.trans hrows⟩
      rw [hlast', hlast, List.length_cons]
      omega

end Store

namespace Work

variable {c d : Connection} {r : Record} {rs : List Record} {e : Store.Failure}

/-! ### Statement by statement -/

/-- A record that is refused leaves the open transactions alone, unless it finds no number. -/
theorem put_error (h : put r c = (.error e, d)) :
    d.saved = c.saved ∨
      ((r.identity? ≠ none ∧ c.tables.isOutOfNumbers r = true) ∧ c.GaveUp d) := by
  unfold put at h
  split at h
  · rw [← (Prod.mk.inj h).2]
    exact .inl rfl
  · rename_i hid
    rcases orAbandon_cases (fun s => s.isOutOfNumbers r)
      (statement .engine fun s => s.upsertOne r) c with ⟨a, d', -, ht⟩ | ⟨e', d', hw, ht⟩
    · rw [ht] at h
      cases h
    · rw [ht] at h
      obtain ⟨-, rfl⟩ := Prod.mk.inj h
      have hsaved : d'.saved = c.saved := (statement_restores hw).2
      cases hfull : c.tables.isOutOfNumbers r with
      | false => exact .inl hsaved
      | true =>
          simp only [if_true]
          rcases d'.abandoned_cases with ⟨-, hsame⟩ | ⟨hnil, hlast⟩
          · rw [hsame]
            exact .inl hsaved
          · refine .inr ⟨⟨by simpa using hid, trivial⟩, hnil, ?_⟩
            rw [← hsaved]
            exact hlast

/-- **What a failure on the way leaves open**: the transactions that were open, unless one of the
records finds no number. -/
theorem putAll_error {count : Nat} (h : putAll count rs c = (.error e, d)) :
    d.saved = c.saved ∨ (c.tables.RunsOut rs ∧ c.GaveUp d) := by
  induction rs generalizing c count with
  | nil => cases h
  | cons r rs ih =>
      cases hp : put r c with
      | mk a c' =>
          cases a with
          | error e' =>
              have hd := bind_of_error (k := fun n => putAll (count + n) rs) hp
              obtain ⟨-, rfl⟩ := Prod.mk.inj (hd.symm.trans h)
              exact (put_error hp).imp_right fun ⟨hout, hgave⟩ => ⟨.inl hout, hgave⟩
          | ok n =>
              have hd := bind_of_ok (k := fun n => putAll (count + n) rs) hp
              obtain ⟨hone, hsaved⟩ := (follows_put r).ok c n c' hp
              have hrest := ih (hd.symm.trans h)
              rw [hsaved] at hrest
              refine hrest.imp_right fun ⟨hout, hgave⟩ => ⟨.inr ⟨n, _, hone, hout⟩, ?_⟩
              rw [Connection.GaveUp, ← hsaved]
              exact hgave

/-- A record that finds no number undoes all transactions that are open. -/
theorem put_gaveUp (hc : c.faults = []) (hs : c.saved ≠ []) (hid : r.identity? ≠ none)
    (hr : r.IsValid) (hout : c.tables.isOutOfNumbers r = true) :
    ∃ e d, put r c = (.error e, d) ∧ c.GaveUp d := by
  obtain ⟨e, he⟩ := (Store.upsertOne_error_iff hr).2 (.inr ⟨hid, hout⟩)
  have hnot : c.isFaulty = false := by rw [Connection.isFaulty, hc]; rfl
  have hw : statement .engine (fun s => s.upsertOne r) c = (.error e, c.next) :=
    statement_of_error (fun s => s.upsertOne r) hnot he
  have hput : put r c = orAbandon (fun s => s.isOutOfNumbers r)
      (statement .engine fun s => s.upsertOne r) c := by
    unfold put
    rw [if_neg (by simpa using hid)]
  refine ⟨e, c.next.abandoned, ?_, ?_⟩
  · rw [hput, orAbandon, hw]
    simp only [hout, if_true]
  · rcases c.next.abandoned_cases with ⟨hnil, -⟩ | hgave
    · exact absurd hnil hs
    · exact hgave

theorem putAll_gaveUp (count : Nat) (hc : c.faults = []) (hs : c.saved ≠ [])
    (hr : ∀ r ∈ rs, r.IsValid) (hout : c.tables.RunsOut rs) :
    ∃ e d, putAll count rs c = (.error e, d) ∧ c.GaveUp d := by
  induction rs generalizing c count with
  | nil => exact hout.elim
  | cons r rs ih =>
      rcases hout with ⟨hid, hfull⟩ | ⟨n, t, hone, hout⟩
      · obtain ⟨e, d, hp, hgave⟩ := put_gaveUp hc hs hid (hr r (by simp)) hfull
        exact ⟨e, d, bind_of_error hp, hgave⟩
      · have hanswer := ((follows_put r).steady c hc).2
        rw [hone] at hanswer
        cases hp : put r c with
        | mk a c' =>
            rw [hp] at hanswer
            obtain rfl : a = .ok n := hanswer
            obtain ⟨hok, hsaved⟩ := (follows_put r).ok c n c' hp
            have htables : t = c'.tables := by
              rw [hone] at hok
              exact (Prod.mk.inj (Except.ok.inj hok)).2
            have hfaults := ((follows_put r).steady c hc).1
            rw [hp] at hfaults
            obtain ⟨e, d, hd, hgave⟩ := ih (count + n) hfaults (by rw [hsaved]; exact hs)
              (fun r' h => hr r' (by simp [h])) (htables ▸ hout)
            refine ⟨e, d, (bind_of_ok hp).trans hd, ?_⟩
            rw [Connection.GaveUp, ← hsaved]
            exact hgave

/-! ### All or none -/

/-- A transaction leaves nothing behind if its work leaves open what was open. -/
theorem transaction_error {ε α : Type} {engine e : ε} {w : Work ε α} {f : Action ε α}
    (h : Follows w f)
    (hopen : ∀ e d, w c.next.opened = (.error e, d) → d.saved = c.tables :: c.saved)
    (hd : transaction engine w c = (.error e, d)) : d.tables = c.tables ∧ d.saved = c.saved := by
  rcases transaction_cases engine w c with
    ⟨-, ht⟩ | ⟨e', d', hw, ht⟩ | ⟨a, d', hw, -, ht⟩ | ⟨a, d', -, ht⟩
  · rw [ht] at hd
    rw [← (Prod.mk.inj hd).2]
    exact ⟨rfl, rfl⟩
  · rw [ht] at hd
    rw [← (Prod.mk.inj hd).2, Connection.rollback_eq (hopen e' d' hw)]
    exact ⟨rfl, rfl⟩
  · rw [ht] at hd
    rw [← (Prod.mk.inj hd).2]
    exact h.rollback_next hw
  · rw [ht] at hd
    cases hd

/-- If the work of a transaction is given up, so are the transactions around it. -/
theorem transaction_gaveUp {ε α : Type} {engine e : ε} {w : Work ε α} (hc : c.faults = [])
    (hs : c.saved ≠ []) {d' : Connection} (hw : w c.next.opened = (.error e, d'))
    (hgave : c.next.opened.GaveUp d') : transaction engine w c = (.error e, d') ∧ c.GaveUp d' := by
  have hroll : d'.rollback = d' := by rw [Connection.rollback, hgave.1]
  constructor
  · rcases transaction_cases engine w c with
      ⟨hfault, -⟩ | ⟨e₁, d₁, hw₁, ht⟩ | ⟨a, d₁, hw₁, -⟩ | ⟨a, d₁, hw₁, -⟩
    · rw [Connection.isFaulty, hc] at hfault
      cases hfault
    · rw [hw] at hw₁
      obtain ⟨he, rfl⟩ := Prod.mk.inj hw₁
      rw [ht, hroll, he]
    · rw [hw] at hw₁
      cases hw₁
    · rw [hw] at hw₁
      cases hw₁
  · obtain ⟨t, ts, hts⟩ := List.exists_cons_of_ne_nil hs
    have hlast : (c.tables :: c.saved).getLast? = some d'.tables := hgave.2
    refine ⟨hgave.1, ?_⟩
    rwa [hts, List.getLast?_cons_cons, ← hts] at hlast

theorem upsert_eq_transaction (hne : rs ≠ []) :
    upsert rs = transaction .engine (putAll 0 rs) := by
  cases rs with
  | nil => exact absurd rfl hne
  | cons r rs => rfl

/-- A list that is refused leaves nothing behind unless numbers run out in an open transaction. -/
theorem upsert_restores (hsafe : c.saved = [] ∨ ¬ c.tables.RunsOut rs) (hne : rs ≠ [])
    (h : upsert rs c = (.error e, d)) : d.tables = c.tables ∧ d.saved = c.saved := by
  rw [upsert_eq_transaction hne] at h
  rcases hsafe with hnil | hno
  · rcases restores_transaction .engine (follows_putAll 0 rs) c e d h with hsame | hgave
    · exact hsame
    · exact absurd hgave (Connection.not_gaveUp hnil)
  · refine transaction_error (follows_putAll 0 rs) (fun e' d' hw => ?_) h
    rcases putAll_error hw with hsaved | ⟨hout, -⟩
    · exact hsaved
    · exact absurd hout hno

/-- If numbers run out in an open transaction, it is undone with all transactions around it. -/
theorem upsert_gaveUp (hc : c.faults = []) (hs : c.saved ≠ []) (hr : ∀ r ∈ rs, r.IsValid)
    (hout : c.tables.RunsOut rs) : ∃ e d, upsert rs c = (.error e, d) ∧ c.GaveUp d := by
  have hne : rs ≠ [] := by
    rintro rfl
    exact hout
  have hfaults : c.next.opened.faults = [] := by
    rw [Connection.opened, Connection.next, hc]
    rfl
  obtain ⟨e, d, hw, hgave⟩ := putAll_gaveUp 0 hfaults (List.cons_ne_nil _ _) hr hout
  rw [upsert_eq_transaction hne]
  exact ⟨e, d, transaction_gaveUp hc hs hw hgave⟩

/-- **Putting in a list with a record that is refused fails and leaves nothing behind**, wherever
in the list the record stands and whatever was written before it: the tables, with the next
number, and the open transactions are as they were.  The only exception is a record that finds no
number while a transaction is open, which is undone with all others. -/
theorem upsert_refused (c : Connection) {rs : List Record} (hr : ∀ r ∈ rs, r.IsValid)
    (hbad : (∃ r ∈ rs, r.IsUnfit) ∨ c.tables.RunsOut rs) :
    ∃ e d, upsert rs c = (.error e, d) ∧
      (c.saved = [] ∨ ¬ c.tables.RunsOut rs → d.tables = c.tables ∧ d.saved = c.saved) ∧
      (c.saved ≠ [] → c.tables.RunsOut rs → c.faults = [] → c.GaveUp d) := by
  obtain ⟨e₀, he₀⟩ := (Store.upsert_error_iff hr).2 hbad
  have hne : rs ≠ [] := by
    rintro rfl
    cases he₀
  cases h : upsert rs c with
  | mk a d =>
      cases a with
      | ok n =>
          -- The work does what the function of the tables does, which fails.
          obtain ⟨hok, -⟩ := (follows_upsert rs).ok c n d h
          rw [he₀] at hok
          cases hok
      | error e =>
          refine ⟨e, d, rfl, fun hsafe => upsert_restores hsafe hne h, ?_⟩
          intro hs hout hc
          obtain ⟨e', d', h', hgave⟩ := upsert_gaveUp hc hs hr hout
          obtain ⟨-, rfl⟩ := Prod.mk.inj (h'.symm.trans h)
          exact hgave

/-- A history record with a number past all that a row can have. -/
def unfitRecord : Record :=
  Store.recordOf .history "id" (.number (.ofInt 9223372036854775808))

theorem isValid_unfitRecord : unfitRecord.IsValid :=
  Store.isValid_recordOf (f := ⟨"id", .number⟩) (by decide) rfl

theorem isUnfit_unfitRecord : unfitRecord.IsUnfit := by
  refine .inr (.inr ⟨by decide +kernel, .ofInt 9223372036854775808, by decide +kernel,
    by decide, ?_⟩)
  intro i hi
  have hint : (Binary64.ofInt 9223372036854775808).integer? = some 9223372036854775808 := by
    decide +kernel
  rw [hint] at hi
  obtain rfl := Option.some.inj hi
  exact .inr (by decide)

theorem isFit_lateRecord : ¬ Store.lateRecord.IsUnfit := by
  have hcoach : Store.lateRecord.get CoachLedger.identityField = .text "C1" := by decide
  have hid : Store.lateRecord.get RecordKind.history.keyField = .null := by decide
  rintro (h | ⟨s, hs, hnul⟩ | ⟨-, x, hx, -⟩)
  · exact absurd h (by decide)
  · rw [hcoach] at hs
    obtain rfl := Value.text.inj hs
    exact absurd hnul (by decide)
  · rw [hid] at hx
    cases hx

theorem needsNumber_lateRecord : Store.lateRecord.NeedsNumber :=
  ⟨by decide, .inl (by decide)⟩

/-- A list with a record that is refused, after one that was given a number, leaves nothing behind
inside of a transaction. -/
theorem upsert_refused_unfit :
    let c : Connection := ⟨Store.filled Store.lastExactRecords, [.fresh], []⟩
    let rs : List Record := [Store.lateRecord, unfitRecord]
    ((∀ r ∈ rs, r.IsValid) ∧ ((∃ r ∈ rs, r.IsUnfit) ∨ c.tables.RunsOut rs)) ∧
      ∃ e d, upsert rs c = (.error e, d) ∧ d.tables = c.tables ∧ d.saved = c.saved := by
  intro c rs
  have hvalid : ∀ r ∈ rs, r.IsValid := by
    simp [rs, Store.isValid_lateRecord, isValid_unfitRecord]
  have hunfit : ∃ r ∈ rs, r.IsUnfit := ⟨unfitRecord, by simp [rs], isUnfit_unfitRecord⟩
  have hno : ¬ c.tables.RunsOut rs := by
    rintro (⟨-, hout⟩ | ⟨n, t, -, hout⟩)
    · exact absurd hout (by decide +kernel)
    · have hneeds : ¬ unfitRecord.NeedsNumber := by
        unfold Record.NeedsNumber
        decide
      exact Store.not_runsOut (List.forall_mem_singleton.2 isValid_unfitRecord)
        (List.forall_mem_singleton.2 hneeds) hout
  obtain ⟨e, d, hd, hsame, -⟩ := upsert_refused c hvalid (.inl hunfit)
  exact ⟨⟨hvalid, .inl hunfit⟩, e, d, hd, hsame (.inr hno)⟩

/-! ### When the numbers are used up -/

/-- A record with the greatest number that a history record can set, and as many records without a
number as there are numbers left. -/
def lastRecords : List Record :=
  Store.recordOf .history "id" (.number (.ofInt 9223372036854774784)) ::
    List.replicate 1023 Store.lateRecord

theorem isValid_lastRecords : ∀ r ∈ lastRecords, r.IsValid := by
  intro r hr
  rcases List.mem_cons.1 hr with rfl | hr
  · exact Store.isValid_recordOf (f := ⟨"id", .number⟩) (by decide) rfl
  · rw [List.eq_of_mem_replicate hr]
    exact Store.isValid_lateRecord

/-- They use up the numbers of a new store. -/
theorem upsert_lastRecords :
    ∃ n t, Store.fresh.upsert lastRecords = .ok (n, t) ∧ t.lastHistoryId = Cell.maxInteger ∧
      t.rows .master = [] := by
  have hfirst : (Store.fresh.upsertOne
      (Store.recordOf .history "id" (.number (.ofInt 9223372036854774784)))).toOption.map
        (fun p => (p.2.lastHistoryId, p.2.rows .master)) = some (9223372036854774784, []) := by
    decide +kernel
  cases h : Store.fresh.upsertOne
      (Store.recordOf .history "id" (.number (.ofInt 9223372036854774784))) with
  | error e =>
      rw [h] at hfirst
      cases hfirst
  | ok p =>
      obtain ⟨n, s⟩ := p
      rw [h] at hfirst
      obtain ⟨hlast, hmaster⟩ := Prod.mk.inj (Option.some.inj hfirst)
      have hlate {P : Record → Prop} (hp : P Store.lateRecord) :
          ∀ r ∈ List.replicate 1023 Store.lateRecord, P r := by
        intro r hr
        rwa [List.eq_of_mem_replicate hr]
      obtain ⟨m, t, hrest, hlast', hmaster'⟩ := Store.upsertFrom_needsNumber (s := s)
        (hlate Store.isValid_lateRecord) (hlate isFit_lateRecord) (hlate needsNumber_lateRecord)
        (by rw [hlast, List.length_replicate]; decide) (0 + n)
      refine ⟨m, t, (Store.upsertFrom_cons_ok h).trans hrest, ?_, hmaster'.trans hmaster⟩
      rw [hlast', hlast, List.length_replicate]
      decide

/-- A store whose numbers are used up. -/
def usedUp : Store := Store.filled lastRecords

theorem usedUp_spec :
    usedUp.Reachable ∧ usedUp.lastHistoryId = Cell.maxInteger ∧ usedUp.rows .master = [] := by
  obtain ⟨n, t, h, hlast, hmaster⟩ := upsert_lastRecords
  have hfilled : usedUp = t := by
    unfold usedUp Store.filled
    rw [h]
  refine ⟨Store.reachable_filled isValid_lastRecords (by rw [h]; rfl), ?_, ?_⟩
  · rw [hfilled, hlast]
  · rw [hfilled, hmaster]

/-- A master record with a remark. -/
def remarkedMaster : Record :=
  Store.recordOf .master "remarks" (.text "new")

theorem isValid_remarkedMaster : remarkedMaster.IsValid :=
  Store.isValid_recordOf (f := ⟨"remarks", .text⟩) (by decide) rfl

theorem isFit_remarkedMaster : ¬ remarkedMaster.IsUnfit := by
  have hcoach : remarkedMaster.get CoachLedger.identityField = .text "C1" := by decide
  rintro (h | ⟨s, hs, hnul⟩ | ⟨hk, -⟩)
  · exact absurd h (by decide)
  · rw [hcoach] at hs
    obtain rfl := Value.text.inj hs
    exact absurd hnul (by decide)
  · exact absurd hk (by decide)

/-- The coach can be added to every store, and no number is used for that. -/
theorem upsertOne_remarkedMaster {s : Store} (hs : s.Reachable) :
    ∃ n t, s.upsertOne remarkedMaster = .ok (n, t) ∧ t.knows "C1" = true ∧
      t.lastHistoryId = s.lastHistoryId := by
  cases h : s.upsertOne remarkedMaster with
  | error e =>
      rcases (Store.upsertOne_error_iff isValid_remarkedMaster).1 ⟨e, h⟩ with hunfit | ⟨-, hout⟩
      · exact absurd hunfit isFit_remarkedMaster
      · have hneeds := ((Store.isOutOfNumbers_iff isValid_remarkedMaster).1 hout).1
        exact absurd hneeds.1 (by decide)
  | ok p =>
      obtain ⟨n, t⟩ := p
      have hfrom : s.upsertFrom 0 [remarkedMaster] = .ok (0 + n, t) := Store.upsertFrom_cons_ok h
      have hknows : t.knows "C1" = true := by
        refine Store.knows_upsertFrom (Store.isSound_of_reachable hs)
          (List.forall_mem_singleton.2 isValid_remarkedMaster) hfrom ?_
        exact .inr ⟨remarkedMaster, by simp, by decide, by decide⟩
      refine ⟨n, t, rfl, hknows, ?_⟩
      obtain ⟨coach, key, -, -, -, rfl⟩ := Store.upsertOne_ok h
      cases key <;> rfl

/-- Inside of one transaction a coach is added, and then a history record finds no number. -/
theorem upsert_late {s : Store} (hs : s.Reachable) (hlast : s.lastHistoryId = Cell.maxInteger) :
    ∃ n e c d, upsert [remarkedMaster] ⟨s, [s], []⟩ = (.ok n, c) ∧
      c.tables.knows "C1" = true ∧ c.saved = [s] ∧
      upsert [Store.lateRecord] c = (.error e, d) ∧ c.GaveUp d := by
  obtain ⟨n, t, hone, hknows, hlast'⟩ := upsertOne_remarkedMaster hs
  have hfrom : s.upsert [remarkedMaster] = .ok (0 + n, t) := Store.upsertFrom_cons_ok hone
  obtain ⟨hfaults, hanswer⟩ := (follows_upsert [remarkedMaster]).steady ⟨s, [s], []⟩ rfl
  cases hw : upsert [remarkedMaster] ⟨s, [s], []⟩ with
  | mk a c =>
      rw [hw] at hfaults hanswer
      dsimp only at hanswer
      rw [hfrom] at hanswer
      obtain rfl : a = .ok (0 + n) := hanswer
      obtain ⟨hok, hsaved⟩ := (follows_upsert [remarkedMaster]).ok _ _ c hw
      dsimp only at hok
      rw [hfrom] at hok
      obtain rfl : t = c.tables := (Prod.mk.inj (Except.ok.inj hok)).2
      have hout : c.tables.RunsOut [Store.lateRecord] := by
        refine .inl ⟨by decide, ?_⟩
        rw [Store.isOutOfNumbers_iff Store.isValid_lateRecord, hlast', hlast]
        exact ⟨needsNumber_lateRecord, le_refl _⟩
      have hopen : c.saved ≠ [] := by
        rw [hsaved]
        exact List.cons_ne_nil _ _
      obtain ⟨e, d, hd, hgave⟩ := upsert_gaveUp hfaults hopen
        (List.forall_mem_singleton.2 Store.isValid_lateRecord) hout
      exact ⟨0 + n, e, c, d, rfl, hknows, hsaved, hd, hgave⟩

/-- **A history record that finds no number undoes what its caller wrote before**: the coach that
was added inside of the same transaction is gone, and so is the transaction. -/
theorem upsert_abandons :
    usedUp.Reachable ∧ remarkedMaster.IsValid ∧ Store.lateRecord.IsValid ∧
      ∃ n e c d, upsert [remarkedMaster] ⟨usedUp, [usedUp], []⟩ = (.ok n, c) ∧
        c.tables.knows "C1" = true ∧ c.saved = [usedUp] ∧
        upsert [Store.lateRecord] c = (.error e, d) ∧
        d.tables.knows "C1" = false ∧ d.saved = [] := by
  obtain ⟨hreach, hlast, hmaster⟩ := usedUp_spec
  obtain ⟨n, e, c, d, hc, hknows, hsaved, hd, hnil, hfirst⟩ := upsert_late hreach hlast
  refine ⟨hreach, isValid_remarkedMaster, Store.isValid_lateRecord, n, e, c, d, hc, hknows, hsaved,
    hd, ?_, hnil⟩
  rw [hsaved, List.getLast?_singleton] at hfirst
  have htables : d.tables = usedUp := (Option.some.inj hfirst).symm
  rw [htables, Store.knows_eq_isSome (Store.isSound_of_reachable hreach), hmaster]
  rfl

end Work

end CoachLedger
