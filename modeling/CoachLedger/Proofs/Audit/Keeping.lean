/-
**What is kept of an audit row.**

A row is answered with the fragments of its change, and kept with their texts.  What is listed later
is read from these texts, and it can differ from what was answered.  A fragment that is null is kept
as nothing, so that it is no longer there.  A number in a fragment need not be read as it was written.
And a fragment with a member of the reserved name may not be read at all, and is then not there either.

In a row that is listed, a value that is missing therefore tells that nothing has changed, or that the
fragment is null, or that it cannot be read.  Fragments of plain values can be read, so that the first
two are told apart by the other side, which is not null.

Main definitions:

* `CoachLedger.Json.IsKept` — a value that is read again as it is;
* `CoachLedger.Audit.recalled?`, `CoachLedger.Audit.Row.listed` — what is read of a value, and of the
  values of a row, after they have been kept;
* `CoachLedger.Audit.TellsChange` — a row tells whether there is a change, and which side is null.

Main results:

* `CoachLedger.Audit.listed_eq_self_iff` — **when a row is listed as it was answered**;
* `CoachLedger.Audit.tellsChange_listed_iff` — **when a row that is listed tells whether there is a
  change**;
* `CoachLedger.Audit.isKept_of_mem_fields` — fragments that show one field are kept, unless it has a
  number.
-/

import CoachLedger.Proofs.Audit.Fragments
import CoachLedger.Proofs.Ledger.WorkflowAudit

set_option autoImplicit false

namespace CoachLedger

/-- The value is read again as it is: it is not null, which is kept as nothing, and its text denotes
it. -/
structure Json.IsKept (v : Json) : Prop where
  present : v.isNull = false
  read : Json.read? v.text = some v

theorem Json.isNull_iff {v : Json} : v.isNull = true ↔ v = .null := by
  cases v <;> simp [Json.isNull]

namespace Audit

variable {o : Options} {old new v : Json} {c : Change} {change : Option Change} {row : Row}
  {id : Nat} {entry : Entry}

/-! ### Values that are kept -/

/-- What is read of a value after it has been kept. -/
def recalled? (v : Json) : Option Json :=
  ofKeptText (keptText v)

theorem recalled?_eq (v : Json) :
    recalled? v = if v.isNull then none else Json.read? v.text := by
  rw [recalled?, keptText]
  cases v.isNull <;> rfl

/-- Nothing is read of null, and of a value whose text cannot be read. -/
theorem recalled?_eq_none_iff :
    recalled? v = none ↔ v = .null ∨ Json.read? v.text = none := by
  rw [recalled?_eq, ite_eq_left_iff, ← Json.isNull_iff, or_iff_not_imp_left]

theorem recalled?_eq_self_iff : recalled? v = some v ↔ v.IsKept := by
  rw [recalled?_eq, Option.ite_none_left_eq_some, Bool.not_eq_true]
  exact ⟨fun h => ⟨h.1, h.2⟩, fun h => ⟨h.present, h.read⟩⟩

/-- A legible value is kept if it is not null and its numbers are read as they are. -/
theorem isKept_iff (h : v.IsLegible Json.maxDepth) :
    v.IsKept ↔ v.isNull = false ∧ v.reread = v := by
  have hread := h.read?_text
  constructor
  · intro hkept
    exact ⟨hkept.present, Option.some.inj (hread.symm.trans hkept.read)⟩
  · rintro ⟨hpresent, heq⟩
    exact ⟨hpresent, hread.trans (congrArg some heq)⟩

/-! ### Rows that are listed -/

/-- The row as it is listed. -/
def Row.listed (row : Row) : Row :=
  ⟨row.id, row.entry, row.oldValues.bind recalled?, row.newValues.bind recalled?⟩

theorem shown_keptRow (row : Row) : (Ledger.keptRow row).shown = row.listed := by
  obtain ⟨id, entry, oldValues, newValues⟩ := row
  cases oldValues <;> cases newValues <;> rfl

/-- **A row is listed as it was answered if each of its values is kept.** -/
theorem listed_eq_self_iff :
    row.listed = row ↔ (∀ v ∈ row.oldValues, v.IsKept) ∧ ∀ v ∈ row.newValues, v.IsKept := by
  have hbind (a : Option Json) : a.bind recalled? = a ↔ ∀ v ∈ a, v.IsKept := by
    cases a with
    | none => exact iff_of_true rfl fun v hv => by cases hv
    | some v =>
        rw [Option.bind_some, recalled?_eq_self_iff]
        exact ⟨fun h w hw => Option.some.inj hw ▸ h, fun h => h v rfl⟩
  rw [← hbind, ← hbind, Row.listed]
  constructor
  · intro h
    exact ⟨congrArg Row.oldValues h, congrArg Row.newValues h⟩
  · rintro ⟨hold, hnew⟩
    rw [hold, hnew]

/-- The row of a change. -/
def rowOf (id : Nat) (entry : Entry) (change : Option Change) : Row :=
  ⟨id, entry, change.map Change.old, change.map Change.new⟩

/-! ### What a row tells of a change -/

/-- The row tells whether there is a change, and which of its fragments is null: it has no values
just if there is no change, and the value that a change lacks is null. -/
structure TellsChange (change : Option Change) (row : Row) : Prop where
  unchanged : row.oldValues = none ∧ row.newValues = none ↔ change = none
  old : ∀ c ∈ change, row.oldValues = none ↔ c.old = .null
  new : ∀ c ∈ change, row.newValues = none ↔ c.new = .null

/-- The texts of both fragments can be read. -/
structure Change.IsReadable (c : Change) : Prop where
  old : (Json.read? c.old.text).isSome = true
  new : (Json.read? c.new.text).isSome = true

theorem Change.IsLegible.isReadable (h : c.IsLegible Json.maxDepth) : c.IsReadable :=
  ⟨by rw [h.old.read?_text]; rfl, by rw [h.new.read?_text]; rfl⟩

/-- Nothing is read of a fragment just if it is null, if it can be read. -/
theorem recalled?_eq_none_iff_null :
    (recalled? v = none ↔ v = .null) ↔ (Json.read? v.text).isSome = true := by
  rw [recalled?_eq_none_iff, or_iff_left_iff_imp, ← Option.not_isSome_iff_eq_none]
  constructor
  · intro h
    by_contra hread
    rw [h hread] at hread
    have hnull : Json.IsLegible Json.maxDepth .null := .null
    exact hread (by rw [hnull.read?_text]; rfl)
  · exact fun hread hnot => absurd hread hnot

/-- **A row that is listed tells whether there is a change, just if the fragments can be read.** -/
theorem tellsChange_listed_iff :
    TellsChange (change? o old new) (rowOf id entry (change? o old new)).listed ↔
      ∀ c ∈ change? o old new, c.IsReadable := by
  cases hc : change? o old new with
  | none =>
      refine iff_of_true ⟨iff_of_true ⟨rfl, rfl⟩ rfl, ?_, ?_⟩ fun c hc => by cases hc
      all_goals exact fun c hc => by cases hc
  | some c =>
      simp only [Option.mem_some_iff, forall_eq']
      constructor
      · intro h
        exact ⟨recalled?_eq_none_iff_null.1 (h.old c rfl), recalled?_eq_none_iff_null.1 (h.new c rfl)⟩
      · intro h
        have hold := recalled?_eq_none_iff_null.2 h.old
        have hnew := recalled?_eq_none_iff_null.2 h.new
        refine ⟨iff_of_false ?_ (Option.some_ne_none c), ?_, ?_⟩
        · rintro ⟨ho, hn⟩
          -- Not both fragments are null.
          obtain ⟨hold', hnew', hone⟩ := isNull_change? hc
          rw [← hold', ← hnew', hold.1 ho, hnew.1 hn] at hone
          cases hone rfl
        · exact fun d hd => Option.some.inj hd ▸ hold
        · exact fun d hd => Option.some.inj hd ▸ hnew

/-! ### Rows of plain values -/

/-- Only values that are both null, or both not null, can be equal. -/
theorem isNull_eq_of_change?_eq_none (h : change? o old new = none) : old.isNull = new.isNull := by
  unfold change? at h
  split at h
  · rename_i hsame
    cases old <;> cases new <;> first | rfl | cases hsame
  · split at h
    · rfl
    · rfl
    · cases h

/-- **A row of plain values is listed as it was answered** if it is not about null on one side, and
the numbers that it shows are read as they are. -/
theorem listed_rowOf_eq_self_iff (hold : old.IsCounted Json.maxDepth)
    (hnew : new.IsCounted Json.maxDepth) :
    (rowOf id entry (change? o old new)).listed = rowOf id entry (change? o old new) ↔
      old.isNull = new.isNull ∧
        ∀ c ∈ change? o old new, c.old.reread = c.old ∧ c.new.reread = c.new := by
  rw [listed_eq_self_iff]
  cases hc : change? o old new with
  | none =>
      refine iff_of_true ⟨?_, ?_⟩ ⟨isNull_eq_of_change?_eq_none hc, ?_⟩
      all_goals exact fun _ h => by cases h
  | some c =>
      obtain ⟨hold', hnew', hone⟩ := isNull_change? hc
      have hlegible := isLegible_change? hold hnew hc
      have hnull : old.isNull = new.isNull ↔ old.isNull = false ∧ new.isNull = false := by
        cases ho : old.isNull with
        | false => rw [eq_comm, and_iff_right rfl]
        | true => simp [hone ho]
      simp only [rowOf, Option.map_some, Option.mem_some_iff, forall_eq']
      rw [isKept_iff hlegible.old, isKept_iff hlegible.new, hold', hnew', hnull]
      exact and_and_and_comm

/-- What is listed of a row of plain values: the fragments that are not null, reread. -/
theorem listed_rowOf (hold : old.IsCounted Json.maxDepth) (hnew : new.IsCounted Json.maxDepth) :
    (rowOf id entry (change? o old new)).listed =
      ⟨id, entry, (change? o old new).bind fun c => if old.isNull then none else some c.old.reread,
        (change? o old new).bind fun c => if new.isNull then none else some c.new.reread⟩ := by
  cases hc : change? o old new with
  | none => rfl
  | some c =>
      obtain ⟨hold', hnew', -⟩ := isNull_change? hc
      have hlegible := isLegible_change? hold hnew hc
      rw [Row.listed, rowOf, Option.map_some, Option.map_some, Option.bind_some, Option.bind_some,
        Option.bind_some, Option.bind_some, recalled?_eq, recalled?_eq, hlegible.old.read?_text,
        hlegible.new.read?_text, hold', hnew']

/-! ### Fragments of fields -/

/-- A value that is no number is read again as it is. -/
theorem isPlain_toJson {w : Value} (h : w.kind? ≠ some .number) {sized : Nat → Prop} {depth : Nat} :
    w.toJson.IsPlain sized depth ∧ w.toJson.reread = w.toJson := by
  cases w with
  | null => exact ⟨.null, rfl⟩
  | text s => exact ⟨.string s, rfl⟩
  | number x => exact absurd rfl h
  | date d => exact ⟨.string d.text, rfl⟩
  | boolean b => exact ⟨.bool b, rfl⟩

/-- **Fragments that show one field are kept**, if the field has no number and its name is neither
that of the tag nor the reserved one. -/
theorem isKept_of_mem_fields {coaches : List String} {field : String} {f : String → Value}
    (htag : field ≠ tagField) (hreserved : field ≠ Json.embeddingName)
    (hvalue : ∀ coach ∈ coaches, (f coach).kind? ≠ some .number) :
    ∀ v ∈ arrayOf? (coaches.map fun coach => fieldFragment coach field (f coach).toJson),
      v.IsKept := by
  have hfragment (coach : String) (hcoach : coach ∈ coaches) :
      (fieldFragment coach field (f coach).toJson).IsLegible (Json.maxDepth - 1) ∧
        (fieldFragment coach field (f coach).toJson).reread =
          fieldFragment coach field (f coach).toJson := by
    obtain ⟨hplain, hreread⟩ := isPlain_toJson (hvalue coach hcoach)
    refine ⟨.object ?_ ?_ ?_, ?_⟩
    · simpa using htag.symm
    · simpa using ⟨tagField_ne_embeddingName, hreserved⟩
    · simpa using ⟨.string coach, hplain⟩
    · rw [fieldFragment, Json.reread, Json.rereadMembers_eq, List.map_cons, List.map_cons,
        hreread]
      rfl
  intro v hv
  cases coaches with
  | nil => cases hv
  | cons coach coaches =>
      obtain rfl := Option.some.inj hv
      have hlegible : (Json.array ((coach :: coaches).map fun coach =>
          fieldFragment coach field (f coach).toJson)).IsLegible Json.maxDepth :=
        .array trivial (List.forall_mem_map.2 fun coach hcoach => (hfragment coach hcoach).1)
      refine (isKept_iff hlegible).2 ⟨rfl, ?_⟩
      rw [Json.reread, Json.rereadItems_eq, List.map_map]
      exact congrArg Json.array (List.map_congr_left fun coach hcoach => (hfragment coach hcoach).2)

end Audit

end CoachLedger
