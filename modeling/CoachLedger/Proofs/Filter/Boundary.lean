/-
**What passes the filter boundary.**

A filter passes if its text is not too large and is, without the blanks around it, empty or a list
of conditions, not too many and each on a column of the kind.  Of the checks that a filter fails,
the first one is reported.  Whatever passes, and whatever a lenient search makes of a text,
compiles to a predicate that looks at columns of the kind alone, so that no search and no count
with it is rejected for its columns.

Main definitions:

* `CoachLedger.Filter.IsAdmitted` — a text passes the checks with some conditions;
* `CoachLedger.Filter.IsRejected` — a check that a text fails when it has passed those before it;
* `CoachLedger.Filter.IsSafe` — a predicate that no search and no count rejects for its columns.

Main results:

* `CoachLedger.Filter.parse_eq_ok`, `CoachLedger.Filter.parse_eq_error` — **what passes, and why the
  rest does not**;
* `CoachLedger.Filter.isSafe_compileFor` — conditions that pass are safe to search with;
* `CoachLedger.Filter.parse_admitsSafeFilters` — the boundary admits safe filters only, and higher
  limits admit no less.
-/

import CoachLedger.Ledger.Calls
import CoachLedger.Proofs.Filter.Reading
import CoachLedger.Proofs.Filter.Search

set_option autoImplicit false

namespace CoachLedger.Filter

variable {kind : RecordKind} {limits : Limits} {text : String} {cs : List Condition}

/-! ### What passes -/

/-- The text passes the checks with these conditions. -/
structure IsAdmitted (kind : RecordKind) (limits : Limits) (text : String) (cs : List Condition) :
    Prop where
  size : text.utf8ByteSize ≤ limits.maxJsonBytes
  form : Text.trim text = "" ∧ cs = [] ∨ IsConditionList (Text.trim text) cs
  count : cs.length ≤ limits.maxConditions
  columns : ∀ c ∈ cs, kind.has c.column = true

/-- The text passes some of the checks and fails the next one. -/
inductive IsRejected (kind : RecordKind) (limits : Limits) (text : String) : Rejection → Prop
  | tooLarge : limits.maxJsonBytes < text.utf8ByteSize →
      IsRejected kind limits text (.tooLarge text.utf8ByteSize limits.maxJsonBytes)
  | invalidJson (fault : Fault) : text.utf8ByteSize ≤ limits.maxJsonBytes →
      Text.trim text ≠ "" → (∀ cs, ¬ IsConditionList (Text.trim text) cs) →
      readConditions (Text.trim text) = .error fault →
      IsRejected kind limits text (.invalidJson fault)
  | tooMany (cs : List Condition) : text.utf8ByteSize ≤ limits.maxJsonBytes →
      IsConditionList (Text.trim text) cs → limits.maxConditions < cs.length →
      IsRejected kind limits text (.tooMany cs.length limits.maxConditions)
  /-- The column of `c` is the first one that is no field of the kind. -/
  | invalidColumn (before after : List Condition) (c : Condition) :
      text.utf8ByteSize ≤ limits.maxJsonBytes →
      IsConditionList (Text.trim text) (before ++ c :: after) →
      (before ++ c :: after).length ≤ limits.maxConditions →
      (∀ b ∈ before, kind.has b.column = true) → kind.has c.column = false →
      IsRejected kind limits text (.invalidColumn kind c.column)

/-- A list of conditions is not empty as a text. -/
theorem not_isConditionList_empty (cs : List Condition) : ¬ IsConditionList "" cs := by
  rintro ⟨items, houtline, -⟩
  have hroot : (Json.outline "").root = .fault := rfl
  rw [houtline] at hroot
  cases hroot

theorem foreign?_eq_none : foreign? kind cs = none ↔ ∀ c ∈ cs, kind.has c.column = true := by
  simp [foreign?, List.find?_eq_none]

theorem foreign?_eq_some {c : Condition} :
    foreign? kind cs = some c ↔ ∃ before after, cs = before ++ c :: after ∧
      (∀ b ∈ before, kind.has b.column = true) ∧ kind.has c.column = false := by
  rw [foreign?, List.find?_eq_some_iff_append]
  constructor
  · rintro ⟨hc, before, after, rfl, hbefore⟩
    exact ⟨before, after, rfl, by simpa using hbefore, by simpa using hc⟩
  · rintro ⟨before, after, rfl, hbefore, hc⟩
    exact ⟨by simpa using hc, before, after, rfl, by simpa using hbefore⟩

/-- What comes of a list of conditions: it passes, or is rejected for its length or its first column
that is no field of the kind. -/
theorem parse_cases (kind : RecordKind) (limits : Limits) (text : String) :
    (∃ cs, parse kind limits text = .ok cs ∧ IsAdmitted kind limits text cs) ∨
      ∃ e, parse kind limits text = .error e ∧ IsRejected kind limits text e := by
  unfold parse
  split
  · rename_i hsize
    exact .inr ⟨_, rfl, .tooLarge hsize⟩
  · rename_i hsize
    rw [Nat.not_lt] at hsize
    dsimp only
    split
    · rename_i hblank
      exact .inl ⟨[], rfl, hsize, .inl ⟨hblank, rfl⟩, Nat.zero_le _,
        fun c hc => absurd hc List.not_mem_nil⟩
    · rename_i hblank
      split
      · rename_i fault hread
        refine .inr ⟨_, rfl, .invalidJson fault hsize hblank ?_ hread⟩
        intro cs hcs
        rw [readConditions_eq_ok.2 hcs] at hread
        cases hread
      · rename_i cs hread
        have hlist := readConditions_eq_ok.1 hread
        unfold accept
        split
        · rename_i hcount
          exact .inr ⟨_, rfl, .tooMany cs hsize hlist hcount⟩
        · rename_i hcount
          rw [Nat.not_lt] at hcount
          split
          · rename_i c hforeign
            obtain ⟨before, after, rfl, hbefore, hc⟩ := foreign?_eq_some.1 hforeign
            exact .inr ⟨_, rfl, .invalidColumn before after c hsize hlist hcount hbefore hc⟩
          · rename_i hforeign
            exact .inl ⟨cs, rfl, hsize, .inr hlist, hcount, foreign?_eq_none.1 hforeign⟩

/-- A list of conditions that is not too large is left to the checks on lists. -/
theorem parse_of_isConditionList (hsize : text.utf8ByteSize ≤ limits.maxJsonBytes)
    (hlist : IsConditionList (Text.trim text) cs) :
    parse kind limits text = accept kind limits cs := by
  have hblank : Text.trim text ≠ "" := by
    intro hempty
    rw [hempty] at hlist
    exact not_isConditionList_empty cs hlist
  rw [parse, if_neg (Nat.not_lt.2 hsize)]
  dsimp only
  rw [if_neg hblank, readConditions_eq_ok.2 hlist]

theorem parse_of_isAdmitted (h : IsAdmitted kind limits text cs) :
    parse kind limits text = .ok cs := by
  rcases h.form with ⟨hblank, rfl⟩ | hlist
  · rw [parse, if_neg (Nat.not_lt.2 h.size)]
    exact if_pos hblank
  · rw [parse_of_isConditionList h.size hlist, accept, if_neg (Nat.not_lt.2 h.count),
      foreign?_eq_none.2 h.columns]

theorem parse_of_isRejected {e : Rejection} (h : IsRejected kind limits text e) :
    parse kind limits text = .error e := by
  cases h with
  | tooLarge hsize => rw [parse, if_pos hsize]
  | invalidJson fault hsize hblank _ hread =>
      rw [parse, if_neg (Nat.not_lt.2 hsize)]
      dsimp only
      rw [if_neg hblank, hread]
  | tooMany cs hsize hlist hcount =>
      rw [parse_of_isConditionList hsize hlist, accept, if_pos hcount]
  | invalidColumn before after c hsize hlist hcount hbefore hc =>
      have hforeign : foreign? kind (before ++ c :: after) = some c :=
        foreign?_eq_some.2 ⟨before, after, rfl, hbefore, hc⟩
      rw [parse_of_isConditionList hsize hlist, accept, if_neg (Nat.not_lt.2 hcount), hforeign]

/-- **What passes the checks.** -/
theorem parse_eq_ok : parse kind limits text = .ok cs ↔ IsAdmitted kind limits text cs := by
  refine ⟨fun h => ?_, parse_of_isAdmitted⟩
  rcases parse_cases kind limits text with ⟨ds, hparse, hds⟩ | ⟨e, hparse, -⟩
  · obtain rfl := Except.ok.inj (h.symm.trans hparse)
    exact hds
  · rw [h] at hparse
    cases hparse

/-- **Why the rest does not pass.** -/
theorem parse_eq_error {e : Rejection} :
    parse kind limits text = .error e ↔ IsRejected kind limits text e := by
  refine ⟨fun h => ?_, parse_of_isRejected⟩
  rcases parse_cases kind limits text with ⟨ds, hparse, -⟩ | ⟨x, hparse, hx⟩
  · rw [h] at hparse
    cases hparse
  · obtain rfl := Except.error.inj (h.symm.trans hparse)
    exact hx

/-- Higher limits admit no less. -/
theorem IsAdmitted.mono {higher : Limits} (h : IsAdmitted kind limits text cs)
    (hsize : limits.maxJsonBytes ≤ higher.maxJsonBytes)
    (hcount : limits.maxConditions ≤ higher.maxConditions) :
    IsAdmitted kind higher text cs :=
  ⟨h.size.trans hsize, h.form, h.count.trans hcount, h.columns⟩

/-! ### What is searched with -/

/-- The predicate looks at columns of the kind alone, so that neither a search nor a count with it
is rejected for a column, on whatever connection. -/
structure IsSafe (kind : RecordKind) (p : Predicate) : Prop where
  columns : ∀ column ∈ p.mentioned, kind.has column = true
  search : ∀ (limit offset : Nat) (c : Connection) (k : RecordKind) (column : String),
    (Work.search kind p limit offset c).1 ≠ .error (.unknownColumn k column)
  count : ∀ (c : Connection) (k : RecordKind) (column : String),
    (Work.count kind p c).1 ≠ .error (.unknownColumn k column)

/-- Reading fails only if the engine fails the statement, provided that what is read does. -/
theorem read_eq_engine {α : Type} {f : Store → Except Store.Failure α}
    (hf : ∀ s e, f s = .error e → e = .engine) {c : Connection} {e : Store.Failure}
    (h : (Work.read f c).1 = .error e) : e = .engine := by
  unfold Work.read Work.statement Work.ask at h
  split at h
  · exact (Except.error.inj h).symm
  · dsimp only at h
    cases hr : f c.next.tables with
    | ok a =>
        rw [hr] at h
        cases h
    | error x =>
        rw [hr] at h
        rw [← Except.error.inj h]
        exact hf _ x hr

/-- **A predicate on columns of the kind is safe.** -/
theorem isSafe_of_columns {p : Predicate}
    (hcols : ∀ column ∈ p.mentioned, kind.has column = true) : IsSafe kind p := by
  refine ⟨hcols, ?_, ?_⟩
  · intro limit offset c k column h
    rw [Work.search, Store.foreignColumn?_eq_none hcols] at h
    cases read_eq_engine (fun s e he => Store.search_eq_engine hcols he) h
  · intro c k column h
    rw [Work.count, Store.foreignColumn?_eq_none hcols] at h
    cases read_eq_engine (fun s e he => Store.count_eq_engine hcols he) h

/-- **Conditions on columns of the kind are safe to search with.** -/
theorem isSafe_compileFor (hcs : ∀ c ∈ cs, kind.has c.column = true) :
    IsSafe kind (compileFor kind cs).predicate := by
  refine isSafe_of_columns ?_
  intro column hcolumn
  obtain ⟨c, hc, hmem⟩ := mentioned_groupWith hcolumn
  obtain ⟨f, hf⟩ := Option.isSome_iff_exists.1 (hcs c hc)
  have hkind : (kind.field? c.column).map Field.kind = some f.kind := by
    rw [hf]
    rfl
  rw [(acceptable_predicateFor hkind).columns column hmem]
  exact hcs c hc

theorem compileLenient_of_parse (h : parse kind limits text = .ok cs) :
    compileLenient kind limits text = compileFor kind cs := by
  rw [compileLenient, parseLenient, h]

theorem compileLenient_of_error {e : Rejection} (h : parse kind limits text = .error e) :
    compileLenient kind limits text = ⟨.everything, []⟩ := by
  rw [compileLenient, parseLenient, h]
  rfl

/-- Whatever a lenient search makes of a text is safe. -/
theorem isSafe_compileLenient (kind : RecordKind) (limits : Limits) (text : String) :
    IsSafe kind (compileLenient kind limits text).predicate := by
  cases h : parse kind limits text with
  | ok cs =>
      rw [compileLenient_of_parse h]
      exact isSafe_compileFor (parse_eq_ok.1 h).columns
  | error e =>
      rw [compileLenient_of_error h]
      exact isSafe_of_columns fun column hcolumn => absurd hcolumn List.not_mem_nil

/-- **The boundary admits safe filters only.**  A text passes exactly if it is not too large and is
blank or a list of conditions, not too many and on columns of the kind, and else the first check
that it fails is reported.  What passes, and whatever is made of a text by a lenient search, looks
at columns of the kind alone, and no search or count with it is rejected for a column.  What passes
still does so under higher limits. -/
theorem parse_admitsSafeFilters (kind : RecordKind) (limits : Limits) (text : String) :
    (∀ cs, parse kind limits text = .ok cs ↔ IsAdmitted kind limits text cs) ∧
    (∀ e, parse kind limits text = .error e ↔ IsRejected kind limits text e) ∧
    (∀ cs, parse kind limits text = .ok cs →
      compileLenient kind limits text = compileFor kind cs ∧
      IsSafe kind (compileFor kind cs).predicate) ∧
    (∀ e, parse kind limits text = .error e →
      compileLenient kind limits text = ⟨.everything, []⟩) ∧
    IsSafe kind (compileLenient kind limits text).predicate ∧
    (∀ higher : Limits, limits.maxJsonBytes ≤ higher.maxJsonBytes →
      limits.maxConditions ≤ higher.maxConditions → ∀ cs, parse kind limits text = .ok cs →
      parse kind higher text = .ok cs) := by
  refine ⟨fun cs => parse_eq_ok, fun e => parse_eq_error, ?_,
    fun e he => compileLenient_of_error he, isSafe_compileLenient kind limits text, ?_⟩
  · intro cs h
    exact ⟨compileLenient_of_parse h, isSafe_compileFor (parse_eq_ok.1 h).columns⟩
  · intro higher hsize hcount cs h
    exact parse_eq_ok.2 ((parse_eq_ok.1 h).mono hsize hcount)

/-- A filter with a single condition, which is itself written as an array. -/
def withoutRemarks : String := "[[null, \"remarks\", \"isEmpty\"]]"

/-- The condition of this filter. -/
def remarksAreEmpty : Condition := ⟨none, "remarks", .isEmpty, "", none, .and, none⟩

/-- A filter that just meets the limits passes, and does so under the limits that hold by default. -/
theorem parse_admitsSafeFilters_withoutRemarks :
    parse .history ⟨30, 1⟩ withoutRemarks = .ok [remarksAreEmpty] ∧
    parse .history .standard withoutRemarks = .ok [remarksAreEmpty] ∧
    IsSafe .history (compileFor .history [remarksAreEmpty]).predicate := by
  have hparse : parse .history ⟨30, 1⟩ withoutRemarks = .ok [remarksAreEmpty] := by
    rfl
  obtain ⟨-, -, hok, -, -, hmono⟩ := parse_admitsSafeFilters .history ⟨30, 1⟩ withoutRemarks
  obtain ⟨-, hsafe⟩ := hok _ hparse
  exact ⟨hparse, hmono .standard (by decide) (by decide) _ hparse, hsafe⟩

end CoachLedger.Filter
