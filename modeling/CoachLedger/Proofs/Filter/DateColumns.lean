/-
**Comparing a column of dates.**

The engine compares the texts of dates, and the program the dates.  Equality is the same in either
way, but the order is only as far as the texts of the years are in the order of the years.  So a
search by an order with a date answers as the program selects exactly if the year of every stored
date is in order with that of the operand, and so does a search in a range of dates if each is in
order with those of the two bounds.  For years from `0` to `9999` that is always so; there are
searches of earlier and of later years that miss a record.

Main results:

* `CoachLedger.Filter.isFaithful_order_iff`, `CoachLedger.Filter.isFaithful_range_iff`,
  `CoachLedger.Filter.isFaithful_equality` — when a condition is faithful on a row;
* `CoachLedger.Filter.searchesAs_dates` — **when a search in a column of dates is right**.
-/

import CoachLedger.Proofs.Filter.Typed

set_option autoImplicit false

namespace CoachLedger.Filter

open CoachLedger.Sql (Cell Relation)
open CoachLedger.Store (Cells cellAt decode SearchesAs filled recordOf reachable_recordOf)

variable {kind : RecordKind} {c : Condition}

/-! ### Operators -/

theorem Operator.isOrder_iff {op : Operator} : op.isOrder = true ↔
    op = .greaterThan ∨ op = .greaterThanOrEqual ∨ op = .lessThan ∨ op = .lessThanOrEqual := by
  cases op <;> simp [Operator.isOrder]

theorem Operator.isEquality_iff {op : Operator} :
    op.isEquality = true ↔ op = .equals ∨ op = .notEquals := by
  cases op <;> simp [Operator.isEquality]

/-! ### One row -/

/-- A relation that asks for an order tells two orderings apart if both or none is equality. -/
theorem holds_inj {r : Relation} (hr : r ≠ .equal) {o p : Ordering} (h : (o == .eq) = (p == .eq)) :
    r.holds o = r.holds p ↔ o = p := by
  cases r with
  | equal => exact absurd rfl hr
  | _ => cases o <;> cases p <;> simp_all [Relation.holds]

/-- An order with a date is the same for the engine and for the program exactly if the texts of the
two years are in order. -/
theorem faithfulOrder_date_iff {r : Relation} (hr : r ≠ .equal) (cell : Cell) (d e : Date) :
    faithfulOrder r cell (.date d) (.date e) = true ↔ Date.SortAlike d.year e.year := by
  rw [faithfulOrder, beq_iff_eq, holds_inj hr (Date.order_text_beq_eq d e),
    Date.order_text_eq_compare_iff]

/-- What is true of the dates of a column is asked of the value of the cell only if it is one. -/
theorem forall_date_iff {row : Cells} (hrow : Store.IsRow kind row) {f : Field}
    (hf : kind.field? c.column = some f) (hk : f.kind = .date) (holds : Value → Bool)
    (hnull : holds .null = true) {P : Date → Prop} (hP : ∀ d, holds (.date d) = true ↔ P d) :
    holds ((cellAt kind row c.column).toValue .date) = true ↔
      ∀ d, (decode kind row).get c.column = .date d → P d := by
  have hget := Store.get_decode row hf
  have hsuits := Store.suits_cellAt hrow hf
  rw [hk] at hget hsuits
  rw [hget]
  by_cases hn : cellAt kind row c.column = .null
  · rw [hn, Cell.toValue_null, hnull]
    exact iff_of_true rfl fun d hd => by cases hd
  · obtain ⟨d, hd⟩ := Cell.eq_date hsuits hn
    rw [hd, Cell.toValue_date, hP]
    constructor
    · rintro h e ⟨⟩
      exact h
    · exact fun h => h d rfl

theorem isFaithful_iff {row : Cells} {f : Field} (hf : kind.field? c.column = some f)
    (hk : f.kind = .date) :
    IsFaithful kind row c ↔
      faithfulAt .date (cellAt kind row c.column) (c.typedFor .date) = true := by
  constructor
  · intro h
    rw [← hk]
    exact h f hf
  · intro h g hg
    obtain rfl := Option.some.inj (hf.symm.trans hg)
    rw [hk]
    exact h

theorem operand_date {e : Date} (he : c.operand = .date e) :
    (c.typedFor .date).operand = .date e := by
  rcases operand_typedFor .date c with ⟨h, -⟩ | ⟨-, h⟩
  · cases h
  · exact h.trans he

/-- **An order is faithful on a row exactly if the year of its date is in order with that of the
operand.** -/
theorem isFaithful_order_iff {row : Cells} (hrow : Store.IsRow kind row) {f : Field}
    (hf : kind.field? c.column = some f) (hk : f.kind = .date) (hop : c.operator.isOrder = true)
    {e : Date} (he : c.operand = .date e) :
    IsFaithful kind row c ↔
      ∀ d, (decode kind row).get c.column = .date d → Date.SortAlike d.year e.year := by
  have hone {r : Relation} (hr : r ≠ .equal) :=
    forall_date_iff hrow hf hk (fun v => faithfulOrder r (cellAt kind row c.column) v (.date e))
      rfl fun d => faithfulOrder_date_iff hr _ d e
  rw [isFaithful_iff hf hk, faithfulAt_typedFor, operand_date he]
  rcases Operator.isOrder_iff.1 hop with h | h | h | h
  all_goals
    rw [h]
    exact hone (by decide)

/-- A range is faithful on a row exactly if its date is in the range where its text is. -/
theorem isFaithful_range_iff {row : Cells} (hrow : Store.IsRow kind row) {f : Field}
    (hf : kind.field? c.column = some f) (hk : f.kind = .date) (hop : c.operator = .dateRange)
    {low high : Date} (hb : c.bounds? = some (low, high)) :
    IsFaithful kind row c ↔ ∀ d, (decode kind row).get c.column = .date d →
      betweenTexts low high d.text = betweenDates low high d := by
  rw [isFaithful_iff hf hk, faithfulAt_typedFor, hop]
  dsimp only
  rw [hb]
  exact forall_date_iff hrow hf hk (faithfulRange low high) rfl fun d => beq_iff_eq

/-- Equality is faithful on each row. -/
theorem isFaithful_equality {row : Cells} (hrow : Store.IsRow kind row) {f : Field}
    (hf : kind.field? c.column = some f) (hk : f.kind = .date)
    (hop : c.operator.isEquality = true) : IsFaithful kind row c := by
  have hone := (forall_date_iff hrow hf hk
    (fun v => faithfulEquality (cellAt kind row c.column) v (c.typedFor .date).operand) rfl
    (P := fun _ => True) fun d => iff_of_true rfl trivial).2 fun _ _ => trivial
  rw [isFaithful_iff hf hk, faithfulAt_typedFor]
  rcases Operator.isEquality_iff.1 hop with h | h
  all_goals
    rw [h]
    exact hone

/-- A date whose year is in order with those of the bounds is in the range where its text is. -/
theorem betweenTexts_eq {low high d : Date} (hlow : Date.SortAlike d.year low.year)
    (hhigh : Date.SortAlike d.year high.year) :
    betweenTexts low high d.text = betweenDates low high d := by
  rw [betweenTexts, betweenDates, (Date.order_text_eq_compare_iff d low).2 hlow,
    (Date.order_text_eq_compare_iff d high).2 hhigh]

/-! ### Searches -/

theorem patternFits_of_not_isSearch (k : Kind) (h : c.operator.isSearch = false) :
    patternFits k c = true := by
  have hnone : c.pattern? = none := by
    unfold Condition.pattern?
    cases hop : c.operator with
    | contains => rw [hop] at h; cases h
    | notContains => rw [hop] at h; cases h
    | startsWith => rw [hop] at h; cases h
    | endsWith => rw [hop] at h; cases h
    | _ => rfl
  rw [patternFits, hnone]
  exact Bool.or_true _

/-- A search by a condition without a needle is right exactly if on each row the condition is
faithful, which may be said of the records. -/
theorem searchesAs_iff_records {s : Store} (hs : s.Reachable) {f : Field}
    (hf : kind.field? c.column = some f) (hop : c.operator.isSearch = false) {P : Record → Prop}
    (hP : ∀ row, Store.IsRow kind row → (IsFaithful kind row c ↔ P (decode kind row))) :
    SearchesAs s kind (compileFor kind [c]).predicate ↔ ∀ r ∈ s.records kind, P r := by
  have hsound := Store.isSound_of_reachable hs
  rw [searchesAs_single_iff hsound hf, Store.records, List.forall_mem_map]
  constructor
  · rintro ⟨-, h⟩ row hrow
    exact (hP row (hsound.rows kind row hrow)).1 (h row hrow)
  · intro h
    refine ⟨.inr (patternFits_of_not_isSearch f.kind hop), fun row hrow => ?_⟩
    exact (hP row (hsound.rows kind row hrow)).2 (h row hrow)

/-- **When a search in a column of dates is right.**  The texts of two dates are in the order of the
calendar exactly if those of their years are.  In any store, a search by equality answers as the
program selects; a search by an order with a date does so exactly if the year of every stored date
is in order with that of the operand; and a search in a range of dates exactly if every stored date
is in the range where its text is, which holds if its year is in order with those of the bounds. -/
theorem searchesAs_dates {s : Store} (hs : s.Reachable) (kind : RecordKind) {f : Field}
    (hf : kind.field? c.column = some f) (hk : f.kind = .date) :
    (∀ a b : Date, Text.order a.text b.text = a.compare b ↔ Date.SortAlike a.year b.year) ∧
    (c.operator.isEquality = true → SearchesAs s kind (compileFor kind [c]).predicate) ∧
    (∀ e, c.operator.isOrder = true → c.operand = .date e →
      (SearchesAs s kind (compileFor kind [c]).predicate ↔
        ∀ r ∈ s.records kind, ∀ d, r.get c.column = .date d → Date.SortAlike d.year e.year)) ∧
    ∀ low high, c.operator = .dateRange → c.bounds? = some (low, high) →
      (SearchesAs s kind (compileFor kind [c]).predicate ↔
        ∀ r ∈ s.records kind, ∀ d, r.get c.column = .date d →
          betweenTexts low high d.text = betweenDates low high d) ∧
      ((∀ r ∈ s.records kind, ∀ d, r.get c.column = .date d →
        Date.SortAlike d.year low.year ∧ Date.SortAlike d.year high.year) →
          SearchesAs s kind (compileFor kind [c]).predicate) := by
  refine ⟨Date.order_text_eq_compare_iff, ?_, ?_, ?_⟩
  · intro hop
    have hsearch : c.operator.isSearch = false := by
      rcases Operator.isEquality_iff.1 hop with h | h <;> rw [h] <;> rfl
    refine (searchesAs_iff_records hs hf hsearch (P := fun _ => True)
      fun row hrow => ?_).2 fun _ _ => trivial
    exact iff_of_true (isFaithful_equality hrow hf hk hop) trivial
  · intro e hop he
    have hsearch : c.operator.isSearch = false := by
      rcases Operator.isOrder_iff.1 hop with h | h | h | h <;> rw [h] <;> rfl
    exact searchesAs_iff_records hs hf hsearch fun row hrow =>
      isFaithful_order_iff hrow hf hk hop he
  · intro low high hop hb
    have hiff := searchesAs_iff_records hs hf (by rw [hop]; rfl)
      (P := fun r => ∀ d, r.get c.column = .date d →
        betweenTexts low high d.text = betweenDates low high d)
      fun row hrow => isFaithful_range_iff hrow hf hk hop hb
    refine ⟨hiff, fun h => hiff.2 fun r hr d hd => ?_⟩
    obtain ⟨hlow, hhigh⟩ := h r hr d hd
    exact betweenTexts_eq hlow hhigh

theorem searchesAs_dates_datedRecord :
    SearchesAs (filled datedRecord) .master
      (compileFor .master [plainCondition "poh_date" .lessThan "2030-01-01"]).predicate := by
  have hf : RecordKind.master.field? "poh_date" = some ⟨"poh_date", .date⟩ := by decide
  obtain ⟨-, -, horder, -⟩ := searchesAs_dates
    (c := plainCondition "poh_date" .lessThan "2030-01-01") reachable_datedRecord .master hf rfl
  refine (horder ⟨2030, 1, 1, by decide⟩ rfl (by decide +kernel)).2 ?_
  have hdates : ∀ r ∈ (filled datedRecord).records .master,
      r.get "poh_date" = .date ⟨2024, 1, 15, by decide⟩ := by decide +kernel
  intro r hr d hd
  have hdate : Value.date d = .date ⟨2024, 1, 15, by decide⟩ := hd.symm.trans (hdates r hr)
  obtain rfl := Value.date.inj hdate
  decide

/-- One master record with a date two years before the year `0`. -/
def earlyRecord : List Record :=
  [recordOf .master "poh_date" (.date ⟨-2, 6, 1, by decide⟩)]

theorem reachable_earlyRecord : (filled earlyRecord).Reachable :=
  reachable_recordOf (f := ⟨"poh_date", .date⟩) (by decide) rfl (by decide)

/-- The dates between two days. -/
def betweenCondition (column low high : String) : Condition :=
  ⟨none, column, .dateRange, low, some high, .and, none⟩

/-- **Dates whose texts are not in the order of the calendar.**  A date above the year `9999` has
the smaller text, and of two dates below the year `0` the earlier one has the greater text.  So the
engine misses a record with a date before the operand, and one with a date between the two
bounds. -/
theorem not_searchesAs_earlyRecord :
    (∃ a b, Date.read? "+12024-01-15" = some a ∧ Date.read? "2024-01-15" = some b ∧
      a.compare b = .gt ∧ Text.order a.text b.text = .lt) ∧
    (∃ a b, Date.read? "-0002-06-01" = some a ∧ Date.read? "-0001-01-01" = some b ∧
      a.compare b = .lt ∧ Text.order a.text b.text = .gt) ∧
    (filled earlyRecord).Reachable ∧
    ∀ c, c = plainCondition "poh_date" .lessThan "-0001-01-01" ∨
        c = betweenCondition "poh_date" "-0003-01-01" "-0001-01-01" →
      (filled earlyRecord).count .master (compileFor .master [c]).predicate = .ok 0 ∧
      (((filled earlyRecord).records .master).filter
        (compileFor .master [c]).selects).length = 1 ∧
      ¬ SearchesAs (filled earlyRecord) .master (compileFor .master [c]).predicate := by
  have hmissed {c : Condition}
      (hcount : (filled earlyRecord).count .master (compileFor .master [c]).predicate = .ok 0)
      (hselected : (((filled earlyRecord).records .master).filter
        (compileFor .master [c]).selects).length = 1) :
      ¬ SearchesAs (filled earlyRecord) .master (compileFor .master [c]).predicate := by
    intro h
    have hc := h.count
    rw [hcount, Except.ok.injEq] at hc
    exact absurd (hc.trans hselected) (by decide)
  refine ⟨⟨⟨12024, 1, 15, by decide⟩, ⟨2024, 1, 15, by decide⟩, ?_⟩,
    ⟨⟨-2, 6, 1, by decide⟩, ⟨-1, 1, 1, by decide⟩, ?_⟩, reachable_earlyRecord, ?_⟩
  · decide +kernel
  · decide +kernel
  rintro c (rfl | rfl)
  · have hcount : (filled earlyRecord).count .master (compileFor .master
        [plainCondition "poh_date" .lessThan "-0001-01-01"]).predicate = .ok 0 := by
      decide +kernel
    have hselected : (((filled earlyRecord).records .master).filter (compileFor .master
        [plainCondition "poh_date" .lessThan "-0001-01-01"]).selects).length = 1 := by
      decide +kernel
    exact ⟨hcount, hselected, hmissed hcount hselected⟩
  · have hcount : (filled earlyRecord).count .master (compileFor .master
        [betweenCondition "poh_date" "-0003-01-01" "-0001-01-01"]).predicate = .ok 0 := by
      decide +kernel
    have hselected : (((filled earlyRecord).records .master).filter (compileFor .master
        [betweenCondition "poh_date" "-0003-01-01" "-0001-01-01"]).selects).length = 1 := by
      decide +kernel
    exact ⟨hcount, hselected, hmissed hcount hselected⟩

end CoachLedger.Filter
