/-
**When the engine selects a row by a condition, and when the program does.**

A condition of a filter is looked at in two ways: its predicate is evaluated on a record, and the
SQL condition of the predicate on the row that the record is read from.  For each operator and each
kind of column this module has the exact condition under which the two select the same.

Main definitions:

* `CoachLedger.Sql.Row.Shows` — the field of a record is what is read from the column of a row;
* `CoachLedger.Filter.Agrees` — the engine selects the row if and only if the program selects the
  record;
* `CoachLedger.Filter.faithfulAt` — the exact condition, for the cell of one column.

Main results:

* `CoachLedger.Filter.agrees_predicateFor_iff` — **it is the exact condition**;
* `CoachLedger.Filter.agrees_groupWith` — a group agrees if each of its members does.
-/

import CoachLedger.Proofs.Filter.Clause

set_option autoImplicit false

namespace CoachLedger

open CoachLedger.Sql (Affinity Cell Relation)

/-! ### Rows and records -/

/-- The field of the record is what is read from the column of the row, which is of the kind. -/
structure Sql.Row.Shows (row : Sql.Row) (r : Record) (k : Kind) (column : String) : Prop where
  affinity : row.affinity column = .ofKind k
  suits : Cell.Suits k (row.cell column)
  get : r.get column = (row.cell column).toValue k

namespace Filter

/-- The engine selects the row by the predicate exactly if the program selects the record. -/
def Agrees (row : Sql.Row) (r : Record) (p : Predicate) : Prop :=
  (Sql.Condition.ofPredicate p).selects row = p.selects r

theorem agrees_iff (row : Sql.Row) (r : Record) (p : Predicate) :
    Agrees row r p ↔
      ((Sql.Condition.ofPredicate p).truth row = some true ↔ p.evaluate r = some true) := by
  rw [Agrees, Bool.eq_iff_iff, Sql.Condition.selects, Predicate.selects, beq_iff_eq, beq_iff_eq]

theorem agrees_of_eq {row : Sql.Row} {r : Record} {p : Predicate}
    (h : (Sql.Condition.ofPredicate p).truth row = p.evaluate r) : Agrees row r p := by
  rw [agrees_iff, h]

variable {row : Sql.Row} {r : Record} {k : Kind} {column : String}

theorem truth_clause (h : row.Shows r k column) (c : Comparison) :
    (Sql.Condition.ofPredicate (.clause column c)).truth row =
      c.onCell (.ofKind k) (row.cell column) := by
  rw [← h.affinity]
  exact Comparison.truth_ofComparison row column c

theorem evaluate_clause (h : row.Shows r k column) (c : Comparison) :
    (Predicate.clause column c).evaluate r = c.evaluate ((row.cell column).toValue k) := by
  rw [← h.get]
  rfl

theorem truth_not (p : Predicate) :
    (Sql.Condition.ofPredicate (.not p)).truth row =
      Kleene.not ((Sql.Condition.ofPredicate p).truth row) := rfl

/-- A negation is true where the inner truth value is known to be false. -/
theorem not_eq_some_true (a : Option Bool) : Kleene.not a = some true ↔ a = some false := by
  rcases a with _ | _ | _ <;> decide

theorem agrees_not_of_eq {p : Predicate}
    (h : (Sql.Condition.ofPredicate p).truth row = p.evaluate r) : Agrees row r (.not p) :=
  agrees_of_eq (by rw [truth_not, Predicate.evaluate_not, h])

/-- A comparison whose two truth values are known agrees under the same condition whether it is
negated or not. -/
theorem agrees_of_known (h : row.Shows r k column) {c : Comparison} {condition : Prop}
    (hc : c.Known k (row.cell column) condition) :
    (Agrees row r (.clause column c) ↔ condition) ∧
      (Agrees row r (.not (.clause column c)) ↔ condition) := by
  obtain ⟨x, y, hx, hy, hxy⟩ := hc
  rw [agrees_iff, agrees_iff, truth_not, Predicate.evaluate_not, not_eq_some_true, not_eq_some_true,
    truth_clause h, evaluate_clause h, hx, hy, ← hxy]
  cases x <;> cases y <;> simp

/-- A null field is the same to both. -/
theorem truth_clause_null (h : row.Shows r k column) (hn : row.cell column = .null)
    (c : Comparison) :
    (Sql.Condition.ofPredicate (.clause column c)).truth row =
      (Predicate.clause column c).evaluate r := by
  rw [truth_clause h, evaluate_clause h, hn, Cell.toValue_null, Comparison.onCell_null]

theorem truth_clause_isNull (h : row.Shows r k column) :
    (Sql.Condition.ofPredicate (.clause column .isNull)).truth row =
      (Predicate.clause column .isNull).evaluate r := by
  by_cases hn : row.cell column = .null
  · exact truth_clause_null h hn _
  · rw [truth_clause h, evaluate_clause h, Cell.evaluate_toValue h.suits hn, Comparison.onCell,
      Cell.isNull_eq_false hn]
    rfl

/-! ### Columns of booleans -/

/-- Equality with a boolean is the same to both. -/
theorem truth_clause_boolean (h : row.Shows r .boolean column) (b : Bool) :
    (Sql.Condition.ofPredicate (.clause column (.equals (.boolean b) false))).truth row =
      (Predicate.clause column (.equals (.boolean b) false)).evaluate r := by
  by_cases hn : row.cell column = .null
  · exact truth_clause_null h hn _
  · obtain ⟨c, hc⟩ := Cell.eq_boolean h.suits hn
    rw [truth_clause h, evaluate_clause h, hc, Cell.toValue_boolean]
    cases b <;> cases c <;> rfl

/-- **What is resolved against the spellings of booleans is the same to both.** -/
theorem truth_spelled (h : row.Shows r .boolean column) (c : Comparison) :
    (Sql.Condition.ofPredicate (spelled column c)).truth row = (spelled column c).evaluate r := by
  have htrue := truth_clause_boolean h true
  have hfalse := truth_clause_boolean h false
  simp only [Sql.Condition.ofPredicate, Predicate.evaluate, Predicate.evaluateWith] at htrue hfalse
  unfold spelled
  dsimp only
  -- It is empty, one equality, or both of them, according to the spellings that match.
  split <;>
    simp only [Sql.Condition.ofPredicate, Sql.Condition.ofPredicates, Sql.Condition.truth,
      Sql.Condition.truthEach, Predicate.evaluate, Predicate.evaluateWith, Predicate.evaluateEach,
      htrue, hfalse]

/-! ### One condition -/

/-- The two bounds of a range, if both are dates. -/
def Condition.bounds? (c : Condition) : Option (Date × Date) :=
  (c.valueTo.filter fun s => !Text.isAllBlank s).bind fun upper =>
    (Date.read? c.value).bind fun low => (Date.read? upper).map fun high => (low, high)

/-- The engine selects by the condition what the program selects, given the cell of its column. -/
def faithfulAt (k : Kind) (cell : Cell) (c : Condition) : Bool :=
  let v := cell.toValue k
  match c.operator with
  | .isEmpty | .isNotEmpty | .unknown _ => true
  | .equals | .notEquals => faithfulEquality cell v c.operand
  | .contains | .notContains => faithfulSearch cell v (.contains c.value)
  | .startsWith => faithfulSearch cell v (.startsWith c.value)
  | .endsWith => faithfulSearch cell v (.endsWith c.value)
  | .greaterThan => faithfulOrder .greater cell v c.operand
  | .greaterThanOrEqual => faithfulOrder .greaterOrEqual cell v c.operand
  | .lessThan => faithfulOrder .less cell v c.operand
  | .lessThanOrEqual => faithfulOrder .lessOrEqual cell v c.operand
  | .dateRange => c.bounds?.all fun b => faithfulRange b.1 b.2 v

/-- The condition as it is compiled for a column of the kind: the operand for a column of texts is
a text. -/
def Condition.typedFor (k : Kind) (c : Condition) : Condition :=
  if k = .text then { c with declared := some .text } else c

/-- A text is read as a finite number only. -/
theorem isFinite_of_readNumber? {s : String} {x : Binary64}
    (h : Value.readNumber? s = some x) : x.isFinite = true := by
  unfold Value.readNumber? at h
  split at h
  · dsimp only at h
    split at h
    · rename_i hf
      rw [← Option.some.inj h]
      exact hf
    · cases h
  · cases h

theorem isOperand_of_coerce? {k : Kind} {s : String} {v : Value} (h : coerce? k s = some v) :
    IsOperand v := by
  rw [coerce?.eq_def] at h
  cases k with
  | text =>
      obtain rfl := Option.some.inj h
      exact ⟨by simp, by simp⟩
  | number =>
      obtain ⟨x, hx, rfl⟩ := Option.map_eq_some_iff.1 h
      refine ⟨by simp, ?_⟩
      rintro ⟨⟩
      -- Not-a-number would have to be finite.
      cases isFinite_of_readNumber? hx
  | date =>
      obtain ⟨d, -, rfl⟩ := Option.map_eq_some_iff.1 h
      exact ⟨by simp, by simp⟩
  | boolean =>
      obtain ⟨b, -, rfl⟩ := Option.map_eq_some_iff.1 h
      exact ⟨by simp, by simp⟩

theorem isOperand_inferred (op : Operator) (s : String) : IsOperand (inferred op s) := by
  unfold inferred
  cases h : coerce? (inferKind op s) s with
  | none => exact ⟨by simp, by simp⟩
  | some v => exact isOperand_of_coerce? h

/-- The operand of a condition is never null. -/
theorem isOperand_operand (c : Condition) : IsOperand c.operand := by
  unfold Condition.operand
  cases h : c.declared.bind fun k => coerce? k c.value with
  | none => exact isOperand_inferred _ _
  | some v =>
      obtain ⟨k, -, hk⟩ := Option.bind_eq_some_iff.1 h
      exact isOperand_of_coerce? hk

theorem dateRange_eq (c : Condition) :
    (∃ low high, c.bounds? = some (low, high) ∧
      dateRange c = .clause c.column (.between (.date low) (.date high))) ∨
    c.bounds? = none ∧ ∃ reason, dateRange c = .idle reason := by
  unfold dateRange Condition.bounds?
  cases hu : c.valueTo.filter fun s => !Text.isAllBlank s with
  | none => exact .inr ⟨rfl, .missingUpperBound, rfl⟩
  | some upper =>
      cases hlow : Date.read? c.value with
      | none => exact .inr ⟨rfl, .invalidDateBound, by simp only⟩
      | some low =>
          cases hhigh : Date.read? upper with
          | none => exact .inr ⟨by simp [hhigh], .invalidDateBound, by simp only [hhigh]⟩
          | some high => exact .inl ⟨low, high, by simp [hhigh], by simp only [hhigh]⟩

theorem agrees_idle (reason : Idle) : Agrees row r (.idle reason) :=
  agrees_of_eq rfl

/-- A null field agrees, negated or not. -/
theorem agrees_of_null (h : row.Shows r k column) (hn : row.cell column = .null) (c : Comparison) :
    Agrees row r (.clause column c) ∧ Agrees row r (.not (.clause column c)) :=
  ⟨agrees_of_eq (truth_clause_null h hn c), agrees_not_of_eq (truth_clause_null h hn c)⟩

theorem agrees_search {c : Condition} (h : row.Shows r k c.column) (hk : k ≠ .boolean)
    {cmp : Comparison} (hcmp : IsSearch cmp) :
    (Agrees row r (.clause c.column cmp) ↔
      faithfulSearch (row.cell c.column) ((row.cell c.column).toValue k) cmp = true) ∧
    (Agrees row r (.not (.clause c.column cmp)) ↔
      faithfulSearch (row.cell c.column) ((row.cell c.column).toValue k) cmp = true) := by
  by_cases hn : row.cell c.column = .null
  · rw [hn, Cell.toValue_null]
    exact ⟨iff_of_true (agrees_of_null h hn cmp).1 rfl, iff_of_true (agrees_of_null h hn cmp).2 rfl⟩
  · exact agrees_of_known h (known_search h.suits hn hk hcmp)

theorem agrees_equality {c : Condition} (h : row.Shows r k c.column)
    (hkt : k = .text → ∃ t, c.operand = .text t) (hkb : k = .boolean → ∀ t, c.operand ≠ .text t) :
    (Agrees row r (.clause c.column (equality c.operand)) ↔
      faithfulEquality (row.cell c.column) ((row.cell c.column).toValue k) c.operand = true) ∧
    (Agrees row r (.not (.clause c.column (equality c.operand))) ↔
      faithfulEquality (row.cell c.column) ((row.cell c.column).toValue k) c.operand = true) := by
  by_cases hn : row.cell c.column = .null
  · rw [hn, Cell.toValue_null]
    have hnull := agrees_of_null h hn (equality c.operand)
    exact ⟨iff_of_true hnull.1 rfl, iff_of_true hnull.2 rfl⟩
  · exact agrees_of_known h (known_equality h.suits hn (isOperand_operand c) hkt hkb)

theorem agrees_order (rel : Relation) {c : Condition} (h : row.Shows r k c.column)
    (hr : rel ≠ .equal) (hkt : k = .text → ∃ t, c.operand = .text t) :
    Agrees row r (.clause c.column (comparisonOf rel c.operand)) ↔
      faithfulOrder rel (row.cell c.column) ((row.cell c.column).toValue k) c.operand = true := by
  by_cases hn : row.cell c.column = .null
  · rw [hn, Cell.toValue_null]
    exact iff_of_true (agrees_of_null h hn _).1 rfl
  · rw [agrees_iff, truth_clause h, evaluate_clause h]
    exact onCell_order_iff h.suits hn hr (isOperand_operand c) hkt

theorem agrees_range {c : Condition} (h : row.Shows r k c.column) :
    Agrees row r (dateRange c) ↔
      (c.bounds?.all fun b =>
        faithfulRange b.1 b.2 ((row.cell c.column).toValue k)) = true := by
  rcases dateRange_eq c with ⟨low, high, hb, hd⟩ | ⟨hb, reason, hd⟩
  · rw [hb, hd]
    by_cases hn : row.cell c.column = .null
    · rw [hn, Cell.toValue_null]
      exact iff_of_true (agrees_of_null h hn _).1 rfl
    · rw [agrees_iff, truth_clause h, evaluate_clause h]
      exact onCell_range_iff h.suits hn low high
  · rw [hb, hd]
    exact iff_of_true (agrees_idle reason) rfl

/-- The condition agrees on the other kinds of columns exactly if it is faithful. -/
theorem agrees_predicate_iff {c : Condition} (h : row.Shows r k c.column) (hk : k ≠ .boolean)
    (hkt : k = .text → ∃ t, c.operand = .text t) :
    Agrees row r c.predicate ↔ faithfulAt k (row.cell c.column) c = true := by
  have hnull := truth_clause_isNull h
  have heq := agrees_equality h hkt fun hb => absurd hb hk
  have hcontains := agrees_search h hk (.contains c.value)
  unfold Condition.predicate faithfulAt
  cases c.operator with
  | isEmpty => exact iff_of_true (agrees_of_eq hnull) rfl
  | isNotEmpty => exact iff_of_true (agrees_not_of_eq hnull) rfl
  | equals => exact heq.1
  | notEquals => exact heq.2
  | contains => exact hcontains.1
  | notContains => exact hcontains.2
  | startsWith => exact (agrees_search h hk (.startsWith c.value)).1
  | endsWith => exact (agrees_search h hk (.endsWith c.value)).1
  | greaterThan => exact agrees_order .greater h (by decide) hkt
  | greaterThanOrEqual => exact agrees_order .greaterOrEqual h (by decide) hkt
  | lessThan => exact agrees_order .less h (by decide) hkt
  | lessThanOrEqual => exact agrees_order .lessOrEqual h (by decide) hkt
  | dateRange => exact agrees_range h
  | unknown name => exact iff_of_true (agrees_idle _) rfl

/-- On a column of booleans a search in the text form is faithful, and so is equality with a
text. -/
theorem faithful_boolean (h : row.Shows r .boolean column) (cmp : Comparison) (t : String) :
    faithfulSearch (row.cell column) ((row.cell column).toValue .boolean) cmp = true ∧
      faithfulEquality (row.cell column) ((row.cell column).toValue .boolean) (.text t) = true := by
  by_cases hn : row.cell column = .null
  · rw [hn]
    exact ⟨rfl, rfl⟩
  · obtain ⟨b, hb⟩ := Cell.eq_boolean h.suits hn
    rw [hb, Cell.toValue_boolean]
    exact ⟨rfl, rfl⟩

theorem spellBooleans_textual (column : String) {cmp : Comparison} (hc : cmp.isTextual = true) :
    spellBooleans (.clause column cmp) = spelled column cmp := by
  rw [spellBooleans, hc, if_pos rfl]

theorem spellBooleans_plain (column : String) {cmp : Comparison} (hc : cmp.isTextual = false) :
    spellBooleans (.clause column cmp) = .clause column cmp := by
  rw [spellBooleans, hc, if_neg Bool.false_ne_true]

/-- On a column of booleans a comparison in the text form agrees, negated or not. -/
theorem agrees_textual (h : row.Shows r .boolean column) {cmp : Comparison}
    (hc : cmp.isTextual = true) :
    Agrees row r (spellBooleans (.clause column cmp)) ∧
      Agrees row r (spellBooleans (.not (.clause column cmp))) := by
  rw [spellBooleans, spellBooleans_textual column hc]
  exact ⟨agrees_of_eq (truth_spelled h cmp), agrees_not_of_eq (truth_spelled h cmp)⟩

theorem spellBooleans_dateRange (c : Condition) : spellBooleans (dateRange c) = dateRange c := by
  rcases dateRange_eq c with ⟨low, high, -, hd⟩ | ⟨-, reason, hd⟩
  · rw [hd]
    rfl
  · rw [hd]
    rfl

/-- On a column of booleans text comparisons are resolved first. -/
theorem agrees_spellBooleans_iff {c : Condition} (h : row.Shows r .boolean c.column) :
    Agrees row r (spellBooleans c.predicate) ↔
      faithfulAt .boolean (row.cell c.column) c = true := by
  have hnull := truth_clause_isNull h
  have hcontains := agrees_textual h (show (Comparison.contains c.value).isTextual from rfl)
  have hsearch (cmp : Comparison) := (faithful_boolean h cmp "").1
  have hkt : Kind.boolean = .text → ∃ t, c.operand = .text t := fun hb => by cases hb
  have hequality : (Agrees row r (spellBooleans (.clause c.column (equality c.operand))) ↔
        faithfulEquality (row.cell c.column) ((row.cell c.column).toValue .boolean) c.operand =
          true) ∧
      (Agrees row r (spellBooleans (.not (.clause c.column (equality c.operand)))) ↔
        faithfulEquality (row.cell c.column) ((row.cell c.column).toValue .boolean) c.operand =
          true) := by
    by_cases ht : ∃ t, c.operand = .text t
    · obtain ⟨t, ht⟩ := ht
      have hs := agrees_textual h (show (equality (.text t)).isTextual from rfl)
      have hf := (faithful_boolean h .isNull t).2
      rw [ht]
      exact ⟨iff_of_true hs.1 hf, iff_of_true hs.2 hf⟩
    · have hw : ∀ t, c.operand ≠ .text t := fun t ht' => ht ⟨t, ht'⟩
      have heq := agrees_equality h hkt fun _ => hw
      have hplain : (equality c.operand).isTextual = false := by
        rw [equality_of_ne_text hw]
        rfl
      rw [spellBooleans, spellBooleans_plain c.column hplain]
      exact heq
  unfold Condition.predicate faithfulAt
  cases c.operator with
  | isEmpty => exact iff_of_true (agrees_of_eq hnull) rfl
  | isNotEmpty => exact iff_of_true (agrees_not_of_eq hnull) rfl
  | equals => exact hequality.1
  | notEquals => exact hequality.2
  | contains => exact iff_of_true hcontains.1 (hsearch _)
  | notContains => exact iff_of_true hcontains.2 (hsearch _)
  | startsWith => exact iff_of_true (agrees_textual h rfl).1 (hsearch _)
  | endsWith => exact iff_of_true (agrees_textual h rfl).1 (hsearch _)
  | greaterThan => exact agrees_order .greater h (by decide) hkt
  | greaterThanOrEqual => exact agrees_order .greaterOrEqual h (by decide) hkt
  | lessThan => exact agrees_order .less h (by decide) hkt
  | lessThanOrEqual => exact agrees_order .lessOrEqual h (by decide) hkt
  | dateRange =>
      dsimp only
      rw [spellBooleans_dateRange]
      exact agrees_range h
  | unknown name => exact iff_of_true (agrees_idle _) rfl

/-- **The engine selects the row by a condition exactly if the program selects the record, provided
that the condition is faithful, and else not.** -/
theorem agrees_predicateFor_iff {kind : RecordKind} {c : Condition}
    (hf : (kind.field? c.column).map Field.kind = some k) (h : row.Shows r k c.column) :
    Agrees row r (c.predicateFor kind) ↔
      faithfulAt k (row.cell c.column) (c.typedFor k) = true := by
  unfold Condition.predicateFor
  rw [hf]
  cases k with
  | text =>
      exact agrees_predicate_iff (c := { c with declared := some .text }) h (by decide)
        fun _ => ⟨c.value, operand_of_text _ rfl⟩
  | number => exact agrees_predicate_iff h (by decide) fun ht => by cases ht
  | date => exact agrees_predicate_iff h (by decide) fun ht => by cases ht
  | boolean => exact agrees_spellBooleans_iff h

/-! ### Groups -/

theorem all_eq_some_true (l : List (Option Bool)) :
    Kleene.all l = some true ↔ ∀ a ∈ l, a = some true := by
  induction l with
  | nil => simp
  | cons a l ih =>
      rw [Kleene.all_cons, List.forall_mem_cons, ← ih]
      rcases a with _ | _ | _ <;> rcases Kleene.all l with _ | _ | _ <;> decide

theorem any_eq_some_true (l : List (Option Bool)) :
    Kleene.any l = some true ↔ ∃ a ∈ l, a = some true := by
  induction l with
  | nil => simp
  | cons a l ih =>
      rw [Kleene.any_cons, List.exists_mem_cons_iff, ← ih]
      rcases a with _ | _ | _ <;> rcases Kleene.any l with _ | _ | _ <;> decide

theorem ofPredicates_eq (ps : List Predicate) :
    Sql.Condition.ofPredicates ps = ps.map Sql.Condition.ofPredicate := by
  induction ps with
  | nil => rfl
  | cons p ps ih => rw [Sql.Condition.ofPredicates, ih, List.map_cons]

/-- A conjunction agrees if its members do: whether it is true depends only on which of them are. -/
theorem agrees_and {ps : List Predicate} (h : ∀ p ∈ ps, Agrees row r p) :
    Agrees row r (.and ps) := by
  rw [agrees_iff, Sql.Condition.ofPredicate, Sql.Condition.truth, Sql.Condition.truthEach_eq,
    Predicate.evaluate, Predicate.evaluateWith, Predicate.evaluateEach_eq, all_eq_some_true,
    all_eq_some_true, ofPredicates_eq, List.map_map, List.forall_mem_map, List.forall_mem_map]
  constructor
  · intro ht p hp
    exact ((agrees_iff ..).1 (h p hp)).1 (ht p hp)
  · intro ht p hp
    exact ((agrees_iff ..).1 (h p hp)).2 (ht p hp)

/-- A disjunction agrees if its members do. -/
theorem agrees_or {ps : List Predicate} (h : ∀ p ∈ ps, Agrees row r p) :
    Agrees row r (.or ps) := by
  rw [agrees_iff, Sql.Condition.ofPredicate, Sql.Condition.truth, Sql.Condition.truthEach_eq,
    Predicate.evaluate, Predicate.evaluateWith, Predicate.evaluateEach_eq, any_eq_some_true,
    any_eq_some_true, ofPredicates_eq, List.map_map]
  simp only [List.mem_map, exists_exists_and_eq_and]
  constructor
  · rintro ⟨p, hp, ht⟩
    exact ⟨p, hp, ((agrees_iff ..).1 (h p hp)).1 ht⟩
  · rintro ⟨p, hp, ht⟩
    exact ⟨p, hp, ((agrees_iff ..).1 (h p hp)).2 ht⟩

/-- **A group agrees if each of its members does.** -/
theorem agrees_groupWith {one : Condition → Predicate} {cs : List Condition}
    (h : ∀ c ∈ cs, Agrees row r (one c)) : Agrees row r (groupWith one cs) := by
  have hmap : ∀ p ∈ cs.map one, Agrees row r p := List.forall_mem_map.2 h
  unfold groupWith
  split
  · exact agrees_of_eq rfl
  · exact h _ (by simp)
  · split
    · exact agrees_or hmap
    · exact agrees_and hmap

end Filter

end CoachLedger
