/-
**Conditions whose operands suit their columns, and others.**

A condition whose operand has the kind of its column is faithful on ordinary rows.  Not ordinary is
a text with a NUL or a noncharacter under a search for a needle, a year outside `0` to `9999` under
an order of dates, and an integer that is not a number of the binary64 format, which only the
number of a history record can be.  There are searches by well-typed conditions that miss a record
for one of these reasons.

A condition whose operand has another kind is often not faithful: the engine orders any two values,
and the program does not.

Main definitions:

* `CoachLedger.Filter.WellTyped`, `CoachLedger.Filter.IllTyped` — conditions by the kinds of the
  column and of the operand;
* `CoachLedger.Filter.IsOrdinary` — a cell and a condition without any of these oddities.

Main results:

* `CoachLedger.Filter.faithfulAt_of_isOrdinary` — **well-typed conditions are faithful to ordinary
  cells**;
* `CoachLedger.Filter.searchesAs_wellTyped`, `CoachLedger.Filter.searchesAs_illTyped` — searches by
  well-typed conditions, and by ill-typed ones.
-/

import CoachLedger.Proofs.Filter.Search

set_option autoImplicit false

namespace CoachLedger.Filter

open CoachLedger.Sql (Cell Relation)
open CoachLedger.Store (Cells cellAt rowView decode SearchesAs filled upsert_filled recordOf
  isValid_recordOf reachable_recordOf)

variable {kind : RecordKind} {k : Kind} {c : Condition}

/-! ### Kinds of operators -/

/-- The operator looks for a needle. -/
def Operator.isSearch : Operator → Bool
  | .contains | .notContains | .startsWith | .endsWith => true
  | _ => false

/-- The operator asks for an order. -/
def Operator.isOrder : Operator → Bool
  | .greaterThan | .greaterThanOrEqual | .lessThan | .lessThanOrEqual => true
  | _ => false

/-- The operator asks for equality. -/
def Operator.isEquality : Operator → Bool
  | .equals | .notEquals => true
  | _ => false

/-! ### Well-typed conditions -/

/-- The operand of the condition suits a column of the kind.  Operands for texts are always texts;
only dates have ranges. -/
def WellTyped (k : Kind) (c : Condition) : Prop :=
  (c.operator.isEquality = true → k = .text ∨ c.operand.kind? = some k ∨
    (k = .date ∨ k = .boolean) ∧ c.operand.kind? = some .text) ∧
  (c.operator.isOrder = true → k = .text ∨ c.operand.kind? = some k) ∧
  (c.operator = .dateRange → k = .date)

/-- If the cell is a number, it is an integer in the range where all integers are exact. -/
def IsShortInteger (k : Kind) (cell : Cell) : Prop :=
  ∀ x, cell.toValue k = .number x → ∃ i, x.exactInteger? = some i

/-- The column of the condition is a field of the kind that its operand suits.  Needles are searched
in numbers only if these are integers in the range where all integers are exact. -/
def WellTypedIn (s : Store) (kind : RecordKind) (c : Condition) : Prop :=
  ∃ f, kind.field? c.column = some f ∧ WellTyped f.kind c ∧
    (c.operator.isSearch = true → ∀ r ∈ s.records kind, ∀ x, r.get c.column = .number x →
      ∃ i, x.exactInteger? = some i)

/-- Neither the cell nor the condition is one that the engine treats in a way of its own. -/
structure IsOrdinary (k : Kind) (cell : Cell) (c : Condition) : Prop where
  /-- A needle and a text in which it is searched are read as they are. -/
  readable : c.operator.isSearch = true → k ≠ .boolean →
    Sql.IsReadable c.value ∧ ∀ t, cell = .text t → Sql.IsReadable t
  /-- An integer is held as the number that is read. -/
  exact : k = .number → cell.IsExact
  /-- Dates in an order have years of four digits. -/
  plain : c.operator.isOrder = true ∨ c.operator = .dateRange →
    ∀ d, cell.toValue k = .date d → d.IsPlain
  operand : c.operator.isOrder = true → ∀ e, c.operand = .date e → e.IsPlain
  bounds : c.operator = .dateRange → ∀ b, c.bounds? = some b → b.1.IsPlain ∧ b.2.IsPlain

theorem isReadable_of_forall {s : String}
    (h : ∀ c ∈ s.toList, c.isDigit = true ∨ c = '-' ∨ c = '+') : Sql.IsReadable s := by
  intro c hc
  rcases h c hc with h | rfl | rfl
  · have := Decimal.toNat_of_isDigit h
    omega
  · decide
  · decide

theorem isReadable_date (d : Date) : Sql.IsReadable d.text :=
  isReadable_of_forall fun _ hc => Date.mem_text hc

theorem isReadable_int (i : Int) : Sql.IsReadable (toString i) := by
  obtain ⟨ds, hd, h⟩ := toList_toString_int i
  refine isReadable_of_forall ?_
  intro c hc
  rcases h with h | h
  · rw [h] at hc
    exact .inl (hd c hc)
  · rw [h] at hc
    rcases List.mem_cons.1 hc with rfl | hc
    · exact .inr (.inl rfl)
    · exact .inl (hd c hc)

/-- A readable needle is found in the cell if it is found in the value, which has the same text. -/
theorem faithfulSearch_of_isReadable {cell : Cell} {v : Value} {t : String}
    (hcell : cell.text? = some t) (hv : v.text? = some t) {cmp : Comparison} {needle : String}
    (hcmp : cmp = .contains needle ∨ cmp = .startsWith needle ∨ cmp = .endsWith needle)
    (hn : Sql.IsReadable needle) (ht : Sql.IsReadable t) : faithfulSearch cell v cmp = true := by
  obtain ⟨hcontains, hstarts, hends⟩ := Sql.found_of_isReadable hn ht
  have heq : (cell.text?.map fun t => Sql.found t cmp) = cmp.evaluateKnown v := by
    rcases hcmp with rfl | rfl | rfl
    · simp [hcell, Comparison.evaluateKnown, Comparison.folded, hv, hcontains]
    · simp [hcell, Comparison.evaluateKnown, Comparison.folded, hv, hstarts]
    · simp [hcell, Comparison.evaluateKnown, Comparison.folded, hv, hends]
  unfold faithfulSearch
  split
  · rfl
  · rfl
  · rw [heq]
    exact beq_self_eq_true _

theorem exactInt_inj {i j : Int} (h : Binary64.exactInt i = Binary64.exactInt j) : i = j := by
  rcases Int.lt_trichotomy i j with hlt | heq | hlt
  · exact absurd h (Int.ne_of_lt (Binary64.exactInt_lt hlt))
  · exact heq
  · exact absurd h.symm (Int.ne_of_lt (Binary64.exactInt_lt hlt))

/-- A number that is a short integer is held as that integer. -/
theorem eq_integer {cell : Cell} (hs : Cell.Suits .number cell) {x : Binary64}
    (hx : cell.toValue .number = .number x) (he : cell.IsExact) {i : Int}
    (hi : x.exactInteger? = some i) : cell = .integer i := by
  obtain ⟨hint, hle⟩ := Option.filter_eq_some_iff.1 hi
  cases hs with
  | null => cases hx
  | integer j =>
      obtain rfl : Binary64.ofInt j = x := by simpa using hx
      have hj := Binary64.inUnits?_ofInt he
      rw [Binary64.inUnits?_of_integer? hint] at hj
      rw [exactInt_inj (Option.some.inj hj)]
  | real negative rank h =>
      obtain rfl : Binary64.signed negative rank rank.is_le = x := by simpa using hx
      have hbounds : Cell.minInteger < i ∧ i < Cell.maxInteger := by
        have hle : i.natAbs ≤ 0x1FFFFFFFFFFFFF := of_decide_eq_true hle
        simp only [Cell.minInteger, Cell.maxInteger]
        omega
      simp only [Cell.settle, hint, if_pos hbounds] at h
      cases h

theorem faithfulSearch_of_isOrdinary {cell : Cell} (hs : Cell.Suits k cell)
    (ho : IsOrdinary k cell c) (hint : IsShortInteger k cell) (hop : c.operator.isSearch = true)
    {cmp : Comparison}
    (hcmp : cmp = .contains c.value ∨ cmp = .startsWith c.value ∨ cmp = .endsWith c.value) :
    faithfulSearch cell (cell.toValue k) cmp = true := by
  by_cases hn : cell = .null
  · rw [hn, Cell.toValue_null]
    rfl
  · cases k with
    | text =>
        obtain ⟨hneedle, htext⟩ := ho.readable hop (by decide)
        obtain ⟨t, rfl⟩ := Cell.eq_text hs hn
        exact faithfulSearch_of_isReadable rfl rfl hcmp hneedle (htext t rfl)
    | date =>
        obtain ⟨hneedle, -⟩ := ho.readable hop (by decide)
        obtain ⟨d, rfl⟩ := Cell.eq_date hs hn
        rw [Cell.toValue_date]
        exact faithfulSearch_of_isReadable rfl rfl hcmp hneedle (isReadable_date d)
    | number =>
        obtain ⟨hneedle, -⟩ := ho.readable hop (by decide)
        obtain ⟨x, hx, -⟩ := Cell.toValue_eq_number hs hn
        obtain ⟨i, hi⟩ := hint x hx
        obtain rfl := eq_integer hs hx (ho.exact rfl) hi
        have htext : (Value.number x).text? = some (toString i) := by
          simp only [Value.text?, Value.numberText, hi]
        rw [hx]
        exact faithfulSearch_of_isReadable rfl htext hcmp hneedle (isReadable_int i)
    | boolean =>
        obtain ⟨b, rfl⟩ := Cell.eq_boolean hs hn
        rw [Cell.toValue_boolean]
        rfl

theorem faithfulEquality_of_isOrdinary {cell : Cell} (hs : Cell.Suits k cell)
    (ho : IsOrdinary k cell c) {w : Value}
    (hw : k = .text ∨ w.kind? = some k ∨ (k = .date ∨ k = .boolean) ∧ w.kind? = some .text) :
    faithfulEquality cell (cell.toValue k) w = true := by
  by_cases hn : cell = .null
  · rw [hn, Cell.toValue_null]
    rfl
  · cases k with
    | text =>
        obtain ⟨t, rfl⟩ := Cell.eq_text hs hn
        rfl
    | date =>
        obtain ⟨d, rfl⟩ := Cell.eq_date hs hn
        rw [Cell.toValue_date]
        rfl
    | number =>
        obtain ⟨x, hx, -⟩ := Cell.toValue_eq_number hs hn
        obtain ⟨y, rfl⟩ : ∃ y, w = .number y := by
          cases w with
          | number y => exact ⟨y, rfl⟩
          | _ => simp [Value.kind?] at hw
        rw [hx, faithfulEquality, Cell.compare_ofNumber (ho.exact rfl) hx]
        exact beq_self_eq_true _
    | boolean =>
        obtain ⟨b, rfl⟩ := Cell.eq_boolean hs hn
        rw [Cell.toValue_boolean]
        cases w with
        | number y => simp [Value.kind?] at hw
        | _ => rfl

theorem faithfulOrder_of_isOrdinary {cell : Cell} (hs : Cell.Suits k cell)
    (ho : IsOrdinary k cell c) (hop : c.operator.isOrder = true) {w : Value}
    (hw : k = .text ∨ w.kind? = some k) (hplain : ∀ e, w = .date e → e.IsPlain) (r : Relation) :
    faithfulOrder r cell (cell.toValue k) w = true := by
  by_cases hn : cell = .null
  · rw [hn, Cell.toValue_null]
    rfl
  · cases k with
    | text =>
        obtain ⟨t, rfl⟩ := Cell.eq_text hs hn
        rfl
    | date =>
        obtain ⟨d, rfl⟩ := Cell.eq_date hs hn
        have hd := ho.plain (.inl hop) d (Cell.toValue_date d)
        obtain ⟨e, rfl⟩ : ∃ e, w = .date e := by
          cases w with
          | date e => exact ⟨e, rfl⟩
          | _ => simp [Value.kind?] at hw
        rw [Cell.toValue_date, faithfulOrder, Date.order_text hd (hplain e rfl)]
        exact beq_self_eq_true _
    | number =>
        obtain ⟨x, hx, -⟩ := Cell.toValue_eq_number hs hn
        obtain ⟨y, rfl⟩ : ∃ y, w = .number y := by
          cases w with
          | number y => exact ⟨y, rfl⟩
          | _ => simp [Value.kind?] at hw
        rw [hx, faithfulOrder, Cell.compare_ofNumber (ho.exact rfl) hx]
        exact beq_self_eq_true _
    | boolean =>
        obtain ⟨b, rfl⟩ := Cell.eq_boolean hs hn
        rw [Cell.toValue_boolean]
        cases w with
        | boolean b' => rfl
        | _ => simp [Value.kind?] at hw

theorem faithfulRange_of_isPlain {cell : Cell} (hs : Cell.Suits .date cell)
    (hcell : ∀ d, cell.toValue .date = .date d → d.IsPlain) {low high : Date} (hlow : low.IsPlain)
    (hhigh : high.IsPlain) : faithfulRange low high (cell.toValue .date) = true := by
  by_cases hn : cell = .null
  · rw [hn, Cell.toValue_null]
    rfl
  · obtain ⟨d, rfl⟩ := Cell.eq_date hs hn
    have hd := hcell d (Cell.toValue_date d)
    rw [Cell.toValue_date, faithfulRange, betweenTexts, Date.order_text hd hlow,
      Date.order_text hd hhigh]
    exact beq_self_eq_true _

theorem operand_typedFor (k : Kind) (c : Condition) :
    k = .text ∧ (c.typedFor k).operand = .text c.value ∨
      k ≠ .text ∧ (c.typedFor k).operand = c.operand := by
  unfold Condition.typedFor
  by_cases hk : k = .text
  · rw [if_pos hk]
    exact .inl ⟨hk, operand_of_text _ rfl⟩
  · rw [if_neg hk]
    exact .inr ⟨hk, rfl⟩

/-- But for its operand a condition is compiled as it is. -/
theorem faithfulAt_typedFor (k : Kind) (cell : Cell) (c : Condition) :
    faithfulAt k cell (c.typedFor k) =
      match c.operator with
      | .isEmpty | .isNotEmpty | .unknown _ => true
      | .equals | .notEquals => faithfulEquality cell (cell.toValue k) (c.typedFor k).operand
      | .contains | .notContains => faithfulSearch cell (cell.toValue k) (.contains c.value)
      | .startsWith => faithfulSearch cell (cell.toValue k) (.startsWith c.value)
      | .endsWith => faithfulSearch cell (cell.toValue k) (.endsWith c.value)
      | .greaterThan => faithfulOrder .greater cell (cell.toValue k) (c.typedFor k).operand
      | .greaterThanOrEqual =>
          faithfulOrder .greaterOrEqual cell (cell.toValue k) (c.typedFor k).operand
      | .lessThan => faithfulOrder .less cell (cell.toValue k) (c.typedFor k).operand
      | .lessThanOrEqual =>
          faithfulOrder .lessOrEqual cell (cell.toValue k) (c.typedFor k).operand
      | .dateRange => c.bounds?.all fun b => faithfulRange b.1 b.2 (cell.toValue k) := by
  unfold Condition.typedFor
  split <;> rfl

/-- **A well-typed condition is faithful to an ordinary cell.** -/
theorem faithfulAt_of_isOrdinary {cell : Cell} (hs : Cell.Suits k cell) (hw : WellTyped k c)
    (ho : IsOrdinary k cell c) (hint : c.operator.isSearch = true → IsShortInteger k cell) :
    faithfulAt k cell (c.typedFor k) = true := by
  obtain ⟨hequality, horder, hrange⟩ := hw
  -- For a column of texts the operand is a text, whatever has been declared.
  have heq (h : c.operator.isEquality = true) :
      faithfulEquality cell (cell.toValue k) (c.typedFor k).operand = true := by
    refine faithfulEquality_of_isOrdinary hs ho ?_
    rcases operand_typedFor k c with ⟨hk, -⟩ | ⟨-, hop⟩
    · exact .inl hk
    · rw [hop]
      exact hequality h
  have hord (h : c.operator.isOrder = true) (r : Relation) :
      faithfulOrder r cell (cell.toValue k) (c.typedFor k).operand = true := by
    rcases operand_typedFor k c with ⟨hk, hop⟩ | ⟨-, hop⟩
    · refine faithfulOrder_of_isOrdinary hs ho h (.inl hk) (fun e he => ?_) r
      rw [hop] at he
      cases he
    · rw [hop]
      exact faithfulOrder_of_isOrdinary hs ho h (horder h) (ho.operand h) r
  have hsearch (h : c.operator.isSearch = true) {cmp : Comparison}
      (hcmp : cmp = .contains c.value ∨ cmp = .startsWith c.value ∨ cmp = .endsWith c.value) :
      faithfulSearch cell (cell.toValue k) cmp = true :=
    faithfulSearch_of_isOrdinary hs ho (hint h) h hcmp
  rw [faithfulAt_typedFor]
  cases hop : c.operator with
  | isEmpty => rfl
  | isNotEmpty => rfl
  | unknown name => rfl
  | equals => exact heq (by rw [hop]; rfl)
  | notEquals => exact heq (by rw [hop]; rfl)
  | contains => exact hsearch (by rw [hop]; rfl) (.inl rfl)
  | notContains => exact hsearch (by rw [hop]; rfl) (.inl rfl)
  | startsWith => exact hsearch (by rw [hop]; rfl) (.inr (.inl rfl))
  | endsWith => exact hsearch (by rw [hop]; rfl) (.inr (.inr rfl))
  | greaterThan => exact hord (by rw [hop]; rfl) _
  | greaterThanOrEqual => exact hord (by rw [hop]; rfl) _
  | lessThan => exact hord (by rw [hop]; rfl) _
  | lessThanOrEqual => exact hord (by rw [hop]; rfl) _
  | dateRange =>
      obtain rfl := hrange hop
      dsimp only
      cases hb : c.bounds? with
      | none => rfl
      | some b =>
          obtain ⟨hlow, hhigh⟩ := ho.bounds hop b hb
          exact faithfulRange_of_isPlain hs (ho.plain (.inr hop)) hlow hhigh

/-! ### Searches by well-typed conditions -/

/-- The pattern of the condition is not too long, and no row is odd. -/
def IsOrdinaryIn (s : Store) (kind : RecordKind) (c : Condition) : Prop :=
  ∀ f, kind.field? c.column = some f → patternFits f.kind c = true ∧
    ∀ row ∈ s.rows kind, IsOrdinary f.kind (cellAt kind row c.column) c

theorem isFaithful_of_isOrdinaryIn {s : Store} (hs : Store.IsSound s) (hw : WellTypedIn s kind c)
    (ho : IsOrdinaryIn s kind c) : ∀ row ∈ s.rows kind, IsFaithful kind row c := by
  obtain ⟨f, hf, hw, hint⟩ := hw
  intro row hrow g hg
  obtain rfl := Option.some.inj (hf.symm.trans hg)
  refine faithfulAt_of_isOrdinary (Store.suits_cellAt (hs.rows kind row hrow) hf) hw
    ((ho f hf).2 row hrow) ?_
  intro hop x hx
  refine hint hop (decode kind row) (List.mem_map_of_mem hrow) x ?_
  rw [Store.get_decode row hf, hx]

/-- A condition whose operand is typed by its text alone. -/
def plainCondition (column : String) (op : Operator) (value : String) : Condition :=
  ⟨none, column, op, value, none, .and, none⟩

/-- The second of two history records takes the number after that of the first one, which is no
number of the binary64 format. -/
def largeNumbers : List Record :=
  [recordOf .history "id" (.number (.ofInt 9007199254740992)),
    recordOf .history "remarks" (.text "late")]

theorem isValid_largeNumbers : ∀ r ∈ largeNumbers, r.IsValid := by
  intro r hr
  rcases List.mem_cons.1 hr with rfl | hr
  · exact isValid_recordOf (f := ⟨"id", .number⟩) (by decide) rfl
  · rw [List.mem_singleton.1 hr]
    exact isValid_recordOf (f := ⟨"remarks", .text⟩) (by decide) rfl

/-- The operand of the condition has not the kind of the column, or the condition asks for a range
of dates in a column of texts. -/
def IllTyped (k : Kind) (c : Condition) : Prop :=
  k ≠ .text ∧ c.operand.kind? ≠ some k ∨
    k = .text ∧ c.operator = .dateRange ∧ c.bounds?.isSome = true

/-- The program never orders a value and an operand of different kinds, unless one is a text. -/
theorem compare_eq_none {v w : Value} (hv : ∀ t, v ≠ .text t) (hw : ∀ t, w ≠ .text t)
    (hne : w.kind? ≠ v.kind?) : v.compare w = none := by
  cases v with
  | text t => exact absurd rfl (hv t)
  | null => rfl
  | _ =>
      cases w with
      | text t => exact absurd rfl (hw t)
      | _ => first | rfl | exact absurd rfl hne

/-- A condition that asks for an order on a column other than of texts is one comparison. -/
theorem predicateFor_order (hf : (kind.field? c.column).map Field.kind = some k) (hk : k ≠ .text)
    (hop : c.operator.isOrder = true) :
    ∃ r, r ≠ Relation.equal ∧
      c.predicateFor kind = .clause c.column (comparisonOf r c.operand) := by
  have hpred : ∃ r, r ≠ Relation.equal ∧
      c.predicate = .clause c.column (comparisonOf r c.operand) := by
    unfold Condition.predicate
    cases h : c.operator with
    | greaterThan => exact ⟨.greater, by decide, rfl⟩
    | greaterThanOrEqual => exact ⟨.greaterOrEqual, by decide, rfl⟩
    | lessThan => exact ⟨.less, by decide, rfl⟩
    | lessThanOrEqual => exact ⟨.lessOrEqual, by decide, rfl⟩
    | _ =>
        rw [h] at hop
        cases hop
  obtain ⟨r, hr, hp⟩ := hpred
  have hplain : (comparisonOf r c.operand).isTextual = false := by
    cases r with
    | equal => exact absurd rfl hr
    | _ => rfl
  refine ⟨r, hr, ?_⟩
  unfold Condition.predicateFor
  rw [hf]
  cases k with
  | text => exact absurd rfl hk
  | number => exact hp
  | date => exact hp
  | boolean =>
      dsimp only
      rw [hp, spellBooleans_plain c.column hplain]

/-- **The program selects nothing by an order with an operand of another kind that is no text.** -/
theorem selects_eq_false_of_order {row : Cells} (hrow : Store.IsRow kind row) {f : Field}
    (hf : kind.field? c.column = some f) (hk : f.kind ≠ .text) (hop : c.operator.isOrder = true)
    (hw : c.operand.kind? ≠ some f.kind) (ht : ∀ t, c.operand ≠ .text t) :
    (c.predicateFor kind).selects (decode kind row) = false := by
  obtain ⟨r, hr, hp⟩ := predicateFor_order (k := f.kind) (by rw [hf]; rfl) hk hop
  have hshows := Store.shows_decode hrow hf
  have heval : (c.predicateFor kind).evaluate (decode kind row) = none := by
    rw [hp, evaluate_clause hshows]
    by_cases hn : cellAt kind row c.column = .null
    · have hnull : (rowView kind row).cell c.column = .null := hn
      rw [hnull, Cell.toValue_null, Comparison.evaluate_null, if_neg]
      cases r <;> simp [comparisonOf]
    · have hkind := Cell.kind?_toValue hshows.suits hn
      rw [Cell.evaluate_toValue hshows.suits hn, evaluateKnown_comparisonOf hr,
        compare_eq_none (fun t hv => ?_) ht (by rw [hkind]; exact hw)]
      · rfl
      · rw [hv] at hkind
        exact hk (Option.some.inj hkind).symm
  rw [Predicate.selects, heval]
  rfl

/-- **Searches by ill-typed conditions.**  In any store, a search by a condition whose operand has
not the kind of its column answers as the program selects exactly if the engine does not give up on
the pattern and the condition is faithful on each row; row by row, the engine and the program agree
exactly if it is faithful on this row.  By an order with an operand that is no text the program
selects nothing, whatever the engine selects. -/
theorem searchesAs_illTyped {s : Store} (hs : s.Reachable) (kind : RecordKind) {f : Field}
    (hf : kind.field? c.column = some f) (hc : IllTyped f.kind c) :
    (SearchesAs s kind (compileFor kind [c]).predicate ↔
      (s.rows kind = [] ∨ patternFits f.kind c = true) ∧
        ∀ row ∈ s.rows kind, IsFaithful kind row c) ∧
    (∀ row ∈ s.rows kind,
      ((Sql.Condition.ofPredicate (compileFor kind [c]).predicate).selects (rowView kind row) =
        (compileFor kind [c]).selects (decode kind row) ↔ IsFaithful kind row c)) ∧
    (c.operator.isOrder = true → (∀ t, c.operand ≠ .text t) →
      ∀ r ∈ s.records kind, (compileFor kind [c]).selects r = false) := by
  have hsound := Store.isSound_of_reachable hs
  refine ⟨searchesAs_single_iff hsound hf, ?_, ?_⟩
  · intro row hrow
    exact agrees_iff_isFaithful (hsound.rows kind row hrow) hf
  · intro hop ht r hr
    obtain ⟨row, hrow, rfl⟩ := List.mem_map.1 hr
    rcases hc with ⟨hk, hw⟩ | ⟨-, hrange, -⟩
    · exact selects_eq_false_of_order (hsound.rows kind row hrow) hf hk hop hw ht
    · rw [hrange] at hop
      cases hop

/-- One master record with a date. -/
def datedRecord : List Record :=
  [recordOf .master "poh_date" (.date ⟨2024, 1, 15, by decide⟩)]

theorem reachable_datedRecord : (filled datedRecord).Reachable :=
  reachable_recordOf (f := ⟨"poh_date", .date⟩) (by decide) rfl (by decide)

theorem searchesAs_illTyped_equals :
    SearchesAs (filled datedRecord) .master
      (compileFor .master [plainCondition "poh_date" .equals "2000"]).predicate := by
  have hf : RecordKind.master.field? "poh_date" = some ⟨"poh_date", .date⟩ := by decide
  refine (searchesAs_illTyped (c := plainCondition "poh_date" .equals "2000")
    reachable_datedRecord .master hf (.inl ⟨by decide, by decide +kernel⟩)).1.2
    ⟨.inr (by decide +kernel), ?_⟩
  intro row hrow f hg
  obtain rfl := Option.some.inj (hf.symm.trans hg)
  revert row
  decide +kernel

/-- **An ill-typed search that finds too much.**  The engine compares the text of the date with that
of the number, which the program does not. -/
theorem not_searchesAs_datedRecord :
    (filled datedRecord).Reachable ∧
    IllTyped .date (plainCondition "poh_date" .greaterThan "2000") ∧
    (filled datedRecord).count .master
      (compileFor .master [plainCondition "poh_date" .greaterThan "2000"]).predicate = .ok 1 ∧
    (((filled datedRecord).records .master).filter
      (compileFor .master [plainCondition "poh_date" .greaterThan "2000"]).selects).length = 0 ∧
    ¬ SearchesAs (filled datedRecord) .master
      (compileFor .master [plainCondition "poh_date" .greaterThan "2000"]).predicate := by
  have hcount : (filled datedRecord).count .master
      (compileFor .master [plainCondition "poh_date" .greaterThan "2000"]).predicate = .ok 1 := by
    decide +kernel
  have hselected : (((filled datedRecord).records .master).filter
      (compileFor .master [plainCondition "poh_date" .greaterThan "2000"]).selects).length = 0 := by
    decide +kernel
  refine ⟨reachable_datedRecord, .inl ⟨by decide, by decide +kernel⟩, hcount, hselected, ?_⟩
  intro h
  have hc := h.count
  rw [hcount, Except.ok.injEq] at hc
  exact absurd (hc.trans hselected) (by decide)

end CoachLedger.Filter
