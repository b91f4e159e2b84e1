/-
**Complementary operators.**

The operators come in pairs: what one of a pair says of a field the other one denies.  A field that
holds nothing is found by neither of a pair, but for the pair that asks whether it holds anything;
a field that holds a value is found by exactly one, whatever the kinds of the column and of the
operand are.  Only two values that have no order are left out, by both orderings of a pair.

Main definitions:

* `CoachLedger.Filter.Operator.comparison?` — the comparison that an operator makes, or denies;
* `CoachLedger.Filter.clauseFor` — a comparison on the records of a kind;
* `CoachLedger.Filter.answer`, `CoachLedger.Filter.Finds` — what a condition says of a record when
  its operator is put in place of another one;
* `CoachLedger.Filter.Partition` — the operators partition the records.

Main results:

* `CoachLedger.Filter.answer_eq` — the answer of every operator through one comparison;
* `CoachLedger.Filter.isSome_clauseFor` — equality and searches are known of a field with a value;
* `CoachLedger.Filter.contains_clauseFor` — a text that starts or ends with a needle contains it;
* `CoachLedger.Filter.partition_compileFor` — **complementary operators partition the records**.
-/

import CoachLedger.Proofs.Filter.BooleanColumns

set_option autoImplicit false

namespace CoachLedger.Filter

variable {kind : RecordKind} {r : Record} {c : Condition} {column : String} {cmp : Comparison}

/-! ### One comparison for a pair of operators -/

/-- The comparison that an operator makes with an operand and a needle, and whether it denies it. -/
def Operator.comparison? (w : Value) (needle : String) : Operator → Option (Comparison × Bool)
  | equals => some (equality w, false)
  | notEquals => some (equality w, true)
  | contains => some (.contains needle, false)
  | notContains => some (.contains needle, true)
  | startsWith => some (.startsWith needle, false)
  | endsWith => some (.endsWith needle, false)
  | isEmpty => some (.isNull, false)
  | isNotEmpty => some (.isNull, true)
  | greaterThan => some (.greater w, false)
  | greaterThanOrEqual => some (.greaterOrEqual w, false)
  | lessThan => some (.less w, false)
  | lessThanOrEqual => some (.lessOrEqual w, false)
  | dateRange => none
  | unknown _ => none

/-- The comparison of a column on the records of a kind. -/
def clauseFor (kind : RecordKind) (column : String) (cmp : Comparison) : Predicate :=
  if (kind.field? column).map Field.kind = some .boolean then spellBooleans (.clause column cmp)
  else .clause column cmp

/-- The operand of a condition on the records of a kind, if its operator asks for no dates. -/
def Condition.operandFor (kind : RecordKind) (c : Condition) : Value :=
  if (kind.field? c.column).map Field.kind = some .text then .text c.value
  else { c with operator := .equals }.operand

/-- But for a range of dates the operand does not depend on the operator. -/
theorem operand_with {op : Operator} (hop : op ≠ .dateRange) (c : Condition) :
    { c with operator := op }.operand = { c with operator := .equals }.operand := by
  have hkind : inferKind op c.value = inferKind .equals c.value := by
    simp [inferKind, hop]
  simp only [Condition.operand, inferred, hkind]

theorem predicate_with {op : Operator} {denied : Bool}
    (h : op.comparison? { c with operator := .equals }.operand c.value = some (cmp, denied)) :
    { c with operator := op }.predicate = .signed denied (.clause c.column cmp) := by
  have hop : op ≠ .dateRange := by
    rintro rfl
    cases h
  rw [← operand_with hop] at h
  cases op with
  | dateRange => exact absurd rfl hop
  | unknown name => cases h
  | _ =>
      cases h
      rfl

theorem predicateFor_with {op : Operator} {denied : Bool}
    (h : op.comparison? (c.operandFor kind) c.value = some (cmp, denied)) :
    { c with operator := op }.predicateFor kind =
      .signed denied (clauseFor kind c.column cmp) := by
  unfold Condition.operandFor at h
  unfold Condition.predicateFor clauseFor
  dsimp only
  split
  · rename_i htext
    rw [if_pos htext] at h
    rw [htext, if_neg (by simp)]
    have htyped : { c with declared := some .text, operator := .equals }.operand =
        .text c.value := operand_of_text _ rfl
    exact predicate_with (c := { c with declared := some .text }) (htyped.symm ▸ h)
  · rename_i hboolean
    rw [if_neg (by simp [hboolean])] at h
    rw [if_pos hboolean, predicate_with h]
    cases denied <;> rfl
  · rename_i htext hboolean
    rw [if_neg htext] at h
    rw [if_neg hboolean, predicate_with h]

/-! ### Answers -/

/-- The truth value of a record for the condition with an operator in place of its own. -/
def answer (kind : RecordKind) (c : Condition) (r : Record) (op : Operator) : Option Bool :=
  (compileFor kind [{ c with operator := op }]).predicate.evaluate r

/-- The condition with the operator in place of its own selects the record. -/
def Finds (kind : RecordKind) (c : Condition) (r : Record) (op : Operator) : Prop :=
  (compileFor kind [{ c with operator := op }]).selects r = true

theorem finds_iff {op : Operator} : Finds kind c r op ↔ answer kind c r op = some true :=
  beq_iff_eq

/-- **The answer of an operator is that of its comparison, or the negation.** -/
theorem answer_eq (op : Operator) {denied : Bool}
    (h : op.comparison? (c.operandFor kind) c.value = some (cmp, denied)) :
    answer kind c r op =
      if denied then Kleene.not ((clauseFor kind c.column cmp).evaluate r)
      else (clauseFor kind c.column cmp).evaluate r := by
  have hpredicate : answer kind c r op =
      (Predicate.signed denied (clauseFor kind c.column cmp)).evaluate r :=
    congrArg (Predicate.evaluate · r) (predicateFor_with h)
  rw [hpredicate]
  cases denied <;> rfl

/-! ### Comparisons of one field -/

theorem clauseFor_plain (h : cmp.isTextual = false) :
    clauseFor kind column cmp = .clause column cmp := by
  unfold clauseFor
  split
  · exact spellBooleans_plain column h
  · rfl

theorem clauseFor_cases (kind : RecordKind) (column : String) (h : cmp.isTextual = true) :
    clauseFor kind column cmp = spelled column cmp ∨
      clauseFor kind column cmp = .clause column cmp := by
  unfold clauseFor
  split
  · exact .inl (spellBooleans_textual column h)
  · exact .inr rfl

/-- Of a field that holds nothing it is known that it does, and no more. -/
theorem evaluate_clauseFor_null (hv : r.get column = .null)
    (hc : cmp.isTextual = true → ReadsSpelling cmp) :
    (clauseFor kind column cmp).evaluate r = if cmp = .isNull then some true else none := by
  have hclause : (Predicate.clause column cmp).evaluate r =
      if cmp = .isNull then some true else none := by
    simp only [Predicate.evaluate, Predicate.evaluateWith, hv, Comparison.evaluate_null]
  unfold clauseFor
  split
  · rw [(evaluate_spellBooleans_clause (.inl hv) hc).1, hclause]
  · exact hclause

theorem isNull_of_ne_null {v : Value} (hv : v ≠ .null) : v.isNull = false := by
  cases v with
  | null => exact absurd rfl hv
  | _ => rfl

theorem evaluate_clause_known (hv : r.get column ≠ .null) (cmp : Comparison) :
    (Predicate.clause column cmp).evaluate r = cmp.evaluateKnown (r.get column) := by
  simp only [Predicate.evaluate, Predicate.evaluateWith, Comparison.evaluate,
    isNull_of_ne_null hv]
  rfl

theorem exists_exactEq {v w : Value} (hv : v ≠ .null) (hw : w ≠ .null) :
    ∃ b, v.exactEq w = some b := by
  refine Option.isSome_iff_exists.1 ?_
  rw [Value.exactEq_isSome, isNull_of_ne_null hv, isNull_of_ne_null hw]
  rfl

theorem isSome_folded {v : Value} (hv : v ≠ .null) : ∃ s, Comparison.folded v = some s := by
  cases v with
  | null => exact absurd rfl hv
  | _ => exact ⟨_, rfl⟩

/-- The value of equalities with booleans in place of a comparison, where `holds` says which
spellings satisfy the comparison and `eq` which booleans the field is equal to. -/
def spelledValue (holds eq : Bool → Bool) : Bool :=
  match holds true, holds false with
  | true, true => eq true || eq false
  | true, false => eq true
  | false, true => eq false
  | false, false => eq true && eq false

/-- The more spellings satisfy a comparison, the more fields do. -/
theorem spelledValue_mono {holds more eq : Bool → Bool}
    (h : ∀ b, holds b = true → more b = true) (ht : spelledValue holds eq = true) :
    spelledValue more eq = true := by
  have htrue := h true
  have hfalse := h false
  unfold spelledValue at ht ⊢
  revert ht htrue hfalse
  cases holds true <;> cases holds false <;> cases more true <;> cases more false <;>
    cases eq true <;> cases eq false <;> simp

/-- The booleans whose spelling satisfies a comparison. -/
def holdsOf (cmp : Comparison) (b : Bool) : Bool :=
  cmp.evaluate (.boolean b) == some true

/-- Equalities with booleans are known of a field with a value, of whatever kind the value is. -/
theorem evaluate_spelled_known (hv : r.get column ≠ .null) :
    ∃ eq, ∀ cmp, (spelled column cmp).evaluate r = some (spelledValue (holdsOf cmp) eq) := by
  have hone (b : Bool) : ∃ x, (r.get column).exactEq (.boolean b) = some x :=
    exists_exactEq hv (by simp)
  choose eq heq using hone
  refine ⟨eq, ?_⟩
  intro cmp
  have hclause (b : Bool) :
      (Predicate.clause column (.equals (.boolean b) false)).evaluate r = some (eq b) :=
    (evaluate_clause_known hv _).trans (heq b)
  have hspelled : spelled column cmp =
      match holdsOf cmp true, holdsOf cmp false with
      | true, true => .or [.clause column (.equals (.boolean true) false),
          .clause column (.equals (.boolean false) false)]
      | true, false => .clause column (.equals (.boolean true) false)
      | false, true => .clause column (.equals (.boolean false) false)
      | false, false => .and [.clause column (.equals (.boolean true) false),
          .clause column (.equals (.boolean false) false)] := rfl
  rw [hspelled, spelledValue]
  cases holdsOf cmp true <;> cases holdsOf cmp false <;>
    simp only [evaluate_or_pair, evaluate_and_pair, hclause] <;>
    cases eq true <;> cases eq false <;> rfl

/-- **Equality and searches are known of every field with a value.** -/
theorem isSome_clauseFor (kind : RecordKind) (hv : r.get column ≠ .null)
    (hc : IsSearch cmp ∨ ∃ w, w ≠ .null ∧ cmp = equality w) :
    ∃ b, (clauseFor kind column cmp).evaluate r = some b := by
  have hknown : ∃ b, (Predicate.clause column cmp).evaluate r = some b := by
    rw [evaluate_clause_known hv]
    rcases hc with hsearch | ⟨w, hw, rfl⟩
    · exact evaluateKnown_search hsearch hv
    · cases w with
      | null => exact absurd rfl hw
      | text t =>
          obtain ⟨s, hs⟩ := isSome_folded hv
          have hequality : equality (.text t) = .equals (.text t) true := rfl
          rw [hequality, Comparison.evaluateKnown, hs]
          exact ⟨_, rfl⟩
      | _ =>
          rw [evaluateKnown_equality (by simp)]
          exact exists_exactEq hv (by simp)
  cases ht : cmp.isTextual with
  | false =>
      rw [clauseFor_plain ht]
      exact hknown
  | true =>
      rcases clauseFor_cases kind column ht with h | h
      · obtain ⟨eq, heq⟩ := evaluate_spelled_known hv
        exact ⟨_, h ▸ heq cmp⟩
      · exact h ▸ hknown

/-! ### Needles -/

/-- A text that starts or ends with a needle contains it. -/
theorem contains_of_search {v : Value} {needle : String}
    (hc : cmp = .startsWith needle ∨ cmp = .endsWith needle)
    (h : cmp.evaluateKnown v = some true) :
    (Comparison.contains needle).evaluateKnown v = some true := by
  have hinfix {s : String}
      (h : (Text.fold needle).toList <:+: s.toList) : Text.contains (Text.fold needle) s = true :=
    (Text.occursIn_iff ..).2 h
  rcases hc with rfl | rfl
  · obtain ⟨s, hs, hstart⟩ := Option.map_eq_some_iff.1 h
    exact Option.map_eq_some_iff.2 ⟨s, hs, hinfix (List.isPrefixOf_iff_prefix.1 hstart).isInfix⟩
  · obtain ⟨s, hs, hend⟩ := Option.map_eq_some_iff.1 h
    exact Option.map_eq_some_iff.2 ⟨s, hs, hinfix (List.isSuffixOf_iff_suffix.1 hend).isInfix⟩

/-- **What starts or ends with a needle contains it**, in a column of booleans as well. -/
theorem contains_clauseFor {needle : String}
    (hc : cmp = .startsWith needle ∨ cmp = .endsWith needle)
    (h : (clauseFor kind column cmp).evaluate r = some true) :
    (clauseFor kind column (.contains needle)).evaluate r = some true := by
  have htextual : cmp.isTextual = true := by
    rcases hc with rfl | rfl <;> rfl
  have hspelling : ReadsSpelling cmp := by
    rcases hc with rfl | rfl
    · exact readsSpelling_startsWith needle
    · exact readsSpelling_endsWith needle
  have hv : r.get column ≠ .null := by
    intro hv
    rw [evaluate_clauseFor_null hv fun _ => hspelling] at h
    rcases hc with rfl | rfl <;> cases h
  unfold clauseFor at h ⊢
  split
  · rename_i hboolean
    rw [if_pos hboolean, spellBooleans_textual column htextual] at h
    rw [spellBooleans_textual column rfl]
    obtain ⟨eq, heq⟩ := evaluate_spelled_known hv
    rw [heq, Option.some_inj] at h ⊢
    refine spelledValue_mono ?_ h
    intro b hb
    exact beq_iff_eq.2 (contains_of_search hc (beq_iff_eq.1 hb))
  · rename_i hplain
    rw [if_neg hplain, evaluate_clause_known hv] at h
    rw [evaluate_clause_known hv]
    exact contains_of_search hc h

/-! ### Orderings -/

/-- The two orderings of a pair deny each other, and of two values without an order both are
unknown. -/
theorem evaluate_orderings (column : String) (w : Value) (r : Record) :
    (clauseFor kind column (.lessOrEqual w)).evaluate r =
        Kleene.not ((clauseFor kind column (.greater w)).evaluate r) ∧
      (clauseFor kind column (.greaterOrEqual w)).evaluate r =
        Kleene.not ((clauseFor kind column (.less w)).evaluate r) := by
  rw [clauseFor_plain rfl, clauseFor_plain rfl, clauseFor_plain rfl, clauseFor_plain rfl]
  by_cases hv : r.get column = .null
  · simp only [Predicate.evaluate, Predicate.evaluateWith, hv]
    exact ⟨rfl, rfl⟩
  · simp only [evaluate_clause_known hv, Comparison.evaluateKnown]
    cases (r.get column).compare w with
    | none => exact ⟨rfl, rfl⟩
    | some o => cases o <;> exact ⟨rfl, rfl⟩

/-! ### The partition -/

/-- The operators that find no field without a value. -/
def Operator.valued : List Operator :=
  [equals, notEquals, contains, notContains, greaterThan, greaterThanOrEqual, lessThan,
    lessThanOrEqual]

/-- The two orderings leave the record out, or one of them finds it. -/
def Ordered (kind : RecordKind) (c : Condition) (r : Record) (op co : Operator) : Prop :=
  answer kind c r op = none ∧ answer kind c r co = none ∨ (Finds kind c r op ↔ ¬ Finds kind c r co)

/-- Complementary operators partition the records. -/
structure Partition (kind : RecordKind) (c : Condition) (r : Record) : Prop where
  /-- A field that is null or was not set is found by `isEmpty` alone. -/
  null : r.get c.column = .null →
    (∀ op ∈ Operator.valued, ¬ Finds kind c r op) ∧
      Finds kind c r .isEmpty ∧ ¬ Finds kind c r .isNotEmpty
  /-- Every other field is found by exactly one of each pair. -/
  known : r.get c.column ≠ .null →
    (Finds kind c r .equals ↔ ¬ Finds kind c r .notEquals) ∧
      (Finds kind c r .contains ↔ ¬ Finds kind c r .notContains) ∧
      Finds kind c r .isNotEmpty ∧ ¬ Finds kind c r .isEmpty
  needle : Finds kind c r .startsWith ∨ Finds kind c r .endsWith → Finds kind c r .contains
  greater : Ordered kind c r .greaterThan .lessThanOrEqual
  less : Ordered kind c r .lessThan .greaterThanOrEqual

/-- Of a known comparison and its negation one is true. -/
theorem finds_iff_not_finds {op co : Operator} {b : Bool} (hop : answer kind c r op = some b)
    (hco : answer kind c r co = Kleene.not (answer kind c r op)) :
    Finds kind c r op ↔ ¬ Finds kind c r co := by
  rw [finds_iff, finds_iff, hco, hop]
  cases b <;> decide

theorem ordered_of_not {op co : Operator}
    (hco : answer kind c r co = Kleene.not (answer kind c r op)) : Ordered kind c r op co := by
  cases hop : answer kind c r op with
  | none => exact .inl ⟨hop, hco.trans (congrArg Kleene.not hop)⟩
  | some b => exact .inr (finds_iff_not_finds hop hco)

/-- Where a comparison is known, one operator of the pair that makes and denies it finds the
record. -/
theorem finds_iff_of_known {op co : Operator}
    (hop : op.comparison? (c.operandFor kind) c.value = some (cmp, false))
    (hco : co.comparison? (c.operandFor kind) c.value = some (cmp, true))
    (hknown : ∃ b, (clauseFor kind c.column cmp).evaluate r = some b) :
    Finds kind c r op ↔ ¬ Finds kind c r co := by
  obtain ⟨b, hb⟩ := hknown
  refine finds_iff_not_finds (b := b) ?_ ?_
  · rw [answer_eq op hop]
    exact hb
  · rw [answer_eq op hop, answer_eq co hco]
    rfl

/-- What an operator that asks for a value says of a field without one. -/
theorem answer_of_null (hv : r.get c.column = .null) {op : Operator} (hop : op ∈ Operator.valued) :
    answer kind c r op = none := by
  have hone {cmp : Comparison} {denied : Bool}
      (h : op.comparison? (c.operandFor kind) c.value = some (cmp, denied))
      (hn : cmp ≠ .isNull) (hc : cmp.isTextual = true → ReadsSpelling cmp) :
      answer kind c r op = none := by
    rw [answer_eq op h, evaluate_clauseFor_null hv hc, if_neg hn]
    cases denied <;> rfl
  have hequality := readsSpelling_of_equality (v := c.operandFor kind)
  simp only [Operator.valued, List.mem_cons, List.not_mem_nil, or_false] at hop
  rcases hop with rfl | rfl | rfl | rfl | rfl | rfl | rfl | rfl
  · exact hone rfl (by simp [equality]) hequality
  · exact hone rfl (by simp [equality]) hequality
  · exact hone rfl (by simp) fun _ => readsSpelling_contains c.value
  · exact hone rfl (by simp) fun _ => readsSpelling_contains c.value
  · exact hone rfl (by simp) fun h => by cases h
  · exact hone rfl (by simp) fun h => by cases h
  · exact hone rfl (by simp) fun h => by cases h
  · exact hone rfl (by simp) fun h => by cases h

theorem operandFor_ne_null (kind : RecordKind) (c : Condition) : c.operandFor kind ≠ .null := by
  unfold Condition.operandFor
  split
  · simp
  · exact (isOperand_operand _).1

/-- The field is null exactly if `isEmpty` finds the record, and else `isNotEmpty` does. -/
theorem answer_isEmpty (kind : RecordKind) (c : Condition) (r : Record) :
    answer kind c r .isEmpty = some (r.get c.column).isNull ∧
      answer kind c r .isNotEmpty = some !(r.get c.column).isNull := by
  have hclause : (clauseFor kind c.column .isNull).evaluate r =
      some (r.get c.column).isNull := by
    rw [clauseFor_plain rfl]
    simp only [Predicate.evaluate, Predicate.evaluateWith]
    cases r.get c.column <;> rfl
  rw [answer_eq .isEmpty rfl, answer_eq .isNotEmpty rfl, hclause]
  exact ⟨rfl, rfl⟩

/-- **Complementary operators partition the records**, for every column, operand and declared
kind. -/
theorem partition_compileFor (kind : RecordKind) (c : Condition) (r : Record) :
    Partition kind c r where
  null hv := by
    have hempty := answer_isEmpty kind c r
    rw [hv] at hempty
    refine ⟨?_, finds_iff.2 hempty.1, ?_⟩
    · intro op hop h
      rw [finds_iff, answer_of_null hv hop] at h
      cases h
    · intro h
      rw [finds_iff, hempty.2] at h
      cases h
  known hv := by
    have hempty := answer_isEmpty kind c r
    rw [isNull_of_ne_null hv] at hempty
    refine ⟨?_, ?_, finds_iff.2 hempty.2, ?_⟩
    · exact finds_iff_of_known rfl rfl
        (isSome_clauseFor kind hv (.inr ⟨c.operandFor kind, operandFor_ne_null kind c, rfl⟩))
    · exact finds_iff_of_known rfl rfl (isSome_clauseFor kind hv (.inl (.contains c.value)))
    · intro h
      rw [finds_iff, hempty.1] at h
      cases h
  needle h := by
    rw [finds_iff, finds_iff, answer_eq .startsWith rfl, answer_eq .endsWith rfl] at h
    rw [finds_iff, answer_eq .contains rfl]
    rcases h with h | h
    · exact contains_clauseFor (.inl rfl) h
    · exact contains_clauseFor (.inr rfl) h
  greater := by
    refine ordered_of_not ?_
    rw [answer_eq .lessThanOrEqual rfl, answer_eq .greaterThan rfl]
    exact (evaluate_orderings ..).1
  less := by
    refine ordered_of_not ?_
    rw [answer_eq .greaterThanOrEqual rfl, answer_eq .lessThan rfl]
    exact (evaluate_orderings ..).2

end CoachLedger.Filter
