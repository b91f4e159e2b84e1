/-
**Text operators on columns of booleans.**

A condition on a column of booleans that looks at the text form of its field is compiled to
equalities with the two booleans, since the storage engine does not have their spellings.  Nothing
of its meaning is lost: the compiled predicate is true, false or unknown of a record exactly where
the predicate of the condition is, under a negation and inside of a group as well.

Main definitions:

* `CoachLedger.Predicate.HasClause` — a predicate has a clause at some depth.

Main results:

* `CoachLedger.Filter.evaluate_spelled` — equalities with booleans in place of one comparison;
* `CoachLedger.Filter.evaluate_groupWith_congr` — the value of a group is made of those of its
  members;
* `CoachLedger.Filter.compileFor_keepsMeaning` — **compilation for a kind keeps the meaning, and
  leaves no text comparison on a column of booleans**.
-/

import CoachLedger.Proofs.Filter.Search

set_option autoImplicit false

namespace CoachLedger

/-! ### Clauses -/

/-- The predicate has the clause at some depth. -/
inductive Predicate.HasClause (column : String) (cmp : Comparison) : Predicate → Prop
  | clause : HasClause column cmp (.clause column cmp)
  | not {inner : Predicate} : HasClause column cmp inner → HasClause column cmp (.not inner)
  | and {members : List Predicate} {p : Predicate} :
      p ∈ members → HasClause column cmp p → HasClause column cmp (.and members)
  | or {members : List Predicate} {p : Predicate} :
      p ∈ members → HasClause column cmp p → HasClause column cmp (.or members)

namespace Filter

variable {kind : RecordKind} {r : Record} {c : Condition} {column : String} {cmp : Comparison}

/-! ### One comparison -/

/-- The field of the record holds a boolean or nothing. -/
def HoldsBoolean (r : Record) (column : String) : Prop :=
  r.get column = .null ∨ ∃ b, r.get column = .boolean b

theorem holdsBoolean (hr : r.IsValid)
    (hf : (r.kind.field? column).map Field.kind = some .boolean) : HoldsBoolean r column := by
  by_cases hv : r.get column = .null
  · exact .inl hv
  · have hkind := Record.kind?_get hr hf hv
    cases hget : r.get column with
    | boolean b => exact .inr ⟨b, hget⟩
    | _ =>
        rw [hget] at hkind
        cases hkind

/-- The comparison looks at text forms, and both booleans satisfy it or do not. -/
structure ReadsSpelling (cmp : Comparison) : Prop where
  textual : cmp.isTextual = true
  known : ∀ b, ∃ x, cmp.evaluate (.boolean b) = some x

theorem readsSpelling_contains (s : String) : ReadsSpelling (.contains s) :=
  ⟨rfl, fun _ => ⟨_, rfl⟩⟩

theorem readsSpelling_startsWith (s : String) : ReadsSpelling (.startsWith s) :=
  ⟨rfl, fun _ => ⟨_, rfl⟩⟩

theorem readsSpelling_endsWith (s : String) : ReadsSpelling (.endsWith s) :=
  ⟨rfl, fun _ => ⟨_, rfl⟩⟩

theorem readsSpelling_equality (s : String) : ReadsSpelling (equality (.text s)) :=
  ⟨rfl, fun _ => ⟨_, rfl⟩⟩

theorem evaluate_equals_boolean {a : Bool} (hv : r.get column = .boolean a) (b : Bool) :
    (Predicate.clause column (.equals (.boolean b) false)).evaluate r = some (a == b) := by
  simp only [Predicate.evaluate, Predicate.evaluateWith, hv]
  cases a <;> cases b <;> rfl

theorem evaluate_clause_null (hv : r.get column = .null) (hn : cmp ≠ .isNull) :
    (Predicate.clause column cmp).evaluate r = none := by
  simp only [Predicate.evaluate, Predicate.evaluateWith, hv, Comparison.evaluate_null, if_neg hn]

theorem evaluate_and_pair (p q : Predicate) :
    (Predicate.and [p, q]).evaluate r = Kleene.and (p.evaluate r) (q.evaluate r) := by
  simp only [Predicate.evaluate, Predicate.evaluateWith, Predicate.evaluateEach, Kleene.all_cons,
    Kleene.all_nil, Kleene.and_comm _ (some true), Kleene.true_and]

theorem evaluate_or_pair (p q : Predicate) :
    (Predicate.or [p, q]).evaluate r = Kleene.or (p.evaluate r) (q.evaluate r) := by
  simp only [Predicate.evaluate, Predicate.evaluateWith, Predicate.evaluateEach, Kleene.any_cons,
    Kleene.any_nil, Kleene.or_comm _ (some false), Kleene.false_or]

/-- **Equalities with booleans in place of a comparison with their spellings.**  Of a field that
holds nothing all of them are unknown, even if no spelling satisfies the comparison. -/
theorem evaluate_spelled (h : HoldsBoolean r column) (hs : ReadsSpelling cmp) :
    (spelled column cmp).evaluate r = (Predicate.clause column cmp).evaluate r := by
  obtain ⟨x, hx⟩ := hs.known true
  obtain ⟨y, hy⟩ := hs.known false
  have hspelled : spelled column cmp =
      match x, y with
      | true, true => .or [.clause column (.equals (.boolean true) false),
          .clause column (.equals (.boolean false) false)]
      | true, false => .clause column (.equals (.boolean true) false)
      | false, true => .clause column (.equals (.boolean false) false)
      | false, false => .and [.clause column (.equals (.boolean true) false),
          .clause column (.equals (.boolean false) false)] := by
    simp only [spelled, hx, hy]
    cases x <;> cases y <;> rfl
  rw [hspelled]
  rcases h with hv | ⟨a, hv⟩
  · have hone (b : Bool) :
        (Predicate.clause column (.equals (.boolean b) false)).evaluate r = none :=
      evaluate_clause_null hv (by simp)
    have hnull : cmp ≠ .isNull := by
      rintro rfl
      cases hs.textual
    rw [evaluate_clause_null hv hnull]
    cases x <;> cases y <;> simp only [evaluate_or_pair, evaluate_and_pair, hone] <;> rfl
  · -- The comparison of the field is that of the spelling of the boolean that it holds.
    have hclause : (Predicate.clause column cmp).evaluate r = some (if a then x else y) := by
      simp only [Predicate.evaluate, Predicate.evaluateWith, hv]
      cases a
      · exact hy
      · exact hx
    rw [hclause]
    cases x <;> cases y <;>
      simp only [evaluate_or_pair, evaluate_and_pair, evaluate_equals_boolean hv] <;>
      cases a <;> rfl

/-! ### One condition -/

/-- A clause keeps its value if it does not look at text forms, or reads the spelling of booleans,
under a negation as well. -/
theorem evaluate_spellBooleans_clause (h : HoldsBoolean r column)
    (hc : cmp.isTextual = true → ReadsSpelling cmp) :
    (spellBooleans (.clause column cmp)).evaluate r = (Predicate.clause column cmp).evaluate r ∧
      (spellBooleans (.not (.clause column cmp))).evaluate r =
        (Predicate.not (.clause column cmp)).evaluate r := by
  have hclause : (spellBooleans (.clause column cmp)).evaluate r =
      (Predicate.clause column cmp).evaluate r := by
    cases ht : cmp.isTextual with
    | true => rw [spellBooleans_textual column ht, evaluate_spelled h (hc ht)]
    | false => rw [spellBooleans_plain column ht]
  exact ⟨hclause, congrArg Kleene.not hclause⟩

theorem readsSpelling_of_equality {v : Value} (h : (equality v).isTextual = true) :
    ReadsSpelling (equality v) := by
  cases v with
  | text s => exact readsSpelling_equality s
  | _ => cases h

/-- **The predicate of a condition keeps its value.** -/
theorem evaluate_spellBooleans (h : HoldsBoolean r c.column) :
    (spellBooleans c.predicate).evaluate r = c.predicate.evaluate r := by
  have hequality := evaluate_spellBooleans_clause h
    (readsSpelling_of_equality (v := c.operand))
  have hcontains := evaluate_spellBooleans_clause h fun _ => readsSpelling_contains c.value
  unfold Condition.predicate
  cases c.operator with
  | equals => exact hequality.1
  | notEquals => exact hequality.2
  | contains => exact hcontains.1
  | notContains => exact hcontains.2
  | startsWith => exact (evaluate_spellBooleans_clause h fun _ => readsSpelling_startsWith _).1
  | endsWith => exact (evaluate_spellBooleans_clause h fun _ => readsSpelling_endsWith _).1
  | dateRange =>
      dsimp only
      rw [spellBooleans_dateRange]
  | _ => rfl

theorem evaluate_predicateFor (hr : r.IsValid)
    (hc : (r.kind.field? c.column).map Field.kind ≠ some .text) :
    (c.predicateFor r.kind).evaluate r = c.predicate.evaluate r := by
  unfold Condition.predicateFor
  split
  · rename_i ht
    exact absurd ht hc
  · rename_i hb
    exact evaluate_spellBooleans (holdsBoolean hr hb)
  · rfl

/-- Equalities with booleans do not look at text forms. -/
theorem hasClause_spelled {other : Comparison} (h : (spelled column cmp).HasClause column other) :
    other.isTextual = false := by
  have hone {b : Bool} {p : Predicate} (hp : p = .clause column (.equals (.boolean b) false))
      (h : p.HasClause column other) : other.isTextual = false := by
    subst hp
    cases h
    rfl
  unfold spelled at h
  dsimp only at h
  split at h
  · cases h with
    | or hp h =>
        rcases List.mem_cons.1 hp with hp | hp
        · exact hone hp h
        · exact hone (List.mem_singleton.1 hp) h
  · exact hone rfl h
  · exact hone rfl h
  · cases h with
    | and hp h =>
        rcases List.mem_cons.1 hp with hp | hp
        · exact hone hp h
        · exact hone (List.mem_singleton.1 hp) h

theorem hasClause_spellBooleans {other : Comparison}
    (h : (spellBooleans (.clause column cmp)).HasClause column other) : other.isTextual = false := by
  cases ht : cmp.isTextual with
  | true =>
      rw [spellBooleans_textual column ht] at h
      exact hasClause_spelled h
  | false =>
      rw [spellBooleans_plain column ht] at h
      cases h
      exact ht

/-- On a column of booleans no condition has a clause that looks at text forms. -/
theorem hasClause_predicateFor (hb : (kind.field? c.column).map Field.kind = some .boolean)
    (h : (c.predicateFor kind).HasClause c.column cmp) : cmp.isTextual = false := by
  unfold Condition.predicateFor at h
  rw [hb] at h
  obtain ⟨p, hp⟩ : ∃ p, p = c.predicate := ⟨_, rfl⟩
  have hshape := shape_predicate c
  dsimp only at h
  rw [← hp] at h hshape
  cases hshape with
  | idle reason => cases h
  | clause => exact hasClause_spellBooleans h
  | not =>
      rw [spellBooleans] at h
      cases h with
      | not h => exact hasClause_spellBooleans h

/-! ### Lists of conditions -/

theorem mem_mentioned {p : Predicate} (h : p.HasClause column cmp) : column ∈ p.mentioned := by
  induction h with
  | clause => exact List.mem_singleton.2 rfl
  | not _ ih => exact ih
  | and hp _ ih | or hp _ ih =>
      rw [Predicate.mentioned, mentionedIn_eq]
      exact List.mem_flatMap.2 ⟨_, hp, ih⟩

/-- A condition has no clause of another column. -/
theorem column_of_mentioned (h : column ∈ (c.predicateFor kind).mentioned) :
    column = c.column := by
  cases hf : (kind.field? c.column).map Field.kind with
  | some k => exact (acceptable_predicateFor hf).columns column h
  | none =>
      unfold Condition.predicateFor at h
      rw [hf] at h
      exact (acceptable_of_shape (shape_predicate c)).columns column h

/-- The clauses of a group are those of its members. -/
theorem hasClause_groupWith {one : Condition → Predicate} {cs : List Condition}
    (h : (groupWith one cs).HasClause column cmp) : ∃ c ∈ cs, (one c).HasClause column cmp := by
  have hmap {p : Predicate} (hp : p ∈ cs.map one) (h : p.HasClause column cmp) :
      ∃ c ∈ cs, (one c).HasClause column cmp := by
    obtain ⟨c, hc, rfl⟩ := List.mem_map.1 hp
    exact ⟨c, hc, h⟩
  unfold groupWith at h
  split at h
  · cases h
  · exact ⟨_, List.mem_singleton.2 rfl, h⟩
  · split at h
    · cases h with
      | or hp h => exact hmap hp h
    · cases h with
      | and hp h => exact hmap hp h

/-- **The value of a group is made of those of its members.** -/
theorem evaluate_groupWith_congr {one other : Condition → Predicate} {cs : List Condition}
    (h : ∀ c ∈ cs, (one c).evaluate r = (other c).evaluate r) :
    (groupWith one cs).evaluate r = (groupWith other cs).evaluate r := by
  have heach : Predicate.evaluateEach (fun column c => c.evaluate (r.get column)) (cs.map one) =
      Predicate.evaluateEach (fun column c => c.evaluate (r.get column)) (cs.map other) := by
    rw [Predicate.evaluateEach_eq, Predicate.evaluateEach_eq, List.map_map, List.map_map]
    exact List.map_congr_left h
  unfold groupWith
  split
  · rfl
  · exact h _ (List.mem_singleton.2 rfl)
  · split
    · exact congrArg Kleene.any heach
    · exact congrArg Kleene.all heach

/-- **Compilation for a kind keeps the meaning.**  If no condition is about a column of texts, each
record of the kind has the same truth value, known or unknown, as without regard to the kind; and
whatever the conditions are about, no clause of a column of booleans looks at text forms. -/
theorem compileFor_keepsMeaning (kind : RecordKind) (cs : List Condition) :
    ((∀ c ∈ cs, (kind.field? c.column).map Field.kind ≠ some .text) →
      ∀ r : Record, r.kind = kind → r.IsValid →
        (compileFor kind cs).predicate.evaluate r = (compile cs).predicate.evaluate r) ∧
    ∀ column cmp, (kind.field? column).map Field.kind = some .boolean →
      (compileFor kind cs).predicate.HasClause column cmp → cmp.isTextual = false := by
  constructor
  · rintro hcs r rfl hr
    refine evaluate_groupWith_congr ?_
    intro c hc
    exact evaluate_predicateFor hr (hcs c hc)
  · intro column cmp hb h
    obtain ⟨c, -, h⟩ := hasClause_groupWith h
    obtain rfl := column_of_mentioned (mem_mentioned h)
    exact hasClause_predicateFor hb h

/-- A coach in the yard. -/
def yardRecord : Record :=
  Store.recordOf .master "in_yard" (.boolean true)

/-- No spelling of a boolean contains this text. -/
def maybeCondition : Condition :=
  ⟨none, "in_yard", .notContains, "maybe", none, .and, none⟩

theorem compileFor_keepsMeaning_maybe :
    (compileFor .master [maybeCondition]).predicate.evaluate yardRecord =
      (compile [maybeCondition]).predicate.evaluate yardRecord ∧
    (compile [maybeCondition]).predicate.evaluate yardRecord = some true := by
  have hvalid : yardRecord.IsValid :=
    Store.isValid_recordOf (f := ⟨"in_yard", .boolean⟩) (by decide) rfl
  refine ⟨(compileFor_keepsMeaning .master [maybeCondition]).1 ?_ yardRecord rfl hvalid,
    by decide +kernel⟩
  intro c hc
  obtain rfl := List.mem_singleton.1 hc
  decide

end Filter

end CoachLedger
