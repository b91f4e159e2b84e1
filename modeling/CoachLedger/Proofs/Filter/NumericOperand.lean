/-
**Numbers as operands.**

An operand that is written as a number in JSON is kept as its spelling, and it is taken for a number
again only if there is no hyphen in it: hyphens keep dates and other codes apart from numbers.  With
a hyphen, which negative numbers have and fractions close to zero, it is a text, and it finds the
fields whose numbers have this text form.  So an operand counts as its number if it has no hyphen or
is spelled as the text form of its number, and then equality finds the fields that hold an equal
number; any other operand is equal to no number.

Main definitions:

* `CoachLedger.Filter.StatesNumber` — a text is one condition whose operand is written as a numeral;
* `CoachLedger.Filter.CountsAsNumber` — a numeral counts as its number.

Main results:

* `CoachLedger.Filter.countsAsNumber_integer` — integers of 53 binary digits do;
* `CoachLedger.Filter.evaluate_equality_numeral` — what equality with a numeral says of a number;
* `CoachLedger.Filter.selects_numeral` — **equality finds the numbers that an operand counts as**.
-/

import CoachLedger.Proofs.Filter.BooleanColumns
import CoachLedger.Proofs.Filter.Reading
import CoachLedger.Proofs.Json.Parsed
import CoachLedger.Proofs.Value.Numbers

set_option autoImplicit false

namespace CoachLedger.Filter

variable {c : Condition} {r : Record} {n : Json.Numeral} {text : String}

/-! ### Operands that are numerals -/

/-- The text is a list of one condition, whose operand is written as the numeral. -/
def StatesNumber (text : String) (n : Json.Numeral) (c : Condition) : Prop :=
  ∃ t given, Json.outline text = ⟨.array [t], true⟩ ∧ Gives t given ∧ IsMadeOf given c ∧
    (Member.value, .number (some n)) ∈ given

/-- The spelling of the numeral has no hyphen, or it is the text form of its number. -/
def CountsAsNumber (n : Json.Numeral) : Prop :=
  '-' ∉ n.text ∨ String.ofList n.text = Value.numberText n.toBinary64

instance (n : Json.Numeral) : Decidable (CountsAsNumber n) :=
  inferInstanceAs (Decidable (_ ∨ _))

/-- **The integers in the range where all integers are exact count as numbers.** -/
theorem countsAsNumber_integer {i : Int} (h : i.natAbs ≤ Binary64.maxExactInteger) :
    CountsAsNumber (.integer i) := by
  have htext := Value.numberText_of_exactInteger? (Binary64.exactInteger?_ofInt h)
  refine .inr ?_
  rw [Json.Numeral.toBinary64, htext, ← Value.toList_toString, String.ofList_toList]

/-- The members that a tree of numerals in range gives are numerals in range. -/
theorem isInRange_of_gives {t tree : Json.Tree} {given : List (Member × Json.Tree)} {m : Member}
    {bound : Nat} (ht : t.IsInRange bound) (h : Gives t given) (hm : (m, tree) ∈ given) :
    tree.IsInRange bound := by
  cases h with
  | @object members hnames =>
      cases ht with
      | object _ hall =>
          obtain ⟨⟨name, t⟩, hmem, heq⟩ := List.mem_filterMap.1 hm
          cases name with
          | none => cases heq
          | some name =>
              obtain ⟨k, -, hpair⟩ := Option.map_eq_some_iff.1 heq
              obtain ⟨-, rfl⟩ := Prod.mk.inj hpair
              exact hall _ hmem
  | @array items hlength =>
      cases ht with
      | array _ hall => exact hall _ (List.of_mem_zip hm).2

namespace StatesNumber

theorem readConditions (h : StatesNumber text n c) : readConditions text = .ok [c] := by
  obtain ⟨t, given, houtline, hgives, hmade, -⟩ := h
  exact readConditions_eq_ok.2 ⟨[t], houtline, .cons ⟨given, hgives, hmade⟩ .nil⟩

/-- The operand is the spelling of the numeral. -/
theorem value_eq (h : StatesNumber text n c) : c.value = String.ofList n.text := by
  obtain ⟨t, given, -, -, hmade, hmem⟩ := h
  have htakes : readOperand (.number (some n)) = .ok c.value := hmade.takes _ hmem
  exact (Except.ok.inj htakes).symm

theorem isInRange (h : StatesNumber text n c) : n.IsInRange := by
  obtain ⟨t, given, houtline, hgives, -, hmem⟩ := h
  have hlist := Json.isInRange_outline houtline
  cases hlist with
  | array _ hall =>
      cases isInRange_of_gives (hall t (List.mem_singleton_self t)) hgives hmem with
      | number hnumber => exact hnumber n rfl

theorem isSpelledBy (h : StatesNumber text n c) : n.toBinary64.IsSpelledBy n.text :=
  Json.Numeral.isSpelledBy_text h.isInRange

end StatesNumber

/-! ### The value of an operand -/

/-- **The operand is the number if there is no hyphen, and otherwise the text.** -/
theorem inferred_spelling {y : Binary64} {cs : List Char} {op : Operator} (hop : op ≠ .dateRange)
    (h : y.IsSpelledBy cs) :
    inferred op (String.ofList cs) =
      if '-' ∈ cs then .text (String.ofList cs) else .number y := by
  have hread := h.readNumber?
  have hboolean : Value.readBoolean? (String.ofList cs) = none := by
    have hne {s : String} (hs : Value.readNumber? s = none) : String.ofList cs ≠ s := by
      rintro rfl
      rw [hread] at hs
      cases hs
    rw [Value.readBoolean?, if_neg (hne (by decide)), if_neg (hne (by decide))]
  unfold inferred inferKind
  rw [hread, hboolean, h.readDate?, String.toList_ofList]
  by_cases hhyphen : '-' ∈ cs
  · simp [hhyphen, hop, coerce?]
  · simp [hhyphen, coerce?, hread]

/-! ### Equality -/

/-- What equality with a number says of a number. -/
theorem exactEq_number (x : Binary64) {y : Binary64} (hy : y.isFinite = true) :
    (Value.number x).exactEq (.number y) = some (x.same y) := by
  unfold Value.exactEq
  rw [if_neg (by simp [Value.isNull])]
  cases hcompare : x.compare y with
  | some o => simp [Value.compare, Binary64.same, hcompare]
  | none =>
      have hsame : x.same y = false := by rw [Binary64.same, hcompare]; rfl
      have htext : Value.numberText x ≠ Value.numberText y := fun h => by
        rw [(Value.numberText_eq_iff hy).1 h] at hsame
        cases hsame
      simp [Value.compare, Value.text?, hcompare, hsame, htext]

/-- **Equality with a numeral finds the numbers that it counts as.** -/
theorem evaluate_equality_numeral (h : n.toBinary64.IsSpelledBy n.text) {op : Operator}
    (hop : op ≠ .dateRange) (x : Binary64) :
    (equality (inferred op (String.ofList n.text))).evaluate (.number x) =
      some (decide (CountsAsNumber n) && x.same n.toBinary64) := by
  rw [inferred_spelling hop h]
  split
  · rename_i hhyphen
    have htext := Value.numberText_eq_spelling_iff (x := x) h
    rw [← Value.fold_numberText_eq_iff h] at htext
    have hcounts : CountsAsNumber n ↔ String.ofList n.text = Value.numberText n.toBinary64 :=
      or_iff_right (not_not_intro hhyphen)
    change some (Text.fold (Value.numberText x) == Text.fold (String.ofList n.text)) = _
    rw [Option.some.injEq, Bool.eq_iff_iff, beq_iff_eq, htext, Bool.and_eq_true,
      decide_eq_true_eq, hcounts]
  · rename_i hhyphen
    have hcounts : CountsAsNumber n := .inl hhyphen
    rw [decide_eq_true hcounts, Bool.true_and]
    exact exactEq_number x h.isFinite

/-- The field of the record holds a number or nothing. -/
theorem holdsNumber (hr : r.IsValid) {column : String}
    (hf : (r.kind.field? column).map Field.kind = some .number) :
    r.get column = .null ∨ ∃ x, r.get column = .number x := by
  by_cases hv : r.get column = .null
  · exact .inl hv
  · have hkind := Record.kind?_get hr hf hv
    cases hget : r.get column with
    | number x => exact .inr ⟨x, rfl⟩
    | _ =>
        rw [hget] at hkind
        cases hkind

/-- The truth value says of a number whether it satisfies the property; of null it says nothing. -/
def Decides (v : Value) (P : Binary64 → Prop) (o : Option Bool) : Prop :=
  v = .null ∧ o = none ∨ ∃ x b, v = .number x ∧ o = some b ∧ (b = true ↔ P x)

section

variable {v : Value} {P : Binary64 → Prop} {o : Option Bool}

theorem Decides.not (h : Decides v P o) : Decides v (fun x => ¬P x) (Kleene.not o) := by
  rcases h with ⟨hv, rfl⟩ | ⟨x, b, hv, rfl, hb⟩
  · exact .inl ⟨hv, rfl⟩
  · refine .inr ⟨x, !b, hv, rfl, ?_⟩
    rw [Bool.not_eq_true', ← Bool.not_eq_true]
    exact not_congr hb

theorem Decides.eq_some_true_iff (h : Decides v P o) :
    o = some true ↔ ∃ x, v = .number x ∧ P x := by
  rcases h with ⟨rfl, rfl⟩ | ⟨x, b, rfl, rfl, hb⟩
  · exact iff_of_false (by rintro ⟨⟩) (by rintro ⟨x, ⟨⟩, -⟩)
  · rw [Option.some.injEq, hb]
    exact ⟨fun hx => ⟨x, rfl, hx⟩, fun ⟨_, hx, hp⟩ => Value.number.inj hx ▸ hp⟩

end

/-- What equality with an operand says of a record. -/
theorem decides_equality (h : StatesNumber text n c) (hdeclared : c.declared = none)
    (hop : c.operator ≠ .dateRange) (hr : r.IsValid)
    (hf : (r.kind.field? c.column).map Field.kind = some .number) :
    Decides (r.get c.column) (fun x => CountsAsNumber n ∧ x.same n.toBinary64 = true)
      ((Predicate.clause c.column (equality c.operand)).evaluate r) := by
  have hoperand : c.operand = inferred c.operator (String.ofList n.text) := by
    rw [Condition.operand, hdeclared, h.value_eq]
    rfl
  rcases holdsNumber hr hf with hnull | ⟨x, hx⟩
  · exact .inl ⟨hnull, evaluate_clause_null hnull (by simp [equality])⟩
  · have hequality := evaluate_equality_numeral h.isSpelledBy hop x
    rw [← hoperand, ← hx] at hequality
    exact .inr ⟨x, _, hx, hequality, by rw [Bool.and_eq_true, decide_eq_true_eq]⟩

/-- A condition on a number column selects by its predicate alone. -/
theorem selects_numberColumn (hr : r.IsValid)
    (hf : (r.kind.field? c.column).map Field.kind = some .number) :
    (compileFor r.kind [c]).selects r = true ↔ c.predicate.evaluate r = some true := by
  rw [← evaluate_predicateFor hr (by simp [hf])]
  exact beq_iff_eq

/-- **Equality finds the numbers that an operand counts as**, and its opposite finds all others.  An
operand that does not count as its number is equal to none. -/
theorem selects_numeral (h : StatesNumber text n c) (hdeclared : c.declared = none)
    (hr : r.IsValid) (hf : (r.kind.field? c.column).map Field.kind = some .number) :
    readConditions text = .ok [c] ∧
    (c.operator = .equals → ((compileFor r.kind [c]).selects r = true ↔
      ∃ x, r.get c.column = .number x ∧ (CountsAsNumber n ∧ x.same n.toBinary64 = true))) ∧
    (c.operator = .notEquals → ((compileFor r.kind [c]).selects r = true ↔
      ∃ x, r.get c.column = .number x ∧ ¬(CountsAsNumber n ∧ x.same n.toBinary64 = true))) ∧
    ∀ i, n = .integer i → i.natAbs ≤ Binary64.maxExactInteger → CountsAsNumber n := by
  refine ⟨h.readConditions, fun hop => ?_, fun hop => ?_, ?_⟩
  · have hpredicate : c.predicate = .clause c.column (equality c.operand) := by
      rw [Condition.predicate, hop]
    rw [selects_numberColumn hr hf, hpredicate]
    exact (decides_equality h hdeclared (by simp [hop]) hr hf).eq_some_true_iff
  · have hpredicate : c.predicate = .not (.clause c.column (equality c.operand)) := by
      rw [Condition.predicate, hop]
    rw [selects_numberColumn hr hf, hpredicate]
    exact (decides_equality h hdeclared (by simp [hop]) hr hf).not.eq_some_true_iff
  · rintro i rfl hi
    exact countsAsNumber_integer hi

/-! ### Written conditions -/

/-- The text of a condition that compares a column with a numeral. -/
def numericText (column operator : String) (n : Json.Numeral) : String :=
  (Json.array [.object [("column", .string column), ("operator", .string operator),
    ("value", .number n)]]).text

/-- The condition that compares a column with a numeral. -/
def numericCondition (column : String) (op : Operator) (n : Json.Numeral) : Condition :=
  ⟨none, column, op, String.ofList n.text, none, .and, none⟩

/-- The tree of a condition that compares a column with a numeral. -/
def numericMembers (column operator : String) (n : Json.Numeral) :
    List (Member × Json × Json.Tree) :=
  [(.column, .string column, .string (some column)),
    (.operator, .string operator, .string (some operator)),
    (.value, .number n, .number (some n))]

/-- **Every numeral that is read as itself can be the operand of a condition.** -/
theorem statesNumber_numericText (column operator : String)
    (hn : Json.Numeral.read? n.text = some (some n)) :
    StatesNumber (numericText column operator n) n
      (numericCondition column (.ofName operator) n) := by
  have hmembers : ∀ x ∈ numericMembers column operator n, Json.Stands x.2.1.chars x.2.2 := by
    simp only [numericMembers, List.forall_mem_cons]
    exact ⟨Json.stands_string _, Json.stands_string _, Json.stands_number hn, List.forall_mem_nil _⟩
  have hobject : Json.Stands
      (Json.object ((numericMembers column operator n).map fun x => (x.1.name, x.2.1))).chars
      (.object ((numericMembers column operator n).map fun x => (some x.1.name, x.2.2))) :=
    Json.stands_object hmembers
  have harray : Json.Stands (Json.array ([()].map fun _ => .object _)).chars
      (.array ([()].map fun _ => .object _)) := Json.stands_array fun _ _ => hobject
  rw [← Json.toList_text] at harray
  refine ⟨_, [(.column, .string (some column)), (.operator, .string (some operator)),
    (.value, .number (some n))], Json.outline_eq_iff.2 harray, ?_, ?_, ?_⟩
  · exact .object (List.forall_mem_map.2 fun x _ => rfl)
  · have hdistinct : [Member.column, .operator, .value].Nodup := by decide
    refine ⟨hdistinct, ?_, fun m (hm : m ∉ [Member.column, .operator, .value]) => ?_⟩
    · simp only [List.forall_mem_cons]
      exact ⟨rfl, ⟨operator, rfl, rfl⟩, rfl, List.forall_mem_nil _⟩
    · cases m with
      | column => exact absurd (by decide) hm
      | operator => exact absurd (by decide) hm
      | value => exact absurd (by decide) hm
      | _ => rfl
  · simp

/-- A coach with a year. -/
def yearRecord (x : Binary64) : Record :=
  Store.recordOf .master "built_year" (.number x)

theorem isValid_yearRecord (x : Binary64) : (yearRecord x).IsValid :=
  Store.isValid_recordOf (f := ⟨"built_year", .number⟩) (by decide) rfl

/-- A negative integer finds the year that it is. -/
theorem selects_numeral_negative :
    (StatesNumber (numericText "built_year" "equals" (.integer (-5))) (.integer (-5))
      (numericCondition "built_year" .equals (.integer (-5))) ∧
      (yearRecord (.ofInt (-5))).IsValid) ∧
    (compileFor .master [numericCondition "built_year" .equals (.integer (-5))]).selects
      (yearRecord (.ofInt (-5))) = true := by
  have hstates := statesNumber_numericText "built_year" "equals"
    (Json.Numeral.read?_integer (i := -5) (by decide) (by decide))
  have hvalid := isValid_yearRecord (.ofInt (-5))
  obtain ⟨-, hequals, -, hinteger⟩ := selects_numeral hstates rfl hvalid (by decide)
  exact ⟨⟨hstates, hvalid⟩, (hequals rfl).2
    ⟨.ofInt (-5), rfl, hinteger _ rfl (by decide), by decide +kernel⟩⟩

/-- The number `-5`, spelled with a point. -/
def pointedNumeral : Json.Numeral := .float (.ofInt (-5))

/-- **A negative number that is spelled with a point does not find the year that it is.** -/
theorem not_selects_pointed :
    StatesNumber "[\x7b\"column\":\"built_year\",\"operator\":\"equals\",\"value\":-5.0\x7d]"
      pointedNumeral (numericCondition "built_year" .equals pointedNumeral) ∧
    (yearRecord (.ofInt (-5))).IsValid ∧
    (yearRecord (.ofInt (-5))).get "built_year" = .number (.ofInt (-5)) ∧
    (Binary64.ofInt (-5)).same pointedNumeral.toBinary64 = true ∧
    (compileFor .master [numericCondition "built_year" .equals pointedNumeral]).selects
      (yearRecord (.ofInt (-5))) = false := by
  have hread : Json.Numeral.read? pointedNumeral.text = some (some pointedNumeral) := by
    decide +kernel
  have htext : numericText "built_year" "equals" pointedNumeral =
      "[\x7b\"column\":\"built_year\",\"operator\":\"equals\",\"value\":-5.0\x7d]" := by
    decide +kernel
  refine ⟨htext ▸ statesNumber_numericText "built_year" "equals" hread, isValid_yearRecord _, rfl,
    by decide +kernel, by decide +kernel⟩

end CoachLedger.Filter
