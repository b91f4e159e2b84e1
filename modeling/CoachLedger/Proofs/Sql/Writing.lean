/-
**Writing a predicate as SQL.**

The condition of a predicate can be written in one pass over the predicate, with a list of
parameters that grows: each operand is put at the end of the list, and its place in the list is the
number of its placeholder.  This is the text of the condition, with the parameters after those that
were there.  The operands themselves never come into the text, which depends on no more than their
kinds.

Main definitions:

* `CoachLedger.Predicate.toSql` — a predicate as a text with parameters, for columns that are
  renamed and belong to a table with an alias;
* `CoachLedger.Predicate.write` — the same in one pass;
* `CoachLedger.Predicate.form` — a predicate with fixed operands in place of its own;
* `CoachLedger.Predicate.bound` — the operands of a predicate as they are bound.

Main results:

* `CoachLedger.Predicate.write_eq` — **one pass writes the condition and its parameters**;
* `CoachLedger.Predicate.text_form` — **the text depends on the form alone**;
* `CoachLedger.Predicate.operands_eq_bound` — the parameters are the operands from left to right.
-/

import CoachLedger.Sql.Condition

set_option autoImplicit false

namespace CoachLedger

open CoachLedger.Sql (Dialect Condition)
open CoachLedger.Sql.Condition (containing startingWith endingWith ofComparison ofPredicate
  ofPredicates operandText joined qualified)

/-! ### Induction on predicates -/

/-- A property of all predicates, once a predicate has it whose members have it. -/
theorem Predicate.induct_members {motive : Predicate → Prop} (everything : motive .everything)
    (idle : ∀ reason, motive (.idle reason)) (clause : ∀ column c, motive (.clause column c))
    (not : ∀ inner, motive inner → motive (.not inner))
    (and : ∀ members, (∀ p ∈ members, motive p) → motive (.and members))
    (or : ∀ members, (∀ p ∈ members, motive p) → motive (.or members)) (p : Predicate) :
    motive p := by
  -- The members of a group are smaller than the group.
  induction hn : sizeOf p using Nat.strongRecOn generalizing p with
  | _ n ih =>
      have hmember {ps : List Predicate} (hps : sizeOf ps < n) : ∀ q ∈ ps, motive q := by
        intro q hq
        have hlt := List.sizeOf_lt_of_mem hq
        exact ih (sizeOf q) (by omega) q rfl
      cases p with
      | everything => exact everything
      | idle reason => exact idle reason
      | clause column c => exact clause column c
      | not inner =>
          refine not inner (ih (sizeOf inner) ?_ inner rfl)
          rw [← hn, Predicate.not.sizeOf_spec]
          omega
      | and members =>
          refine and members (hmember ?_)
          rw [← hn, Predicate.and.sizeOf_spec]
          omega
      | or members =>
          refine or members (hmember ?_)
          rw [← hn, Predicate.or.sizeOf_spec]
          omega

/-! ### Parameters -/

/-- The values that are bound for a comparison, from left to right.  A text that is searched for is
bound as a pattern. -/
def Comparison.bound : Comparison → List Value
  | contains s => [.text (containing s)]
  | startsWith s => [.text (startingWith s)]
  | endsWith s => [.text (endingWith s)]
  | c => c.operands

theorem operands_ofComparison (column : String) (c : Comparison) :
    (ofComparison column c).operands = c.bound := by
  cases c with
  | equals v fold => cases fold <;> rfl
  | _ => rfl

namespace Predicate

mutual

/-- The comparisons of a predicate from left to right. -/
def comparisons : Predicate → List Comparison
  | everything => []
  | idle _ => []
  | clause _ c => [c]
  | not inner => comparisons inner
  | and members => comparisonsIn members
  | or members => comparisonsIn members
termination_by structural p => p

/-- The comparisons of a list of predicates from left to right. -/
def comparisonsIn : List Predicate → List Comparison
  | [] => []
  | p :: ps => comparisons p ++ comparisonsIn ps
termination_by structural ps => ps

end

/-- The values that are bound for a predicate, from left to right. -/
def bound (p : Predicate) : List Value :=
  p.comparisons.flatMap Comparison.bound

theorem operandsOf_eq {ps : List Predicate}
    (h : ∀ p ∈ ps, (ofPredicate p).operands = p.comparisons.flatMap Comparison.bound) :
    Condition.operandsOf (ofPredicates ps) = (comparisonsIn ps).flatMap Comparison.bound := by
  induction ps with
  | nil => rfl
  | cons p ps ih =>
      obtain ⟨hp, hps⟩ := List.forall_mem_cons.1 h
      rw [ofPredicates, Condition.operandsOf, hp, ih hps, comparisonsIn, List.flatMap_append]

/-- The parameters of a predicate are its operands from left to right. -/
theorem operands_eq_bound (p : Predicate) : (ofPredicate p).operands = p.bound := by
  unfold bound
  induction p using induct_members with
  | everything => rfl
  | idle reason => rfl
  | clause column c =>
      rw [ofPredicate, operands_ofComparison, comparisons, List.flatMap_singleton]
  | not inner ih => rw [ofPredicate, Condition.operands, ih, comparisons]
  | and members ih => rw [ofPredicate, Condition.operands, operandsOf_eq ih, comparisons]
  | or members ih => rw [ofPredicate, Condition.operands, operandsOf_eq ih, comparisons]

end Predicate

/-! ### Forms -/

/-- Some value of the kind of a value. -/
def Value.sample : Value → Value
  | null => null
  | text _ => text ""
  | number _ => number .nan
  | date _ => date default
  | boolean _ => boolean false

theorem Value.kind?_sample (v : Value) : v.sample.kind? = v.kind? := by
  cases v <;> rfl

/-- A comparison with fixed operands in place of its own, each of the same kind. -/
def Comparison.form : Comparison → Comparison
  | isNull => isNull
  | equals v fold => equals v.sample fold
  | contains _ => contains ""
  | startsWith _ => startsWith ""
  | endsWith _ => endsWith ""
  | greater v => greater v.sample
  | greaterOrEqual v => greaterOrEqual v.sample
  | less v => less v.sample
  | lessOrEqual v => lessOrEqual v.sample
  | between low high => between low.sample high.sample

theorem operandText_sample (d : Dialect) (count : Nat) (v : Value) :
    operandText d count v.sample = operandText d count v := by
  rw [operandText, operandText, v.kind?_sample]

theorem text_compare_sample (d : Dialect) (column : String → String) (count : Nat) (name : String)
    (r : Sql.Relation) (v : Value) :
    (Condition.compare name r v.sample).text d column count =
      (Condition.compare name r v).text d column count := by
  rw [Condition.text, Condition.text, operandText_sample]

/-- The text of a comparison depends on the form alone, and so does the number of its parameters. -/
theorem text_ofComparison_form (d : Dialect) (column : String → String) (count : Nat)
    (name : String) (c : Comparison) :
    (ofComparison name c.form).text d column count = (ofComparison name c).text d column count ∧
      c.form.bound.length = c.bound.length := by
  cases c with
  | isNull => exact ⟨rfl, rfl⟩
  | equals v fold =>
      cases fold with
      | false => exact ⟨text_compare_sample d column count name .equal v, rfl⟩
      | true =>
          refine ⟨?_, rfl⟩
          rw [Comparison.form, ofComparison, ofComparison, Condition.text, Condition.text]
  | contains s | startsWith s | endsWith s =>
      -- The pattern is a parameter, and the text does not look at it.
      constructor
      · rw [Comparison.form, ofComparison, ofComparison, Condition.text, Condition.text]
      · rw [Comparison.form, Comparison.bound, Comparison.bound, List.length_singleton,
          List.length_singleton]
  | greater v => exact ⟨text_compare_sample d column count name .greater v, rfl⟩
  | greaterOrEqual v => exact ⟨text_compare_sample d column count name .greaterOrEqual v, rfl⟩
  | less v => exact ⟨text_compare_sample d column count name .less v, rfl⟩
  | lessOrEqual v => exact ⟨text_compare_sample d column count name .lessOrEqual v, rfl⟩
  | between low high =>
      refine ⟨?_, rfl⟩
      rw [Comparison.form, ofComparison, ofComparison, Condition.text, Condition.text,
        operandText_sample, operandText_sample]

namespace Predicate

mutual

/-- A predicate with fixed operands in place of its own, each of the same kind. -/
def form : Predicate → Predicate
  | everything => everything
  | idle reason => idle reason
  | clause column c => clause column c.form
  | not inner => not (form inner)
  | and members => and (formEach members)
  | or members => or (formEach members)
termination_by structural p => p

/-- The forms of a list of predicates. -/
def formEach : List Predicate → List Predicate
  | [] => []
  | p :: ps => form p :: formEach ps
termination_by structural ps => ps

end

/-- The texts of predicates, and the number of their parameters, if they have the property that is
shown of each predicate below. -/
theorem texts_formEach (d : Dialect) (column : String → String) {ps : List Predicate}
    (h : ∀ p ∈ ps, ∀ count,
      (ofPredicate p.form).text d column count = (ofPredicate p).text d column count ∧
        (ofPredicate p.form).operands.length = (ofPredicate p).operands.length) (count : Nat) :
    Condition.texts d column count (ofPredicates (formEach ps)) =
        Condition.texts d column count (ofPredicates ps) ∧
      (Condition.operandsOf (ofPredicates (formEach ps))).length =
        (Condition.operandsOf (ofPredicates ps)).length := by
  induction ps generalizing count with
  | nil => exact ⟨rfl, rfl⟩
  | cons p ps ih =>
      obtain ⟨hp, hps⟩ := List.forall_mem_cons.1 h
      obtain ⟨htext, hlength⟩ := hp count
      obtain ⟨htexts, hlengths⟩ := ih hps (count + (ofPredicate p).operands.length)
      rw [formEach, ofPredicates, ofPredicates]
      constructor
      · rw [Condition.texts, Condition.texts, htext, hlength, htexts]
      · rw [Condition.operandsOf, Condition.operandsOf, List.length_append, List.length_append,
          hlength, hlengths]

/-- **The text depends on the form alone**, and so does the number of the parameters. -/
theorem text_form (d : Dialect) (column : String → String) (p : Predicate) (count : Nat) :
    (ofPredicate p.form).text d column count = (ofPredicate p).text d column count ∧
      (ofPredicate p.form).operands.length = (ofPredicate p).operands.length := by
  induction p using induct_members generalizing count with
  | everything => exact ⟨rfl, rfl⟩
  | idle reason => exact ⟨rfl, rfl⟩
  | clause name c =>
      obtain ⟨htext, hlength⟩ := text_ofComparison_form d column count name c
      rw [form, ofPredicate, ofPredicate, operands_ofComparison, operands_ofComparison]
      exact ⟨htext, hlength⟩
  | not inner ih =>
      obtain ⟨htext, hlength⟩ := ih count
      rw [form, ofPredicate, ofPredicate, Condition.text, Condition.text, htext]
      exact ⟨rfl, hlength⟩
  | and members ih =>
      obtain ⟨htexts, hlength⟩ := texts_formEach d column ih count
      rw [form, ofPredicate, ofPredicate, Condition.text, Condition.text, htexts]
      exact ⟨rfl, hlength⟩
  | or members ih =>
      obtain ⟨htexts, hlength⟩ := texts_formEach d column ih count
      rw [form, ofPredicate, ofPredicate, Condition.text, Condition.text, htexts]
      exact ⟨rfl, hlength⟩

/-! ### One pass -/

/-- A value is put at the end of the parameters; its placeholder. -/
def push (d : Dialect) (params : List Value) (v : Value) : String × List Value :=
  let params := params ++ [v]
  (d.placeholder params.length, params)

/-- A value is put at the end of the parameters; its placeholder, which compares as a date if the
value is one. -/
def pushOperand (d : Dialect) (params : List Value) (v : Value) : String × List Value :=
  let p := push d params v
  (if v.kind? == some .date then d.dateParameter p.1 else p.1, p.2)

/-- A column is compared with an operand. -/
def writeBinary (d : Dialect) (column symbol : String) (params : List Value) (v : Value) :
    String × List Value :=
  let p := pushOperand d params v
  (column ++ " " ++ symbol ++ " " ++ p.1, p.2)

/-- A column is matched with a pattern. -/
def writeLike (d : Dialect) (column : String) (params : List Value) (pattern : String) :
    String × List Value :=
  let p := push d params (.text pattern)
  (d.like column p.1, p.2)

/-- A comparison of a column, with the parameters after it. -/
def writeComparison (d : Dialect) (column : String) (params : List Value) :
    Comparison → String × List Value
  | .isNull => (column ++ " IS NULL", params)
  | .equals v true =>
      let p := push d params v
      (d.equalsFolded column p.1, p.2)
  | .equals v false => writeBinary d column "=" params v
  | .contains s => writeLike d column params (containing s)
  | .startsWith s => writeLike d column params (startingWith s)
  | .endsWith s => writeLike d column params (endingWith s)
  | .greater v => writeBinary d column ">" params v
  | .greaterOrEqual v => writeBinary d column ">=" params v
  | .less v => writeBinary d column "<" params v
  | .lessOrEqual v => writeBinary d column "<=" params v
  | .between low high =>
      let lo := pushOperand d params low
      let hi := pushOperand d lo.2 high
      (column ++ " BETWEEN " ++ lo.1 ++ " AND " ++ hi.1, hi.2)

mutual

/-- A predicate in one pass, with the parameters after it. -/
def write (d : Dialect) (column : String → String) (params : List Value) :
    Predicate → String × List Value
  | everything => ("1=1", params)
  | idle _ => ("1=1", params)
  | clause name c => writeComparison d (column name) params c
  | not inner =>
      let r := write d column params inner
      ("NOT (" ++ r.1 ++ ")", r.2)
  | and members =>
      let r := writeEach d column params members
      (joined " AND " "1=1" r.1, r.2)
  | or members =>
      let r := writeEach d column params members
      (joined " OR " "1=0" r.1, r.2)
termination_by structural p => p

/-- Predicates one after the other, with the parameters after all of them. -/
def writeEach (d : Dialect) (column : String → String) (params : List Value) :
    List Predicate → List String × List Value
  | [] => ([], params)
  | p :: ps =>
      let r := write d column params p
      let s := writeEach d column r.2 ps
      (r.1 :: s.1, s.2)
termination_by structural ps => ps

end

theorem pushOperand_eq (d : Dialect) (params : List Value) (v : Value) :
    pushOperand d params v = (operandText d params.length v, params ++ [v]) := by
  rw [pushOperand, push, operandText, List.length_append]
  rfl

theorem writeBinary_eq (d : Dialect) (column symbol : String) (params : List Value) (v : Value) :
    writeBinary d column symbol params v =
      (column ++ " " ++ symbol ++ " " ++ operandText d params.length v, params ++ [v]) := by
  rw [writeBinary, pushOperand_eq]

theorem writeLike_eq (d : Dialect) (column : String) (params : List Value) (pattern : String) :
    writeLike d column params pattern =
      (d.like column (d.placeholder (params.length + 1)), params ++ [.text pattern]) := by
  rw [writeLike, push, List.length_append]
  rfl

theorem writeComparison_eq (d : Dialect) (column : String → String) (name : String)
    (params : List Value) (c : Comparison) :
    writeComparison d (column name) params c =
      (ofComparison name c).render d column params := by
  rw [Condition.render]
  cases c with
  | isNull =>
      rw [writeComparison, ofComparison, Condition.text, Condition.operands, List.append_nil]
  | equals v fold =>
      cases fold with
      | false =>
          rw [writeComparison, writeBinary_eq]
          rfl
      | true =>
          rw [writeComparison, push, List.length_append]
          rfl
  | contains s | startsWith s | endsWith s =>
      rw [writeComparison, writeLike_eq]
      rfl
  | greater v | greaterOrEqual v | less v | lessOrEqual v =>
      rw [writeComparison, writeBinary_eq]
      rfl
  | between low high =>
      rw [writeComparison, pushOperand_eq, pushOperand_eq, ofComparison, Condition.text,
        Condition.operands, List.length_append, List.append_assoc]
      rfl

theorem writeEach_eq (d : Dialect) (column : String → String) {ps : List Predicate}
    (h : ∀ p ∈ ps, ∀ params,
      write d column params p = (ofPredicate p).render d column params) (params : List Value) :
    writeEach d column params ps =
      (Condition.texts d column params.length (ofPredicates ps),
        params ++ Condition.operandsOf (ofPredicates ps)) := by
  induction ps generalizing params with
  | nil =>
      rw [writeEach, ofPredicates, Condition.texts, Condition.operandsOf, List.append_nil]
  | cons p ps ih =>
      obtain ⟨hp, hps⟩ := List.forall_mem_cons.1 h
      rw [writeEach, hp, Condition.render]
      dsimp only
      rw [ih hps, List.length_append, ofPredicates, Condition.texts, Condition.operandsOf,
        List.append_assoc]

/-- **One pass writes the condition and its parameters.** -/
theorem write_eq (d : Dialect) (column : String → String) (p : Predicate) (params : List Value) :
    write d column params p = (ofPredicate p).render d column params := by
  induction p using induct_members generalizing params with
  | everything => rw [write, ofPredicate, Condition.render, Condition.text, Condition.operands,
      List.append_nil]
  | idle reason => rw [write, ofPredicate, Condition.render, Condition.text, Condition.operands,
      List.append_nil]
  | clause name c => rw [write, ofPredicate, writeComparison_eq]
  | not inner ih =>
      rw [write, ih]
      rfl
  | and members ih =>
      rw [write, writeEach_eq d column ih]
      rfl
  | or members ih =>
      rw [write, writeEach_eq d column ih]
      rfl

/-! ### Columns of a table -/

/-- The name of a column that is renamed and belongs to a table with an alias. -/
def columnName (mapper : String → String) (alias_ : String) (column : String) : String :=
  qualified alias_ (mapper column)

/-- A predicate as a text with parameters after those given. -/
def toSql (p : Predicate) (d : Dialect) (mapper : String → String) (alias_ : String)
    (before : List Value) : String × List Value :=
  (ofPredicate p).render d (columnName mapper alias_) before

end Predicate

end CoachLedger
