/-
**One comparison, as the engine and as the program make it.**

A comparison of a field is made twice: by the storage engine on the cell of a column, and by the
program on the value that is read from the cell.  This module has the two truth values next to each
other, for each comparison and each pair of kinds, and says when they are the same.

Main definitions:

* `CoachLedger.Comparison.onCell` — the truth value that the engine gives to a comparison;
* `CoachLedger.Comparison.Known` — both truth values are known, and the same under a condition;
* `CoachLedger.Filter.faithfulEquality`, `CoachLedger.Filter.faithfulOrder`,
  `CoachLedger.Filter.faithfulSearch`, `CoachLedger.Filter.faithfulRange` — these conditions.

Main results:

* `CoachLedger.Comparison.onCell_null` — of a null cell the two truth values are the same;
* `CoachLedger.Filter.known_equality`, `CoachLedger.Filter.onCell_order_iff`,
  `CoachLedger.Filter.known_search`, `CoachLedger.Filter.onCell_range_iff` — the comparisons of a
  cell that is not null.
-/

import CoachLedger.Filter.Compile
import CoachLedger.Proofs.Calendar.TextOrder
import CoachLedger.Proofs.Sql.Column
import CoachLedger.Proofs.Sql.Pattern
import CoachLedger.Proofs.Value.Shape

set_option autoImplicit false

namespace CoachLedger

open CoachLedger.Sql (Affinity Cell Relation)

/-! ### Comparisons of cells -/

/-- The relation between a cell and an operand in a column. -/
def Sql.Cell.related (a : Affinity) (cell : Cell) (r : Relation) (v : Value) : Option Bool :=
  (cell.compare ((Cell.ofValue v).towards a)).map r.holds

namespace Comparison

/-- The truth value that the engine gives to a comparison of a cell. -/
def onCell (a : Affinity) (cell : Cell) : Comparison → Option Bool
  | isNull => some cell.isNull
  | equals v true =>
      (Sql.Condition.foldedText cell).bind fun s =>
        (Sql.Condition.foldedText (Cell.ofValue v)).map fun t => s == t
  | equals v false => cell.related a .equal v
  | contains s =>
      (Sql.Condition.foldedText cell).map
        (Sql.matchesPattern (Text.fold (Sql.Condition.containing s)))
  | startsWith s =>
      (Sql.Condition.foldedText cell).map
        (Sql.matchesPattern (Text.fold (Sql.Condition.startingWith s)))
  | endsWith s =>
      (Sql.Condition.foldedText cell).map
        (Sql.matchesPattern (Text.fold (Sql.Condition.endingWith s)))
  | greater v => cell.related a .greater v
  | greaterOrEqual v => cell.related a .greaterOrEqual v
  | less v => cell.related a .less v
  | lessOrEqual v => cell.related a .lessOrEqual v
  | between low high =>
      Kleene.and (cell.related a .greaterOrEqual low) (cell.related a .lessOrEqual high)

/-- The condition of a comparison looks at the column of the comparison only. -/
theorem truth_ofComparison (row : Sql.Row) (column : String) (c : Comparison) :
    (Sql.Condition.ofComparison column c).truth row =
      c.onCell (row.affinity column) (row.cell column) := by
  cases c with
  | equals v foldCase => cases foldCase <;> rfl
  | _ => rfl

/-- **Of a null cell the engine knows as much as the program of null.** -/
theorem onCell_null (a : Affinity) (c : Comparison) : c.onCell a .null = c.evaluate .null := by
  rw [evaluate_null]
  cases c with
  | equals v foldCase => cases foldCase <;> rfl
  | _ => rfl

/-- Both truth values of a comparison of a cell are known, and they are the same exactly under a
condition. -/
def Known (k : Kind) (cell : Cell) (c : Comparison) (condition : Prop) : Prop :=
  ∃ x y, c.onCell (.ofKind k) cell = some x ∧ c.evaluate (cell.toValue k) = some y ∧
    (x = y ↔ condition)

end Comparison

namespace Sql.Cell

/-! ### Cells that are not null -/

theorem isNull_eq_false {c : Cell} (hn : c ≠ null) : c.isNull = false := by
  cases c with
  | null => exact absurd rfl hn
  | _ => rfl

theorem isNull_toValue {k : Kind} {c : Cell} (h : Suits k c) (hn : c ≠ null) :
    (c.toValue k).isNull = false := by
  have hk := kind?_toValue h hn
  cases hv : c.toValue k with
  | null => rw [hv] at hk; cases hk
  | _ => rfl

theorem evaluate_toValue {k : Kind} {c : Cell} (h : Suits k c) (hn : c ≠ null) (cmp : Comparison) :
    cmp.evaluate (c.toValue k) = cmp.evaluateKnown (c.toValue k) := by
  rw [Comparison.evaluate, isNull_toValue h hn]
  rfl

theorem isSome_text? {c : Cell} (hn : c ≠ null) : ∃ t, c.text? = some t := by
  cases c with
  | null => exact absurd rfl hn
  | _ => exact ⟨_, rfl⟩

/-- An operand is brought to the texts as its own text. -/
theorem towards_text {c : Cell} {t : String} (h : c.text? = some t) : c.towards .text = text t := by
  cases c with
  | null => cases h
  | _ => exact congrArg text (Option.some.inj h)

theorem compare_text_text (s t : String) : (text s).compare (text t) = some (Text.order s t) := rfl

/-- A number goes before every text. -/
theorem compare_number_text {c : Cell} (h : c.IsNumber) (t : String) :
    c.compare (text t) = some .lt := by
  cases c with
  | null => exact h.elim
  | text s => exact h.elim
  | _ => rfl

/-- A date goes to a column of numbers as a text. -/
theorem towards_date (d : Date) : (ofValue (.date d)).towards .numeric = text d.text := by
  simp [ofValue, towards, readNumber?_text]

theorem towards_number (y : Binary64) :
    (ofValue (.number y)).towards .numeric = ofValue (.number y) := by
  cases h : ofValue (.number y) with
  | text s => exact absurd h (ofValue_number_ne_text y s)
  | _ => rfl

theorem compare_known {c d : Cell} (hc : c ≠ null) (hd : d ≠ null) :
    ∃ o, c.compare d = some o := by
  refine Option.isSome_iff_exists.1 ?_
  rw [compare_isSome, isNull_eq_false hc, isNull_eq_false hd]
  rfl

/-! ### The cells of each kind -/

theorem eq_text {c : Cell} (h : Suits .text c) (hn : c ≠ null) : ∃ s, c = text s := by
  cases h with
  | null => exact absurd rfl hn
  | text s => exact ⟨s, rfl⟩

theorem eq_date {c : Cell} (h : Suits .date c) (hn : c ≠ null) : ∃ d : Date, c = text d.text := by
  cases h with
  | null => exact absurd rfl hn
  | date d => exact ⟨d, rfl⟩

theorem eq_boolean {c : Cell} (h : Suits .boolean c) (hn : c ≠ null) :
    ∃ b : Bool, c = integer (if b then 1 else 0) := by
  cases h with
  | null => exact absurd rfl hn
  | boolean b => exact ⟨b, rfl⟩

theorem toValue_eq_number {c : Cell} (h : Suits .number c) (hn : c ≠ null) :
    ∃ x, c.toValue .number = .number x ∧ x ≠ .nan := by
  cases h with
  | null => exact absurd rfl hn
  | integer i => exact ⟨_, rfl, fun h => by cases h⟩
  | real negative rank h => exact ⟨_, rfl, fun h => by cases h⟩

end Sql.Cell

namespace Filter

/-! ### Searches in texts -/

/-- The comparison looks for a needle. -/
inductive IsSearch : Comparison → Prop
  | contains (needle : String) : IsSearch (.contains needle)
  | startsWith (needle : String) : IsSearch (.startsWith needle)
  | endsWith (needle : String) : IsSearch (.endsWith needle)

/-- The engine finds in the text of a cell what the program finds in that of the value. -/
def faithfulSearch (cell : Cell) (v : Value) (c : Comparison) : Bool :=
  match v with
  | .null | .boolean _ => true
  | v => (cell.text?.map fun t => Sql.found t c) == c.evaluateKnown v

theorem onCell_search {c : Comparison} (hc : IsSearch c) (a : Affinity) {cell : Cell} {t : String}
    (ht : cell.text? = some t) : c.onCell a cell = some (Sql.found t c) := by
  cases hc with
  | contains needle =>
      simp [Comparison.onCell, Sql.Condition.foldedText, ht, Sql.matchesPattern_containing,
        Sql.found]
  | startsWith needle =>
      simp [Comparison.onCell, Sql.Condition.foldedText, ht, Sql.matchesPattern_startingWith,
        Sql.found]
  | endsWith needle =>
      simp [Comparison.onCell, Sql.Condition.foldedText, ht, Sql.matchesPattern_endingWith,
        Sql.found]

theorem evaluateKnown_search {c : Comparison} (hc : IsSearch c) {v : Value} (hv : v ≠ .null) :
    ∃ y, c.evaluateKnown v = some y := by
  have htext : ∃ u, v.text? = some u := by
    cases v with
    | null => exact absurd rfl hv
    | _ => exact ⟨_, rfl⟩
  obtain ⟨u, hu⟩ := htext
  cases hc <;> simp [Comparison.evaluateKnown, Comparison.folded, hu]

theorem ne_null_toValue {k : Kind} {cell : Cell} (hs : Cell.Suits k cell) (hn : cell ≠ .null) :
    cell.toValue k ≠ .null := by
  intro h
  have := Cell.isNull_toValue hs hn
  rw [h] at this
  cases this

/-- **Searching a cell.** -/
theorem known_search {k : Kind} {cell : Cell} (hs : Cell.Suits k cell) (hn : cell ≠ .null)
    (hk : k ≠ .boolean) {c : Comparison} (hc : IsSearch c) :
    c.Known k cell (faithfulSearch cell (cell.toValue k) c = true) := by
  obtain ⟨t, ht⟩ := Cell.isSome_text? hn
  have hnull := ne_null_toValue hs hn
  obtain ⟨y, hy⟩ := evaluateKnown_search hc hnull
  refine ⟨_, y, onCell_search hc _ ht, (Cell.evaluate_toValue hs hn c).trans hy, ?_⟩
  have hkind := Cell.kind?_toValue hs hn
  cases hv : cell.toValue k with
  | null => exact absurd hv hnull
  | boolean b =>
      rw [hv] at hkind
      exact absurd (Option.some.inj hkind).symm hk
  | _ =>
      rw [hv] at hy
      simp [faithfulSearch, ht, hy]

/-! ### Equality -/

/-- The operand is neither null nor not-a-number. -/
def IsOperand (w : Value) : Prop :=
  w ≠ .null ∧ w ≠ .number .nan

/-- The engine takes a cell for equal to an operand exactly if the program takes the value for
it. -/
def faithfulEquality (cell : Cell) : Value → Value → Bool
  | .number x, .number y => (cell.compare (Cell.ofValue (.number y)) == some .eq) == x.same y
  | .number x, .text t =>
      (Sql.Condition.foldedText cell == some (Text.fold t)) ==
        (Text.fold (Value.numberText x) == Text.fold t)
  | .number _, .boolean b => cell.compare (Cell.ofValue (.boolean b)) != some .eq
  | .boolean _, .number y => cell.compare (Cell.ofValue (.number y)) != some .eq
  | _, _ => true

theorem ofValue_ne_null {w : Value} (hw : IsOperand w) : Cell.ofValue w ≠ .null := by
  cases w with
  | null => exact absurd rfl hw.1
  | number y =>
      unfold Cell.ofValue
      dsimp only
      split
      · simp
      · cases y with
        | nan => exact absurd rfl hw.2
        | signed negative rank le => simp [Cell.ofNumber]
  | _ => simp [Cell.ofValue]

theorem onCell_equality_text (a : Affinity) {cell : Cell} {u : String} (hu : cell.text? = some u)
    (t : String) :
    (equality (.text t)).onCell a cell = some (Text.fold u == Text.fold t) := by
  have hc : equality (.text t) = .equals (.text t) true := rfl
  rw [hc, Comparison.onCell, Sql.Condition.foldedText, hu]
  rfl

theorem equality_of_ne_text {w : Value} (hw : ∀ t, w ≠ .text t) : equality w = .equals w false := by
  cases w with
  | text t => exact absurd rfl (hw t)
  | _ => rfl

theorem onCell_equality (a : Affinity) (cell : Cell) {w : Value} (hw : ∀ t, w ≠ .text t) :
    (equality w).onCell a cell =
      (cell.compare ((Cell.ofValue w).towards a)).map fun o => o == .eq := by
  rw [equality_of_ne_text hw]
  rfl

theorem evaluateKnown_equality {v w : Value} (hw : ∀ t, w ≠ .text t) :
    (equality w).evaluateKnown v = v.exactEq w := by
  rw [equality_of_ne_text hw]
  rfl

theorem exactEq_of_some {v w : Value} (hv : v.isNull = false) (hw : w.isNull = false)
    {o : Ordering} (h : v.compare w = some o) : v.exactEq w = some (o == .eq) := by
  simp only [Value.exactEq, hv, hw, h]
  rfl

/-- Where there is no order, the text forms are compared. -/
theorem exactEq_of_none {v w : Value} (hv : v.isNull = false) (hw : w.isNull = false)
    (h : v.compare w = none) {s t : String} (hs : v.text? = some s) (ht : w.text? = some t)
    (hne : s ≠ t) : v.exactEq w = some false := by
  simp only [Value.exactEq, hv, hw, h, hs, ht]
  simpa using hne

/-- A date is equal to no number and to no boolean. -/
theorem known_equality_date (d : Date) {w : Value} (hw : IsOperand w) (ht : ∀ t, w ≠ .text t)
    (hd : ∀ e, w ≠ .date e) :
    (equality w).onCell .text (.text d.text) = some false ∧
      (equality w).evaluateKnown (.date d) = some false := by
  -- The engine compares the two texts, and only a date has the text of a date.
  obtain ⟨u, hu⟩ := Cell.isSome_text? (ofValue_ne_null hw)
  have hne : d.text ≠ u := by
    rintro rfl
    refine Cell.text?_ne_text (c := Cell.ofValue w) ?_ d hu
    intro s hs
    cases w with
    | null => cases hs
    | text t => exact ht t rfl
    | number y => exact Cell.ofValue_number_ne_text y s hs
    | date e => exact hd e rfl
    | boolean b => cases hs
  refine ⟨?_, ?_⟩
  · rw [onCell_equality _ _ ht, Cell.towards_text hu, Cell.compare_text_text]
    simpa using hne
  · rw [evaluateKnown_equality ht]
    cases w with
    | null => exact absurd rfl hw.1
    | text t => exact absurd rfl (ht t)
    | number y => exact exactEq_of_none rfl rfl rfl rfl rfl (Date.numberText_ne_text y d).symm
    | date e => exact absurd rfl (hd e)
    | boolean b => exact exactEq_of_none rfl rfl rfl rfl rfl (Date.booleanText_ne_text b d).symm

/-- No number and no boolean is equal to a date. -/
theorem known_equality_of_date (d : Date) (cell : Cell) (hc : cell.IsNumber) {v : Value}
    (hv : v.isNull = false) (hcmp : v.compare (.date d) = none) {t : String}
    (ht : v.text? = some t) (hne : t ≠ d.text) :
    (equality (.date d)).onCell .numeric cell = some false ∧
      (equality (.date d)).evaluateKnown v = some false := by
  have hd : ∀ t, Value.date d ≠ .text t := fun t h => by cases h
  refine ⟨?_, ?_⟩
  · rw [onCell_equality _ _ hd, Cell.towards_date, Cell.compare_number_text hc]
    rfl
  · rw [evaluateKnown_equality hd]
    exact exactEq_of_none hv rfl hcmp ht rfl hne

/-- To the program no number is equal to a boolean. -/
theorem evaluateKnown_equality_number_boolean (x : Binary64) (b : Bool) :
    (equality (.boolean b)).evaluateKnown (.number x) = some false ∧
      (equality (.number x)).evaluateKnown (.boolean b) = some false := by
  refine ⟨?_, ?_⟩
  · rw [evaluateKnown_equality fun t h => by cases h]
    exact exactEq_of_none rfl rfl rfl rfl rfl (Value.numberText_ne_booleanText x b)
  · rw [evaluateKnown_equality fun t h => by cases h]
    exact exactEq_of_none rfl rfl rfl rfl rfl (Value.numberText_ne_booleanText x b).symm

theorem onCell_equality_number (a : Affinity) (ha : a = .numeric) {cell : Cell} (hn : cell ≠ .null)
    {w : Value} (hw : IsOperand w) (ht : ∀ t, w ≠ .text t)
    (htowards : (Cell.ofValue w).towards .numeric = Cell.ofValue w) :
    (equality w).onCell a cell = some (cell.compare (Cell.ofValue w) == some .eq) := by
  obtain ⟨o, ho⟩ := Cell.compare_known hn (ofValue_ne_null hw)
  rw [onCell_equality _ _ ht, ha, htowards, ho]
  cases o <;> rfl

/-- **Equality of a cell with an operand.** -/
theorem known_equality {k : Kind} {cell : Cell} (hs : Cell.Suits k cell) (hn : cell ≠ .null)
    {w : Value} (hw : IsOperand w) (hkt : k = .text → ∃ t, w = .text t)
    (hkb : k = .boolean → ∀ t, w ≠ .text t) :
    (equality w).Known k cell (faithfulEquality cell (cell.toValue k) w = true) := by
  -- The kind of the column says what the cell is, and the operand how it is brought to the column.
  rw [Comparison.Known, Cell.evaluate_toValue hs hn]
  cases k with
  | text =>
      obtain ⟨s, rfl⟩ := Cell.eq_text hs hn
      obtain ⟨t, rfl⟩ := hkt rfl
      exact ⟨_, _, onCell_equality_text _ rfl t, rfl, by simp [faithfulEquality]⟩
  | date =>
      obtain ⟨d, rfl⟩ := Cell.eq_date hs hn
      rw [Cell.toValue_date]
      cases w with
      | null => exact absurd rfl hw.1
      | text t => exact ⟨_, _, onCell_equality_text _ rfl t, rfl, by simp [faithfulEquality]⟩
      | date e =>
          exact ⟨_, _, rfl, rfl, iff_of_true (Date.order_text_beq_eq d e) rfl⟩
      | number y =>
          obtain ⟨hx, hy⟩ := known_equality_date d hw (fun t h => by cases h) fun e h => by cases h
          exact ⟨_, _, hx, hy, by simp [faithfulEquality]⟩
      | boolean b =>
          obtain ⟨hx, hy⟩ := known_equality_date d hw (fun t h => by cases h) fun e h => by cases h
          exact ⟨_, _, hx, hy, by simp [faithfulEquality]⟩
  | number =>
      obtain ⟨x, hx, hxn⟩ := Cell.toValue_eq_number hs hn
      rw [hx]
      cases w with
      | null => exact absurd rfl hw.1
      | text t =>
          obtain ⟨u, hu⟩ := Cell.isSome_text? hn
          refine ⟨_, _, onCell_equality_text _ hu t, rfl, ?_⟩
          rw [faithfulEquality, Sql.Condition.foldedText, hu, beq_iff_eq]
          rfl
      | date d =>
          obtain ⟨ha, hb⟩ := known_equality_of_date d _ (Cell.isNumber_of_toValue hx)
            (v := .number x) rfl rfl rfl (Date.numberText_ne_text x d)
          exact ⟨_, _, ha, hb, by simp [faithfulEquality]⟩
      | number y =>
          obtain ⟨o, ho⟩ := Binary64.compare_known hxn fun h => hw.2 (h ▸ rfl)
          refine ⟨_, o == .eq, onCell_equality_number _ rfl hn hw (fun t h => by cases h)
            (Cell.towards_number y), ?_, ?_⟩
          · rw [evaluateKnown_equality fun t h => by cases h]
            exact exactEq_of_some rfl rfl ho
          · simp [faithfulEquality, Binary64.same, ho]
      | boolean b =>
          refine ⟨_, _, onCell_equality_number _ rfl hn hw (fun t h => by cases h) rfl,
            (evaluateKnown_equality_number_boolean x b).1, ?_⟩
          simp [faithfulEquality]
  | boolean =>
      obtain ⟨b, rfl⟩ := Cell.eq_boolean hs hn
      rw [Cell.toValue_boolean]
      cases w with
      | null => exact absurd rfl hw.1
      | text t => exact absurd rfl (hkb rfl t)
      | date d =>
          obtain ⟨hx, hy⟩ := known_equality_of_date d (.integer (if b then 1 else 0))
            trivial (v := .boolean b) rfl rfl rfl (Date.booleanText_ne_text b d)
          exact ⟨_, _, hx, hy, by simp [faithfulEquality]⟩
      | number y =>
          refine ⟨_, _, onCell_equality_number _ rfl hn hw (fun t h => by cases h)
            (Cell.towards_number y), (evaluateKnown_equality_number_boolean y b).2, ?_⟩
          simp [faithfulEquality]
      | boolean c => cases b <;> cases c <;> exact ⟨_, _, rfl, rfl, by decide⟩

/-! ### Order -/

/-- The comparison that a relation makes with an operand. -/
def comparisonOf : Relation → Value → Comparison
  | .equal, w => .equals w false
  | .greater, w => .greater w
  | .greaterOrEqual, w => .greaterOrEqual w
  | .less, w => .less w
  | .lessOrEqual, w => .lessOrEqual w

theorem onCell_comparisonOf (a : Affinity) (cell : Cell) (r : Relation) (w : Value) :
    (comparisonOf r w).onCell a cell = cell.related a r w := by
  cases r <;> rfl

theorem evaluateKnown_comparisonOf {r : Relation} (hr : r ≠ .equal) (v w : Value) :
    (comparisonOf r w).evaluateKnown v = (v.compare w).map r.holds := by
  cases r with
  | equal => exact absurd rfl hr
  | _ => rfl

theorem map_eq_some_true (o : Option Ordering) (r : Relation) :
    o.map r.holds = some true ↔ o.any r.holds = true := by
  cases o <;> simp

/-- The text that the engine compares a column of texts with. -/
def operandText (w : Value) : String :=
  (Cell.ofValue w).text?.getD ""

/-- The number that the engine takes a text for in a column of numbers, or the text. -/
def operandCell (t : String) : Cell :=
  (Cell.readNumber? t).getD (.text t)

/-- A relation between a cell and an operand holds for the engine exactly if it holds for the
program. -/
def faithfulOrder (r : Relation) (cell : Cell) : Value → Value → Bool
  | .date d, .date e => r.holds (Text.order d.text e.text) == r.holds (d.compare e)
  | .date d, .text t =>
      r.holds (Text.order d.text t) == (Date.read? t).any fun e => r.holds (d.compare e)
  | .date d, w => !r.holds (Text.order d.text (operandText w))
  | .number x, .number y =>
      (cell.compare (Cell.ofValue (.number y))).any r.holds == (x.compare y).any r.holds
  | .number x, .text t =>
      (cell.compare (operandCell t)).any r.holds ==
        (Value.readNumber? t).any fun y => (x.compare y).any r.holds
  | .number _, .boolean b => !(cell.compare (Cell.ofValue (.boolean b))).any r.holds
  | .boolean _, .number y => !(cell.compare (Cell.ofValue (.number y))).any r.holds
  | .boolean _, .text t => !(cell.compare (operandCell t)).any r.holds
  -- Every number goes before every text, and a date is a text.
  | .number _, .date _ | .boolean _, .date _ => !r.holds .lt
  | _, _ => true

theorem towards_text_ofValue {w : Value} (hw : IsOperand w) :
    (Cell.ofValue w).towards .text = .text (operandText w) := by
  obtain ⟨u, hu⟩ := Cell.isSome_text? (ofValue_ne_null hw)
  rw [Cell.towards_text hu, operandText, hu]
  rfl

theorem bool_iff_iff (a b : Bool) : (a = true ↔ b = true) ↔ (a == b) = true := by
  cases a <;> cases b <;> simp

/-- **Order of a cell and an operand.** -/
theorem onCell_order_iff {k : Kind} {cell : Cell} (hs : Cell.Suits k cell) (hn : cell ≠ .null)
    {r : Relation} (hr : r ≠ .equal) {w : Value} (hw : IsOperand w)
    (hkt : k = .text → ∃ t, w = .text t) :
    ((comparisonOf r w).onCell (.ofKind k) cell = some true ↔
      (comparisonOf r w).evaluate (cell.toValue k) = some true) ↔
      faithfulOrder r cell (cell.toValue k) w = true := by
  -- Both sides become a relation of two orderings, which may be missing on the program's side.
  rw [Cell.evaluate_toValue hs hn, onCell_comparisonOf, evaluateKnown_comparisonOf hr,
    Cell.related, map_eq_some_true, map_eq_some_true, bool_iff_iff]
  cases k with
  | text =>
      obtain ⟨s, rfl⟩ := Cell.eq_text hs hn
      obtain ⟨t, rfl⟩ := hkt rfl
      simp [Affinity.ofKind, Cell.ofValue, Cell.towards, Cell.compare, Value.compare, faithfulOrder]
  | date =>
      obtain ⟨d, rfl⟩ := Cell.eq_date hs hn
      rw [Cell.toValue_date, Affinity.ofKind, towards_text_ofValue hw, Cell.compare_text_text]
      cases w with
      | null => exact absurd rfl hw.1
      | text t =>
          rw [Value.compare, Option.any_map]
          exact Iff.rfl
      | date e => exact Iff.rfl
      | number y => simp [faithfulOrder, Value.compare]
      | boolean b => simp [faithfulOrder, Value.compare]
  | number =>
      obtain ⟨x, hx, hxn⟩ := Cell.toValue_eq_number hs hn
      rw [hx, Affinity.ofKind]
      cases w with
      | null => exact absurd rfl hw.1
      | text t =>
          rw [Value.compare, Option.any_bind]
          exact Iff.rfl
      | date d =>
          rw [Cell.towards_date, Cell.compare_number_text (Cell.isNumber_of_toValue hx)]
          simp [faithfulOrder, Value.compare]
      | number y =>
          rw [Cell.towards_number]
          exact Iff.rfl
      | boolean b => simp [faithfulOrder, Value.compare, Cell.ofValue, Cell.towards]
  | boolean =>
      obtain ⟨b, rfl⟩ := Cell.eq_boolean hs hn
      rw [Cell.toValue_boolean, Affinity.ofKind]
      cases w with
      | null => exact absurd rfl hw.1
      | text t => simp [faithfulOrder, Value.compare, operandCell, Cell.ofValue, Cell.towards]
      | date d =>
          have hb : (Cell.integer (if b then 1 else 0)).IsNumber := trivial
          rw [Cell.towards_date, Cell.compare_number_text hb]
          simp [faithfulOrder, Value.compare]
      | number y =>
          rw [Cell.towards_number]
          simp [faithfulOrder, Value.compare]
      | boolean c => cases r <;> cases b <;> cases c <;> decide

/-! ### Ranges of dates -/

/-- The text stands between the texts of two dates. -/
def betweenTexts (low high : Date) (s : String) : Bool :=
  (Text.order s low.text).isGE && (Text.order s high.text).isLE

/-- The date stands between two dates. -/
def betweenDates (low high d : Date) : Bool :=
  (d.compare low).isGE && (d.compare high).isLE

/-- A cell is in a range of dates for the engine exactly if the value is for the program. -/
def faithfulRange (low high : Date) : Value → Bool
  | .date d => betweenTexts low high d.text == betweenDates low high d
  | .text s => betweenTexts low high s == (Date.read? s).any (betweenDates low high)
  | _ => true

theorem onCell_range_text (low high : Date) (s : String) :
    (Comparison.between (.date low) (.date high)).onCell .text (.text s) =
      some (betweenTexts low high s) := by
  simp only [Comparison.onCell, Cell.related, Cell.ofValue, Cell.towards, Cell.compare,
    Option.map_some, Relation.holds, betweenTexts]
  cases (Text.order s low.text).isGE <;> cases (Text.order s high.text).isLE <;> rfl

/-- No number is in a range of dates. -/
theorem onCell_range_number (low high : Date) {cell : Cell} (hc : cell.IsNumber) :
    (Comparison.between (.date low) (.date high)).onCell .numeric cell = some false := by
  simp only [Comparison.onCell, Cell.related, Cell.towards_date, Cell.compare_number_text hc]
  rfl

/-- **A range of dates.** -/
theorem onCell_range_iff {k : Kind} {cell : Cell} (hs : Cell.Suits k cell) (hn : cell ≠ .null)
    (low high : Date) :
    ((Comparison.between (.date low) (.date high)).onCell (.ofKind k) cell = some true ↔
      (Comparison.between (.date low) (.date high)).evaluate (cell.toValue k) = some true) ↔
      faithfulRange low high (cell.toValue k) = true := by
  rw [Cell.evaluate_toValue hs hn]
  cases k with
  | text =>
      obtain ⟨s, rfl⟩ := Cell.eq_text hs hn
      have hmem : (Comparison.between (.date low) (.date high)).evaluateKnown (.text s) =
          (Date.read? s).map (betweenDates low high) := by
        cases h : Date.read? s <;> simp [Comparison.evaluateKnown, Value.compare, h, betweenDates]
      rw [Affinity.ofKind, onCell_range_text, Cell.toValue_text, hmem]
      cases h : Date.read? s <;> simp [faithfulRange, h]
  | date =>
      obtain ⟨d, rfl⟩ := Cell.eq_date hs hn
      have hmem : (Comparison.between (.date low) (.date high)).evaluateKnown (.date d) =
          some (betweenDates low high d) := rfl
      rw [Affinity.ofKind, onCell_range_text, Cell.toValue_date, hmem]
      simp [faithfulRange]
  | number =>
      obtain ⟨x, hx, -⟩ := Cell.toValue_eq_number hs hn
      rw [Affinity.ofKind, onCell_range_number low high (Cell.isNumber_of_toValue hx), hx]
      simp [faithfulRange, Comparison.evaluateKnown, Value.compare]
  | boolean =>
      obtain ⟨b, rfl⟩ := Cell.eq_boolean hs hn
      have hb : (Cell.integer (if b then 1 else 0)).IsNumber := trivial
      rw [Affinity.ofKind, onCell_range_number low high hb, Cell.toValue_boolean]
      simp [faithfulRange, Comparison.evaluateKnown, Value.compare]

end Filter

end CoachLedger
