/-
**Searching by the conditions of a filter.**

A search by a list of conditions answers with the records that the program selects, provided that
the engine accepts the conditions, does not give up on a pattern, and each condition is faithful on
each row.  For a single condition that is also necessary.

Main definitions:

* `CoachLedger.Filter.Shape` — the predicates that one condition may have;
* `CoachLedger.Filter.patternFits` — the engine does not give up on the pattern of a condition;
* `CoachLedger.Filter.IsFaithful` — the engine selects a row by a condition exactly if the program
  selects its record.

Main results:

* `CoachLedger.Filter.acceptable_predicateFor` — what the engine makes of one condition;
* `CoachLedger.Filter.searchesAs_of_isFaithful` — searching by conditions that are all faithful;
* `CoachLedger.Filter.searchesAs_single_iff` — **when a search by one condition is right**.
-/

import CoachLedger.Proofs.Store.Search

set_option autoImplicit false

namespace CoachLedger.Filter

open CoachLedger.Sql (Cell Relation)
open CoachLedger.Store (Cells cellAt rowView decode SearchesAs)

variable {kind : RecordKind} {k : Kind} {c : Condition}

/-! ### The shape of a predicate -/

/-- The pattern that the engine matches for a comparison. -/
def patternOf : Comparison → Option String
  | .contains needle => some (Sql.Condition.containing needle)
  | .startsWith needle => some (Sql.Condition.startingWith needle)
  | .endsWith needle => some (Sql.Condition.endingWith needle)
  | _ => none

/-- The pattern that the engine matches for a condition, unless its column is one of booleans. -/
def Condition.pattern? (c : Condition) : Option String :=
  match c.operator with
  | .contains | .notContains => patternOf (.contains c.value)
  | .startsWith => patternOf (.startsWith c.value)
  | .endsWith => patternOf (.endsWith c.value)
  | _ => none

/-- The engine does not give up on the pattern of the condition, if it has one. -/
def patternFits (k : Kind) (c : Condition) : Bool :=
  k == .boolean || c.pattern?.all fun p => p.utf8ByteSize ≤ Sql.Condition.maxPatternBytes

/-- The predicates that a condition on a column may have. -/
inductive Shape (column : String) (pattern : Option String) : Predicate → Prop
  | idle (reason : Idle) : pattern = none → Shape column pattern (.idle reason)
  | clause (cmp : Comparison) : patternOf cmp = pattern → Shape column pattern (.clause column cmp)
  | not (cmp : Comparison) : patternOf cmp = pattern →
      Shape column pattern (.not (.clause column cmp))

theorem shape_dateRange (c : Condition) : Shape c.column none (dateRange c) := by
  rcases dateRange_eq c with ⟨low, high, -, hd⟩ | ⟨-, reason, hd⟩
  · rw [hd]
    exact .clause _ rfl
  · rw [hd]
    exact .idle _ rfl

/-- One condition has at most one clause. -/
theorem shape_predicate (c : Condition) : Shape c.column c.pattern? c.predicate := by
  unfold Condition.predicate Condition.pattern?
  cases c.operator with
  | isEmpty => exact .clause _ rfl
  | isNotEmpty => exact .not _ rfl
  | equals => exact .clause _ rfl
  | notEquals => exact .not _ rfl
  | contains => exact .clause _ rfl
  | notContains => exact .not _ rfl
  | startsWith => exact .clause _ rfl
  | endsWith => exact .clause _ rfl
  | greaterThan => exact .clause _ rfl
  | greaterThanOrEqual => exact .clause _ rfl
  | lessThan => exact .clause _ rfl
  | lessThanOrEqual => exact .clause _ rfl
  | dateRange => exact shape_dateRange c
  | unknown name => exact .idle _ rfl

/-- The nesting of the SQL condition of one condition. -/
def maxSingleHeight : Nat := 4

/-- What the engine is told by a predicate of one condition: a column, a shallow condition with few
operands, and possibly a pattern on which it gives up. -/
structure Acceptable (column : String) (overrun : Bool) (p : Predicate) : Prop where
  columns : ∀ x ∈ p.mentioned, x = column
  height : (Sql.Condition.ofPredicate p).height ≤ maxSingleHeight
  operands : (Sql.Condition.ofPredicate p).operands.length ≤ 2
  overruns : ∀ row unknownIs, (Sql.Condition.ofPredicate p).overruns row unknownIs = overrun

theorem acceptable_of_shape {column : String} {pattern : Option String} {p : Predicate}
    (h : Shape column pattern p) :
    Acceptable column (pattern.any fun q => Sql.Condition.maxPatternBytes < q.utf8ByteSize) p := by
  have hclause (cmp : Comparison) (row : Sql.Row) (unknownIs : Bool) :
      (Sql.Condition.ofComparison column cmp).overruns row unknownIs =
        (patternOf cmp).any fun q => Sql.Condition.maxPatternBytes < q.utf8ByteSize := by
    cases cmp with
    | equals v foldCase => cases foldCase <;> rfl
    | _ => simp only [Sql.Condition.ofComparison, Sql.Condition.overruns, patternOf, Option.any]
  have hsize (cmp : Comparison) : (Sql.Condition.ofComparison column cmp).height ≤ 3 ∧
      (Sql.Condition.ofComparison column cmp).operands.length ≤ 2 := by
    cases cmp with
    | equals v foldCase =>
        cases foldCase <;> exact ⟨Nat.le_of_ble_eq_true rfl, Nat.le_of_ble_eq_true rfl⟩
    | _ => exact ⟨Nat.le_of_ble_eq_true rfl, Nat.le_of_ble_eq_true rfl⟩
  cases h with
  | idle reason hp =>
      subst hp
      exact ⟨fun x hx => (by cases hx), Nat.le_of_ble_eq_true rfl, Nat.le_of_ble_eq_true rfl,
        fun _ _ => rfl⟩
  | clause cmp hp =>
      subst hp
      exact ⟨fun x hx => List.mem_singleton.1 hx, Nat.le_succ_of_le (hsize cmp).1, (hsize cmp).2,
        hclause cmp⟩
  | not cmp hp =>
      subst hp
      exact ⟨fun x hx => List.mem_singleton.1 hx, Nat.succ_le_succ (hsize cmp).1, (hsize cmp).2,
        fun row _ => hclause cmp row _⟩

theorem Acceptable.fits {column : String} {overrun : Bool} {p : Predicate}
    (h : Acceptable column overrun p) : (Sql.Condition.ofPredicate p).fits = true := by
  have hheight : (Sql.Condition.ofPredicate p).height ≤ Sql.Condition.maxHeight :=
    Nat.le_trans h.height (by decide)
  have hoperands : (Sql.Condition.ofPredicate p).operands.length ≤ Sql.Condition.maxParameters :=
    Nat.le_trans h.operands (by decide)
  rw [Sql.Condition.fits, decide_eq_true hheight, decide_eq_true hoperands]
  rfl

/-- On a column of booleans the engine compares booleans only. -/
theorem acceptable_spelled (column : String) (cmp : Comparison) :
    Acceptable column false (spelled column cmp) ∧
      Acceptable column false (.not (spelled column cmp)) := by
  unfold spelled
  dsimp only
  split <;>
    refine ⟨⟨?_, Nat.le_of_ble_eq_true rfl, Nat.le_of_ble_eq_true rfl, fun _ _ => ?_⟩,
      ⟨?_, Nat.le_of_ble_eq_true rfl, Nat.le_of_ble_eq_true rfl, fun _ _ => ?_⟩⟩ <;>
    simp [Predicate.mentioned, Predicate.mentionedIn, Sql.Condition.ofPredicate,
      Sql.Condition.ofPredicates, Sql.Condition.ofComparison, Sql.Condition.overruns,
      Sql.Condition.overrunsUntil]

theorem acceptable_spellBooleans {column : String} {pattern : Option String} {p : Predicate}
    (h : Shape column pattern p) : Acceptable column false (spellBooleans p) := by
  have hplain (cmp : Comparison) (hc : cmp.isTextual = false) : patternOf cmp = none := by
    cases cmp with
    | contains needle => cases hc
    | startsWith needle => cases hc
    | endsWith needle => cases hc
    | _ => rfl
  cases h with
  | idle reason hp => exact acceptable_of_shape (.idle reason rfl)
  | clause cmp hp =>
      cases hc : cmp.isTextual with
      | true =>
          rw [spellBooleans_textual column hc]
          exact (acceptable_spelled column cmp).1
      | false =>
          rw [spellBooleans_plain column hc]
          exact acceptable_of_shape (.clause cmp (hplain cmp hc))
  | not cmp hp =>
      rw [spellBooleans]
      cases hc : cmp.isTextual with
      | true =>
          rw [spellBooleans_textual column hc]
          exact (acceptable_spelled column cmp).2
      | false =>
          rw [spellBooleans_plain column hc]
          exact acceptable_of_shape (.not cmp (hplain cmp hc))

/-- **What the engine makes of the predicate of one condition.** -/
theorem acceptable_predicateFor (hf : (kind.field? c.column).map Field.kind = some k) :
    Acceptable c.column (!patternFits k c) (c.predicateFor kind) := by
  have hany : (c.pattern?.any fun q => Sql.Condition.maxPatternBytes < q.utf8ByteSize) =
      !(c.pattern?.all fun q => q.utf8ByteSize ≤ Sql.Condition.maxPatternBytes) := by
    cases c.pattern? with
    | none => rfl
    | some q => simp [← decide_not]
  have hshape := acceptable_of_shape (shape_predicate c)
  rw [hany] at hshape
  unfold Condition.predicateFor patternFits
  rw [hf]
  cases k with
  | text =>
      have := acceptable_of_shape (shape_predicate { c with declared := some .text })
      rw [show ({ c with declared := some .text } : Condition).pattern? = c.pattern? from rfl,
        hany] at this
      exact this
  | number => exact hshape
  | date => exact hshape
  | boolean => exact acceptable_spellBooleans (shape_predicate c)

/-! ### Groups -/

theorem mentionedIn_eq (ps : List Predicate) :
    Predicate.mentionedIn ps = ps.flatMap Predicate.mentioned := by
  induction ps with
  | nil => rfl
  | cons p ps ih => rw [Predicate.mentionedIn, ih, List.flatMap_cons]

/-- The columns of a group are those of its members. -/
theorem mentioned_groupWith {one : Condition → Predicate} {cs : List Condition} {column : String}
    (h : column ∈ (groupWith one cs).mentioned) : ∃ c ∈ cs, column ∈ (one c).mentioned := by
  have hmap {ps : List Condition} (hm : column ∈ Predicate.mentionedIn (ps.map one)) :
      ∃ c ∈ ps, column ∈ (one c).mentioned := by
    rw [mentionedIn_eq, List.flatMap_map] at hm
    exact List.mem_flatMap.1 hm
  unfold groupWith at h
  split at h
  · cases h
  · exact ⟨_, by simp, h⟩
  · split at h
    · exact hmap h
    · exact hmap h

theorem overrunsUntil_eq_false {row : Sql.Row} {unknownIs : Bool} (stop : Bool)
    {cs : List Sql.Condition} (h : ∀ c ∈ cs, c.overruns row unknownIs = false) :
    Sql.Condition.overrunsUntil row unknownIs stop cs = false := by
  induction cs with
  | nil => rfl
  | cons c cs ih =>
      obtain ⟨hc, hcs⟩ := List.forall_mem_cons.1 h
      rw [Sql.Condition.overrunsUntil, hc, ih hcs, Bool.and_false, Bool.or_false]

/-- The engine does not give up on a group if it does not give up on any member. -/
theorem overruns_groupWith {one : Condition → Predicate} {cs : List Condition} {row : Sql.Row}
    {unknownIs : Bool}
    (h : ∀ c ∈ cs, (Sql.Condition.ofPredicate (one c)).overruns row unknownIs = false) :
    (Sql.Condition.ofPredicate (groupWith one cs)).overruns row unknownIs = false := by
  have hmap : ∀ q ∈ Sql.Condition.ofPredicates (cs.map one), q.overruns row unknownIs = false := by
    rw [ofPredicates_eq, List.map_map]
    exact List.forall_mem_map.2 h
  unfold groupWith
  split
  · rfl
  · exact h _ (by simp)
  · split
    · exact overrunsUntil_eq_false true hmap
    · exact overrunsUntil_eq_false false hmap

theorem groupHeight_le {cs : List Sql.Condition} (h : ∀ c ∈ cs, c.height ≤ maxSingleHeight)
    {before extra : Nat} (hb : before ≤ maxSingleHeight + extra) :
    Sql.Condition.groupHeight before cs ≤ maxSingleHeight + extra + cs.length := by
  induction cs generalizing before extra with
  | nil =>
      have : 2 ≤ maxSingleHeight := by decide
      rw [Sql.Condition.groupHeight, List.length_nil]
      omega
  | cons c cs ih =>
      obtain ⟨hc, hcs⟩ := List.forall_mem_cons.1 h
      have hnext : (if before = 0 then c.height else max before c.height + 1) ≤
          maxSingleHeight + (extra + 1) := by
        split <;> omega
      have hle := ih hcs hnext
      rw [Sql.Condition.groupHeight, List.length_cons]
      omega

theorem length_operandsOf_le {cs : List Sql.Condition} (h : ∀ c ∈ cs, c.operands.length ≤ 2) :
    (Sql.Condition.operandsOf cs).length ≤ 2 * cs.length := by
  induction cs with
  | nil => exact Nat.le_refl _
  | cons c cs ih =>
      obtain ⟨hc, hcs⟩ := List.forall_mem_cons.1 h
      have hle := ih hcs
      rw [Sql.Condition.operandsOf, List.length_append, List.length_cons]
      omega

/-- The number of conditions that the engine accepts in any case. -/
def maxGroup : Nat := 996

/-- The engine accepts a group of shallow conditions with few operands that is not very long. -/
theorem fits_group (qs : List Sql.Condition) (hl : qs.length ≤ maxGroup)
    (hheight : ∀ q ∈ qs, q.height ≤ maxSingleHeight) (hoperands : ∀ q ∈ qs, q.operands.length ≤ 2) :
    (Sql.Condition.and qs).fits = true ∧ (Sql.Condition.or qs).fits = true := by
  -- Each member adds at most one level and two operands.
  have hsize : Sql.Condition.groupHeight 0 qs ≤ Sql.Condition.maxHeight ∧
      (Sql.Condition.operandsOf qs).length ≤ Sql.Condition.maxParameters := by
    have h := groupHeight_le hheight (Nat.zero_le (maxSingleHeight + 0))
    have h' := length_operandsOf_le hoperands
    simp only [maxSingleHeight, maxGroup, Sql.Condition.maxHeight,
      Sql.Condition.maxParameters] at *
    omega
  have hfits : (decide (Sql.Condition.groupHeight 0 qs ≤ Sql.Condition.maxHeight) &&
      decide ((Sql.Condition.operandsOf qs).length ≤ Sql.Condition.maxParameters)) = true := by
    rw [decide_eq_true hsize.1, decide_eq_true hsize.2]
    rfl
  exact ⟨hfits, hfits⟩

/-- **The engine accepts every filter that is not very long.** -/
theorem fits_compileFor {cs : List Condition} (hl : cs.length ≤ maxGroup)
    (hcs : ∀ c ∈ cs, kind.has c.column = true) :
    (Sql.Condition.ofPredicate (compileFor kind cs).predicate).fits = true := by
  have hone : ∀ c ∈ cs, ∃ overrun, Acceptable c.column overrun (c.predicateFor kind) := by
    intro c hc
    obtain ⟨f, hf⟩ := Option.isSome_iff_exists.1 (hcs c hc)
    exact ⟨_, acceptable_predicateFor (k := f.kind) (by rw [hf]; rfl)⟩
  have hgroup := fits_group (Sql.Condition.ofPredicates (cs.map (Condition.predicateFor kind)))
    (by rw [ofPredicates_eq, List.length_map, List.length_map]; exact hl)
    (by
      rw [ofPredicates_eq, List.map_map]
      refine List.forall_mem_map.2 ?_
      intro c hc
      obtain ⟨overrun, h⟩ := hone c hc
      exact h.height)
    (by
      rw [ofPredicates_eq, List.map_map]
      refine List.forall_mem_map.2 ?_
      intro c hc
      obtain ⟨overrun, h⟩ := hone c hc
      exact h.operands)
  unfold compileFor compileWith groupWith
  dsimp only
  split
  · rfl
  · obtain ⟨overrun, h⟩ := hone _ List.mem_cons_self
    exact h.fits
  · split
    · exact hgroup.2
    · exact hgroup.1

/-! ### Faithful conditions -/

/-- The engine selects the row by the condition exactly if the program selects its record, as far as
the column of the condition tells. -/
def IsFaithful (kind : RecordKind) (row : Cells) (c : Condition) : Prop :=
  ∀ f, kind.field? c.column = some f →
    faithfulAt f.kind (cellAt kind row c.column) (c.typedFor f.kind) = true

theorem agrees_iff_isFaithful {row : Cells} (hrow : Store.IsRow kind row) {f : Field}
    (hf : kind.field? c.column = some f) :
    Agrees (rowView kind row) (decode kind row) (c.predicateFor kind) ↔ IsFaithful kind row c := by
  have hshows := Store.shows_decode hrow hf
  rw [agrees_predicateFor_iff (by rw [hf]; rfl) hshows]
  constructor
  · intro h g hg
    obtain rfl := Option.some.inj (hf.symm.trans hg)
    exact h
  · intro h
    exact h f hf

/-- **When a search by conditions answers as the program selects.** -/
theorem searchesAs_compileFor_iff {s : Store} {cs : List Condition}
    (hcs : ∀ c ∈ cs, ∃ f, kind.field? c.column = some f) :
    SearchesAs s kind (compileFor kind cs).predicate ↔
      Store.IsAnswered s kind (compileFor kind cs).predicate := by
  refine Store.searchesAs_iff ?_
  intro column hcolumn
  obtain ⟨c, hc, hmem⟩ := mentioned_groupWith hcolumn
  obtain ⟨f, hf⟩ := hcs c hc
  rw [(acceptable_predicateFor (by rw [hf]; rfl)).columns column hmem]
  exact RecordKind.has_of_field? hf

/-- **A search by conditions that are all faithful answers as the program selects.** -/
theorem searchesAs_of_isFaithful {s : Store} (hs : Store.IsSound s) {cs : List Condition}
    (hfits : (Sql.Condition.ofPredicate (compileFor kind cs).predicate).fits = true)
    (hcs : ∀ c ∈ cs, ∃ f, kind.field? c.column = some f ∧ patternFits f.kind c = true)
    (hfaithful : ∀ c ∈ cs, ∀ row ∈ s.rows kind, IsFaithful kind row c) :
    SearchesAs s kind (compileFor kind cs).predicate := by
  refine (searchesAs_compileFor_iff fun c hc => ?_).2 ⟨hfits, ?_, ?_⟩
  · obtain ⟨f, hf, -⟩ := hcs c hc
    exact ⟨f, hf⟩
  · intro row _
    refine overruns_groupWith ?_
    intro c hc
    obtain ⟨f, hf, hp⟩ := hcs c hc
    rw [(acceptable_predicateFor (by rw [hf]; rfl)).overruns, hp]
    rfl
  · intro row hrow
    refine agrees_groupWith ?_
    intro c hc
    obtain ⟨f, hf, -⟩ := hcs c hc
    exact (agrees_iff_isFaithful (hs.rows kind row hrow) hf).2 (hfaithful c hc row hrow)

/-- **When a search by one condition answers as the program selects.** -/
theorem searchesAs_single_iff {s : Store} (hs : Store.IsSound s) {f : Field}
    (hf : kind.field? c.column = some f) :
    SearchesAs s kind (compileFor kind [c]).predicate ↔
      (s.rows kind = [] ∨ patternFits f.kind c = true) ∧
        ∀ row ∈ s.rows kind, IsFaithful kind row c := by
  have hsingle : (compileFor kind [c]).predicate = c.predicateFor kind := rfl
  have hkind : (kind.field? c.column).map Field.kind = some f.kind := by
    rw [hf]
    rfl
  have hacc := acceptable_predicateFor hkind
  have hrows : (∀ row ∈ s.rows kind,
      Agrees (rowView kind row) (decode kind row) (c.predicateFor kind)) ↔
      ∀ row ∈ s.rows kind, IsFaithful kind row c :=
    forall₂_congr fun row hrow => agrees_iff_isFaithful (hs.rows kind row hrow) hf
  have hover : (∀ row ∈ s.rows kind,
      (Sql.Condition.ofPredicate (c.predicateFor kind)).overruns (rowView kind row) false = false) ↔
      s.rows kind = [] ∨ patternFits f.kind c = true := by
    -- The engine gives up on each row or on none.
    simp only [hacc.overruns, Bool.not_eq_false']
    constructor
    · intro h
      cases hr : s.rows kind with
      | nil => exact .inl rfl
      | cons row rows => exact .inr (h row (hr ▸ List.mem_cons_self))
    · rintro (h | h) row hrow
      · rw [h] at hrow
        cases hrow
      · exact h
  rw [searchesAs_compileFor_iff (List.forall_mem_singleton.2 ⟨f, hf⟩), hsingle, ← hrows, ← hover]
  exact ⟨fun h => ⟨h.overruns, h.agrees⟩, fun h => ⟨hacc.fits, h.1, h.2⟩⟩

end CoachLedger.Filter
