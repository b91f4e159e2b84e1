/-
**Groups of conditions.**

A list of conditions is one flat group.  What it means depends on the values of its conditions and
on one bit, whether a condition after the first one is connected by `OR`: there is no precedence,
and the connective of the first condition is not looked at.  A condition that imposes nothing is
true of every record, so it can be left out of a conjunction, and a disjunction with it selects
everything.

Main definitions:

* `CoachLedger.Filter.joinedByOr` — a condition after the first one is connected by `OR`;
* `CoachLedger.Filter.Condition.Ignored` — the conditions that impose nothing;
* `CoachLedger.Filter.IsFlat` — compilation to one flat group.

Main results:

* `CoachLedger.Filter.evaluate_groupWith` — the value of a list of conditions;
* `CoachLedger.Filter.evaluate_groupWith_perm` — only the conditions, not their order or their
  connectives, and the bit matter;
* `CoachLedger.Filter.isFlat_compile` — **both compilations are flat**.
-/

import CoachLedger.Proofs.Filter.BooleanColumns

set_option autoImplicit false

namespace CoachLedger.Filter

variable {one : Condition → Predicate} {c : Condition} {cs ds : List Condition} {r : Record}

/-! ### Connectives -/

/-- A condition after the first one is connected by `OR`. -/
def joinedByOr (cs : List Condition) : Bool :=
  cs.tail.any fun c => c.connective = .or

/-- The condition without what it says about its connection. -/
def Condition.unjoined (c : Condition) : Condition :=
  { c with connective := .and }

/-- No predicate of one condition looks at how the condition is connected. -/
def IgnoresConnective (one : Condition → Predicate) : Prop :=
  ∀ c, one c.unjoined = one c

theorem ignoresConnective_predicate : IgnoresConnective Condition.predicate := by
  intro c
  simp only [Condition.predicate, Condition.operand, dateRange, Condition.unjoined]

theorem ignoresConnective_predicateFor (kind : RecordKind) :
    IgnoresConnective (Condition.predicateFor kind) := by
  intro c
  have htext := ignoresConnective_predicate { c with declared := some .text }
  have hplain := ignoresConnective_predicate c
  unfold Condition.predicateFor
  dsimp only [Condition.unjoined] at htext hplain ⊢
  rw [htext, hplain]

theorem joinedByOr_cons_perm {cs ds : List Condition} (h : cs.Perm ds) (c : Condition) :
    joinedByOr (c :: cs) = joinedByOr (c :: ds) := by
  rw [Bool.eq_iff_iff]
  simp only [joinedByOr, List.tail_cons, List.any_eq_true]
  constructor
  · rintro ⟨d, hd, hor⟩
    exact ⟨d, h.mem_iff.1 hd, hor⟩
  · rintro ⟨d, hd, hor⟩
    exact ⟨d, h.mem_iff.2 hd, hor⟩

/-- Without the condition at some place no other one becomes a later one. -/
theorem joinedByOr_append_of_cons {cs ds : List Condition} {c : Condition}
    (h : joinedByOr (cs ++ c :: ds) = false) : joinedByOr (cs ++ ds) = false := by
  simp only [joinedByOr, List.any_eq_false] at h ⊢
  intro d hd
  refine h d ?_
  cases cs with
  | nil => exact List.mem_of_mem_tail hd
  | cons b bs =>
      simp only [List.cons_append, List.tail_cons, List.mem_append, List.mem_cons] at hd ⊢
      exact hd.imp_right .inr

theorem groupWith_cons_cons (one : Condition → Predicate) (c d : Condition)
    (rest : List Condition) :
    groupWith one (c :: d :: rest) =
      if joinedByOr (c :: d :: rest) then .or ((c :: d :: rest).map one)
      else .and ((c :: d :: rest).map one) := rfl

/-! ### Values of groups -/

/-- **The value of a list of conditions.**  The cases of no condition and of one condition, in
which there is no group, are no exceptions. -/
theorem evaluate_groupWith (one : Condition → Predicate) (cs : List Condition) (r : Record) :
    (groupWith one cs).evaluate r =
      if joinedByOr cs then Kleene.any (cs.map fun c => (one c).evaluate r)
      else Kleene.all (cs.map fun c => (one c).evaluate r) := by
  match cs with
  | [] => rfl
  | [c] => exact ((Kleene.and_comm ..).trans (Kleene.true_and _)).symm
  | c :: d :: rest =>
      have heach : Predicate.evaluateEach (fun column cmp => cmp.evaluate (r.get column))
          ((c :: d :: rest).map one) = (c :: d :: rest).map fun c => (one c).evaluate r := by
        rw [Predicate.evaluateEach_eq, List.map_map]
        rfl
      rw [← heach, groupWith_cons_cons]
      cases joinedByOr (c :: d :: rest) <;> rfl

/-- **Of the connectives only one bit matters, and of the order nothing.** -/
theorem evaluate_groupWith_perm (hone : IgnoresConnective one)
    (h : (cs.map Condition.unjoined).Perm (ds.map Condition.unjoined))
    (hor : joinedByOr cs = joinedByOr ds) (r : Record) :
    (groupWith one cs).evaluate r = (groupWith one ds).evaluate r := by
  have hvalues (l : List Condition) : (l.map fun c => (one c).evaluate r) =
      (l.map Condition.unjoined).map fun c => (one c).evaluate r := by
    rw [List.map_map]
    exact List.map_congr_left fun c _ => by rw [Function.comp_apply, hone c]
  have hperm := h.map fun c => (one c).evaluate r
  rw [evaluate_groupWith, evaluate_groupWith, hvalues cs, hvalues ds, Kleene.any_perm hperm,
    Kleene.all_perm hperm, hor]

/-! ### Conditions that impose nothing -/

/-- The condition imposes nothing: its operator is not known, or it is a range of dates without
two dates as its bounds. -/
def Condition.Ignored (c : Condition) : Prop :=
  (∃ name, c.operator = .unknown name) ∨ c.operator = .dateRange ∧ c.bounds? = none

theorem predicate_eq_idle_iff (c : Condition) :
    (∃ reason, c.predicate = .idle reason) ↔ c.Ignored := by
  unfold Condition.predicate Condition.Ignored
  cases hop : c.operator with
  | unknown name => simp
  | dateRange =>
      rcases dateRange_eq c with ⟨low, high, hb, hd⟩ | ⟨hb, reason, hd⟩
      · simp [hb, hd]
      · simp [hb, hd]
  | _ => simp

theorem spellBooleans_eq_idle_iff (p : Predicate) (reason : Idle) :
    spellBooleans p = .idle reason ↔ p = .idle reason := by
  cases p with
  | clause column cmp =>
      refine iff_of_false ?_ (by simp)
      unfold spellBooleans
      split
      · unfold spelled
        dsimp only
        split <;> simp
      · simp
  | _ => simp [spellBooleans]

/-- What imposes nothing does so whatever the kind of its column is. -/
theorem predicateFor_eq_idle_iff (kind : RecordKind) (c : Condition) :
    (∃ reason, c.predicateFor kind = .idle reason) ↔ c.Ignored := by
  unfold Condition.predicateFor
  split
  · exact predicate_eq_idle_iff { c with declared := some .text }
  · simp only [spellBooleans_eq_idle_iff]
    exact predicate_eq_idle_iff c
  · exact predicate_eq_idle_iff c

/-- The conditions that impose nothing are left without a predicate, and no others. -/
def FindsIgnored (one : Condition → Predicate) : Prop :=
  ∀ c, (∃ reason, one c = .idle reason) ↔ c.Ignored

theorem evaluate_of_ignored (hone : FindsIgnored one) (hc : c.Ignored) (r : Record) :
    (one c).evaluate r = some true := by
  obtain ⟨reason, h⟩ := (hone c).2 hc
  rw [h]
  rfl

/-- A conjunction may do without a condition that imposes nothing. -/
theorem evaluate_groupWith_drop (hone : FindsIgnored one) (hc : c.Ignored)
    (h : joinedByOr (cs ++ c :: ds) = false) (r : Record) :
    (groupWith one (cs ++ c :: ds)).evaluate r = (groupWith one (cs ++ ds)).evaluate r := by
  rw [evaluate_groupWith, evaluate_groupWith, h, joinedByOr_append_of_cons h,
    if_neg Bool.false_ne_true, if_neg Bool.false_ne_true]
  simp only [List.map_append, List.map_cons, Kleene.all_append, Kleene.all_cons,
    evaluate_of_ignored hone hc, Kleene.true_and]

/-- A disjunction with a condition that imposes nothing is true of every record. -/
theorem evaluate_groupWith_of_ignored (hone : FindsIgnored one) (hc : c.Ignored) (hmem : c ∈ cs)
    (h : joinedByOr cs = true) (r : Record) : (groupWith one cs).evaluate r = some true := by
  rw [evaluate_groupWith, h, if_pos rfl, any_eq_some_true]
  exact ⟨_, List.mem_map.2 ⟨c, hmem, rfl⟩, evaluate_of_ignored hone hc r⟩

/-! ### The connective of a group -/

/-- A single condition is no group, even if its own predicate is one. -/
theorem group?_compileWith (one : Condition → Predicate) (cs : List Condition) :
    (compileWith one cs).group? =
      if cs.length < 2 then none else some (if joinedByOr cs then .or else .and) := by
  match cs with
  | [] => rfl
  | [c] => rfl
  | c :: d :: rest =>
      have hlength : ¬ (c :: d :: rest).length < 2 := by simp
      have hconnectives : 1 < ((c :: d :: rest).map Condition.connective).length := by simp
      rw [if_neg hlength, Compiled.group?, compileWith, if_pos hconnectives, groupWith_cons_cons]
      cases joinedByOr (c :: d :: rest) <;> rfl

example : (compileFor .master [⟨none, "in_yard", .contains, "", none, .or, none⟩]).group? = none :=
  rfl

/-! ### Compilation -/

/-- Compilation to one flat group, whose members have the given predicates. -/
structure IsFlat (compiler : List Condition → Compiled) (one : Condition → Predicate) : Prop where
  /-- No condition is true of every record. -/
  empty : ∀ r, (compiler []).predicate.evaluate r = some true
  single : ∀ c r, (compiler [c]).predicate.evaluate r = (one c).evaluate r
  /-- One `OR` after the first condition makes the whole group a disjunction. -/
  group : ∀ cs r, 2 ≤ cs.length → (compiler cs).predicate.evaluate r =
    if ∃ c ∈ cs.tail, c.connective = .or then Kleene.any (cs.map fun c => (one c).evaluate r)
    else Kleene.all (cs.map fun c => (one c).evaluate r)
  /-- The order of the conditions after the first one does not matter. -/
  permuted : ∀ first cs ds r, cs.Perm ds →
    (compiler (first :: cs)).predicate.evaluate r = (compiler (first :: ds)).predicate.evaluate r
  /-- Nor does how each one is connected, as long as there is an `OR` or there is none. -/
  reconnected : ∀ cs ds r, cs.map Condition.unjoined = ds.map Condition.unjoined →
    joinedByOr cs = joinedByOr ds →
      (compiler cs).predicate.evaluate r = (compiler ds).predicate.evaluate r
  /-- The conditions that impose nothing are those whose predicate is idle. -/
  ignored : ∀ c, (∃ reason, one c = .idle reason) ↔ c.Ignored
  /-- They can be left out of a conjunction. -/
  dropped : ∀ cs c ds r, c.Ignored → joinedByOr (cs ++ c :: ds) = false →
    (compiler (cs ++ c :: ds)).predicate.evaluate r = (compiler (cs ++ ds)).predicate.evaluate r
  /-- They make a disjunction true of every record. -/
  absorbed : ∀ cs c r, c ∈ cs → c.Ignored → joinedByOr cs = true →
    (compiler cs).predicate.evaluate r = some true
  /-- Fewer than two conditions have no connective, and others that of their group. -/
  connective : ∀ cs, (compiler cs).group? =
    if cs.length < 2 then none else some (if joinedByOr cs then .or else .and)

theorem isFlat_compileWith (hconnective : IgnoresConnective one) (hignored : FindsIgnored one) :
    IsFlat (compileWith one) one where
  empty _ := rfl
  single _ _ := rfl
  group cs r _ := by
    refine (evaluate_groupWith one cs r).trans ?_
    simp [joinedByOr]
  permuted first cs ds r h :=
    evaluate_groupWith_perm hconnective ((h.cons first).map _) (joinedByOr_cons_perm h first) r
  reconnected cs ds r h hor :=
    evaluate_groupWith_perm hconnective (h ▸ List.Perm.refl _) hor r
  ignored := hignored
  dropped cs c ds r hc h := evaluate_groupWith_drop hignored hc h r
  absorbed cs c r hmem hc h := evaluate_groupWith_of_ignored hignored hc hmem h r
  connective := group?_compileWith one

/-- **Compilation is flat and blind for the order of connectives**, without regard to the kind of
the records and for the records of a kind. -/
theorem isFlat_compile :
    IsFlat compile Condition.predicate ∧
      ∀ kind, IsFlat (compileFor kind) (Condition.predicateFor kind) :=
  ⟨isFlat_compileWith ignoresConnective_predicate predicate_eq_idle_iff,
    fun kind => isFlat_compileWith (ignoresConnective_predicateFor kind)
      (predicateFor_eq_idle_iff kind)⟩

end CoachLedger.Filter
