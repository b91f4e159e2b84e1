/-
**Predicates in Kleene logic.**

The truth value of a predicate, which may be unknown, obeys the laws of Kleene logic on whole
trees.  The members of a group may be permuted and repeated, a group inside a group of the same kind
may be opened, two negations cancel, and negations may be pushed through groups down to the clauses;
all this anywhere in the tree and in any combination.  It follows that evaluating the members only
up to the first one that decides the group is no loss.

What is known of a predicate does not rest on what is unknown: if clauses that are unknown are
replaced by truth values, a predicate that was true is still true and one that was false is still
false.

Main definitions:

* `CoachLedger.Predicate.group` — the conjunction or the disjunction of some members;
* `CoachLedger.Predicate.Rewrites` — rewriting by the laws of groups and negations;
* `CoachLedger.Predicate.pushed` — a predicate with its negations pushed inward;
* `CoachLedger.Predicate.Settles` — unknown clauses replaced by truth values.

Main results:

* `CoachLedger.Predicate.scan_eq` — evaluation may stop at a member that decides;
* `CoachLedger.Predicate.Rewrites.evaluate_eq` — **rewriting does not change the truth value**;
* `CoachLedger.Predicate.Settles.keepsKnown` — **what is known stays known**.
-/

import CoachLedger.Predicate.Scan
import CoachLedger.Proofs.Sql.Writing
import Mathlib.Data.List.Forall2

set_option autoImplicit false

namespace CoachLedger.Predicate

variable {r : Record} {p q : Predicate}

/-! ### Groups -/

/-- The group that a truth value decides: false decides a conjunction, true a disjunction. -/
def group (decisive : Bool) (members : List Predicate) : Predicate :=
  if decisive then or members else and members

theorem evaluate_group (r : Record) (decisive : Bool) (ps : List Predicate) :
    (group decisive ps).evaluate r = Kleene.join decisive (ps.map fun p => p.evaluate r) := by
  cases decisive with
  | true => exact congrArg Kleene.any (evaluateEach_eq _ ps)
  | false => exact congrArg Kleene.all (evaluateEach_eq _ ps)

/-- A property of all predicates, once a group has it whose members have it. -/
theorem induct_group {motive : Predicate → Prop} (everything : motive .everything)
    (idle : ∀ reason, motive (.idle reason)) (clause : ∀ column c, motive (.clause column c))
    (not : ∀ inner, motive inner → motive (.not inner))
    (group : ∀ decisive members, (∀ p ∈ members, motive p) → motive (group decisive members))
    (p : Predicate) : motive p := by
  induction p using induct_members with
  | everything => exact everything
  | idle reason => exact idle reason
  | clause column c => exact clause column c
  | not inner ih => exact not inner ih
  | and members ih => exact group false members ih
  | or members ih => exact group true members ih

/-! ### Stopping at a member that decides -/

/-- An unknown member of before counts as one member more. -/
theorem scanUntil_eq {decisive : Bool} {ps : List Predicate}
    (h : ∀ p ∈ ps, p.scan r = p.evaluate r) (unknown : Bool) :
    scanUntil r decisive unknown ps =
      Kleene.join decisive ((if unknown then none else some (!decisive)) ::
        ps.map fun p => p.evaluate r) := by
  induction ps generalizing unknown with
  | nil => cases unknown <;> cases decisive <;> rfl
  | cons p ps ih =>
      obtain ⟨hp, hps⟩ := List.forall_mem_cons.1 h
      rw [scanUntil, hp, ih hps, ih hps, List.map_cons]
      -- Only the member and what follows from the rest matter, and the rest is arbitrary.
      generalize ps.map (fun p => p.evaluate r) = rest
      cases decisive with
      | true =>
          simp only [Kleene.join_true, Kleene.any_cons]
          generalize Kleene.any rest = a
          rcases p.evaluate r with _ | _ | _ <;> rcases a with _ | _ | _ <;> cases unknown <;> rfl
      | false =>
          simp only [Kleene.join_false, Kleene.all_cons]
          generalize Kleene.all rest = a
          rcases p.evaluate r with _ | _ | _ <;> rcases a with _ | _ | _ <;> cases unknown <;> rfl

/-- **Evaluation may stop at a member that decides.** -/
theorem scan_eq (r : Record) (p : Predicate) : p.scan r = p.evaluate r := by
  induction p using induct_group with
  | everything => rfl
  | idle reason => rfl
  | clause column c => rfl
  | not inner ih => rw [scan, ih, evaluate_not, Kleene.not]
  | group decisive members ih =>
      have hscan : (group decisive members).scan r = scanUntil r decisive false members := by
        cases decisive <;> rfl
      rw [hscan, scanUntil_eq ih, evaluate_group]
      cases decisive with
      | true => exact Kleene.false_or _
      | false => exact Kleene.true_and _

/-! ### Rewriting -/

/-- The laws of groups and negations, each for a whole predicate. -/
inductive Law : Predicate → Predicate → Prop
  | permute (decisive : Bool) {ps qs : List Predicate} (h : ps.Perm qs) :
      Law (group decisive ps) (group decisive qs)
  | repeated (decisive : Bool) {p : Predicate} {ps : List Predicate} (h : p ∈ ps) :
      Law (group decisive ps) (group decisive (p :: ps))
  | flatten (decisive : Bool) (before inner after : List Predicate) :
      Law (group decisive (before ++ group decisive inner :: after))
        (group decisive (before ++ inner ++ after))
  | cancel (p : Predicate) : Law (not (not p)) p
  | deMorgan (decisive : Bool) (ps : List Predicate) :
      Law (not (group decisive ps)) (group (!decisive) (ps.map not))

/-- Rewriting by the laws, in both directions, anywhere in a predicate and any number of times. -/
inductive Rewrites : Predicate → Predicate → Prop
  | law {p q : Predicate} (h : Law p q) : Rewrites p q
  | refl (p : Predicate) : Rewrites p p
  | symm {p q : Predicate} (h : Rewrites p q) : Rewrites q p
  | trans {p q s : Predicate} (hpq : Rewrites p q) (hqs : Rewrites q s) : Rewrites p s
  | not {p q : Predicate} (h : Rewrites p q) : Rewrites (not p) (not q)
  | member (decisive : Bool) (before after : List Predicate) {p q : Predicate} (h : Rewrites p q) :
      Rewrites (group decisive (before ++ p :: after)) (group decisive (before ++ q :: after))

/-- A law does not change the truth value. -/
theorem Law.evaluate_eq (h : Law p q) (r : Record) : p.evaluate r = q.evaluate r := by
  cases h with
  | permute decisive h =>
      rw [evaluate_group, evaluate_group, Kleene.join_perm decisive (h.map _)]
  | repeated decisive h =>
      rw [evaluate_group, evaluate_group, List.map_cons]
      exact (Kleene.join_cons_of_mem decisive (List.mem_map_of_mem h)).symm
  | flatten decisive before inner after =>
      simp only [evaluate_group, List.map_append, List.map_cons, Kleene.join_flatten]
  | cancel p => rw [evaluate_not, evaluate_not, Kleene.not_not]
  | deMorgan decisive ps =>
      rw [evaluate_not, evaluate_group, evaluate_group, Kleene.not_join, List.map_map, List.map_map]
      rfl

/-- **Rewriting does not change the truth value.** -/
theorem Rewrites.evaluate_eq (h : Rewrites p q) (r : Record) : p.evaluate r = q.evaluate r := by
  induction h with
  | law h => exact h.evaluate_eq r
  | refl p => rfl
  | symm _ ih => exact ih.symm
  | trans _ _ ihpq ihqs => exact ihpq.trans ihqs
  | not _ ih => rw [evaluate_not, evaluate_not, ih]
  | member decisive before after _ ih =>
      simp only [evaluate_group, List.map_append, List.map_cons, ih]

/-- All members of a group may be rewritten. -/
theorem Rewrites.members {ps qs : List Predicate} (decisive : Bool)
    (h : List.Forall₂ Rewrites ps qs) : Rewrites (group decisive ps) (group decisive qs) := by
  -- The members are rewritten from the left; those in front are done.
  suffices hfrom : ∀ before,
      Rewrites (group decisive (before ++ ps)) (group decisive (before ++ qs)) from hfrom []
  induction h with
  | nil => exact fun before => .refl _
  | @cons p q ps qs hpq _ ih =>
      intro before
      have hrest := ih (before ++ [q])
      rw [List.append_assoc, List.append_assoc] at hrest
      exact (hpq.member decisive before ps).trans hrest

/-! ### Pushing negations inward -/

mutual

/-- The predicate, or its negation, with all negations pushed inward to what has no members. -/
def pushed (negated : Bool) : Predicate → Predicate
  | not inner => pushed (!negated) inner
  | and members => group negated (pushedEach negated members)
  | or members => group (!negated) (pushedEach negated members)
  | p => signed negated p
termination_by structural p => p

/-- The same for a list of predicates. -/
def pushedEach (negated : Bool) : List Predicate → List Predicate
  | [] => []
  | p :: ps => pushed negated p :: pushedEach negated ps
termination_by structural ps => ps

end

theorem pushedEach_eq (negated : Bool) (ps : List Predicate) :
    pushedEach negated ps = ps.map (pushed negated) := by
  induction ps with
  | nil => rfl
  | cons p ps ih => rw [pushedEach, ih, List.map_cons]

theorem pushed_group (negated decisive : Bool) (ps : List Predicate) :
    pushed negated (group decisive ps) = group (negated ^^ decisive) (ps.map (pushed negated)) := by
  rw [← pushedEach_eq]
  cases decisive <;> cases negated <;> rfl

/-- The predicate has no members. -/
inductive IsLeaf : Predicate → Prop
  | everything : IsLeaf everything
  | idle (reason : Idle) : IsLeaf (idle reason)
  | clause (column : String) (c : Comparison) : IsLeaf (clause column c)

/-- Only what has no members is negated. -/
inductive IsPushed : Predicate → Prop
  | leaf {p : Predicate} (h : IsLeaf p) : IsPushed p
  | not {p : Predicate} (h : IsLeaf p) : IsPushed (not p)
  | group (decisive : Bool) {ps : List Predicate} (h : ∀ p ∈ ps, IsPushed p) :
      IsPushed (group decisive ps)

theorem isPushed_signed (h : IsLeaf p) (negated : Bool) : IsPushed (signed negated p) := by
  cases negated with
  | true => exact .not h
  | false => exact .leaf h

theorem isPushed_pushed (negated : Bool) (p : Predicate) : (p.pushed negated).IsPushed := by
  induction p using induct_group generalizing negated with
  | everything => exact isPushed_signed .everything negated
  | idle reason => exact isPushed_signed (.idle reason) negated
  | clause column c => exact isPushed_signed (.clause column c) negated
  | not inner ih => exact ih (!negated)
  | group decisive members ih =>
      rw [pushed_group]
      refine .group _ (List.forall_mem_map.2 ?_)
      intro p hp
      exact ih p hp negated

/-- **Negations are pushed inward by the laws.** -/
theorem rewrites_pushed (negated : Bool) (p : Predicate) :
    Rewrites (signed negated p) (p.pushed negated) := by
  induction p using induct_group generalizing negated with
  | everything => exact .refl _
  | idle reason => exact .refl _
  | clause column c => exact .refl _
  | not inner ih =>
      cases negated with
      | true => exact (Rewrites.law (.cancel inner)).trans (ih false)
      | false => exact ih true
  | group decisive members ih =>
      have hmembers : List.Forall₂ Rewrites (members.map (signed negated))
          (members.map (pushed negated)) := by
        rw [List.forall₂_map_left_iff, List.forall₂_map_right_iff, List.forall₂_same]
        exact fun p hp => ih p hp negated
      rw [pushed_group]
      refine .trans ?_ (.members _ hmembers)
      cases negated with
      | true =>
          rw [Bool.true_xor]
          exact .law (.deMorgan decisive members)
      | false =>
          have hid : members.map (signed false) = members := List.map_id members
          rw [Bool.false_xor, hid]
          exact .refl _

/-! ### Settling what is unknown -/

/-- The predicate that has the truth value on every record. -/
def constant (b : Bool) : Predicate :=
  if b then everything else not everything

/-- Some clauses that are unknown for the record are replaced by truth values, each by one of its
own. -/
inductive Settles (r : Record) : Predicate → Predicate → Prop
  | clause {column : String} {c : Comparison} (h : (clause column c).evaluate r = none) (b : Bool) :
      Settles r (clause column c) (constant b)
  | refl (p : Predicate) : Settles r p p
  | trans {p q s : Predicate} (hpq : Settles r p q) (hqs : Settles r q s) : Settles r p s
  | not {p q : Predicate} (h : Settles r p q) : Settles r (not p) (not q)
  | member (decisive : Bool) (before after : List Predicate) {p q : Predicate}
      (h : Settles r p q) :
      Settles r (group decisive (before ++ p :: after)) (group decisive (before ++ q :: after))

/-- **What is known of a predicate stays known** when unknown clauses are settled. -/
theorem Settles.keepsKnown (h : Settles r p q) : Kleene.Below (p.evaluate r) (q.evaluate r) := by
  induction h with
  | clause h b =>
      rw [h]
      exact fun t ht => by cases ht
  | refl p => exact fun t ht => ht
  | trans _ _ ihpq ihqs => exact fun t ht => ihqs t (ihpq t ht)
  | not _ ih => exact ih.not
  | member decisive before after _ ih =>
      simp only [evaluate_group, List.map_append, List.map_cons]
      exact ih.join decisive _ _

/-! ### Kleene logic -/

/-- **Predicates obey Kleene logic.**  On every record a predicate has the same truth value if the
members of its groups are evaluated only up to the first one that decides, and if it is rewritten
by the laws of groups and negations, in particular with its negations pushed down to the clauses.
If it is true or false, it keeps its truth value when clauses that are unknown are replaced by truth
values. -/
theorem evaluate_isKleene (r : Record) :
    (∀ p : Predicate, p.scan r = p.evaluate r) ∧
    (∀ p q, Rewrites p q → q.evaluate r = p.evaluate r ∧ q.scan r = p.scan r) ∧
    (∀ p, Rewrites p (p.pushed false) ∧ (p.pushed false).IsPushed) ∧
    ∀ p q, Settles r p q → ∀ b, p.evaluate r = some b → q.evaluate r = some b := by
  refine ⟨scan_eq r, ?_, ?_, ?_⟩
  · intro p q h
    have heq := (h.evaluate_eq r).symm
    exact ⟨heq, by rw [scan_eq, scan_eq, heq]⟩
  · intro p
    exact ⟨rewrites_pushed false p, isPushed_pushed false p⟩
  · intro p q h
    exact h.keepsKnown

/-- Nothing is remarked of the coach. -/
def unremarked : Predicate := clause "remarks" .isNull

/-- The remarks on the coach mention a fault. -/
def faulty : Predicate := clause "remarks" (.contains "fault")

/-- Of a record without remarks it is unknown whether they mention a fault, but the disjunction is
decided by its other member. -/
theorem evaluate_isKleene_unremarked :
    Rewrites (not (and [faulty, not unremarked])) (or [unremarked, not faulty]) ∧
    (or [unremarked, not faulty]).evaluate (.empty .master) =
      (not (and [faulty, not unremarked])).evaluate (.empty .master) ∧
    Settles (.empty .master) (or [unremarked, faulty]) (or [unremarked, constant false]) ∧
    (or [unremarked, constant false]).evaluate (.empty .master) = some true := by
  obtain ⟨-, hrewrites, -, hsettles⟩ := evaluate_isKleene (.empty .master)
  have hpushed : Rewrites (not (and [faulty, not unremarked])) (or [unremarked, not faulty]) := by
    have hcancel : Rewrites (or [not faulty, not (not unremarked)]) (or [not faulty, unremarked]) :=
      .member true [not faulty] [] (.law (.cancel unremarked))
    have hswap : Rewrites (or [not faulty, unremarked]) (or [unremarked, not faulty]) :=
      .law (.permute true (.swap unremarked (not faulty) []))
    exact (Rewrites.law (.deMorgan false [faulty, not unremarked])).trans (hcancel.trans hswap)
  have hsettled : Settles (.empty .master) (or [unremarked, faulty])
      (or [unremarked, constant false]) :=
    .member true [unremarked] [] (.clause (by decide) false)
  exact ⟨hpushed, (hrewrites _ _ hpushed).1, hsettled, hsettles _ _ hsettled true (by decide)⟩

end CoachLedger.Predicate
