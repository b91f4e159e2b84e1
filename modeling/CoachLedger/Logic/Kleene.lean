/-
**Three-valued logic.**

A comparison with a field that has no value is neither true nor false but unknown.  Unknown
values combine in the strong Kleene way: a conjunction with a false member is false and a
disjunction with a true member is true, whatever the others are.

Main definitions:

* `CoachLedger.Kleene.not`, `CoachLedger.Kleene.and`, `CoachLedger.Kleene.or` — the connectives on
  `Option Bool`, where `none` is unknown;
* `CoachLedger.Kleene.all`, `CoachLedger.Kleene.any` — conjunction and disjunction of a list;
* `CoachLedger.Kleene.join` — either of them, by the truth value that decides it;
* `CoachLedger.Kleene.Below` — one truth value is another one, or unknown.

Main results:

* `CoachLedger.Kleene.not_and`, `CoachLedger.Kleene.not_or` — De Morgan's laws;
* `CoachLedger.Kleene.all_append`, `CoachLedger.Kleene.any_append` — a list may be cut anywhere;
* `CoachLedger.Kleene.all_perm`, `CoachLedger.Kleene.any_perm` — the order does not matter;
* `CoachLedger.Kleene.join_perm`, `CoachLedger.Kleene.join_flatten`,
  `CoachLedger.Kleene.join_cons_of_mem`, `CoachLedger.Kleene.not_join` — the laws of both groups;
* `CoachLedger.Kleene.Below.join` — what is known of a group stays known.
-/

set_option autoImplicit false

namespace CoachLedger.Kleene

/-- Negation. -/
def not (a : Option Bool) : Option Bool :=
  a.map (!·)

/-- Conjunction. -/
def and : Option Bool → Option Bool → Option Bool
  | some false, _ => some false
  | _, some false => some false
  | some true, b => b
  | none, _ => none

/-- Disjunction. -/
def or : Option Bool → Option Bool → Option Bool
  | some true, _ => some true
  | _, some true => some true
  | some false, b => b
  | none, _ => none

/-- Conjunction of a list; the empty one is true. -/
def all (l : List (Option Bool)) : Option Bool :=
  l.foldr and (some true)

/-- Disjunction of a list; the empty one is false. -/
def any (l : List (Option Bool)) : Option Bool :=
  l.foldr or (some false)

/-! ### Laws of the connectives -/

theorem not_not (a : Option Bool) : not (not a) = a := by
  rcases a with _ | _ | _ <;> rfl

theorem and_comm (a b : Option Bool) : and a b = and b a := by
  rcases a with _ | _ | _ <;> rcases b with _ | _ | _ <;> rfl

theorem or_comm (a b : Option Bool) : or a b = or b a := by
  rcases a with _ | _ | _ <;> rcases b with _ | _ | _ <;> rfl

theorem and_assoc (a b c : Option Bool) : and (and a b) c = and a (and b c) := by
  rcases a with _ | _ | _ <;> rcases b with _ | _ | _ <;> rcases c with _ | _ | _ <;> rfl

theorem or_assoc (a b c : Option Bool) : or (or a b) c = or a (or b c) := by
  rcases a with _ | _ | _ <;> rcases b with _ | _ | _ <;> rcases c with _ | _ | _ <;> rfl

theorem not_and (a b : Option Bool) : not (and a b) = or (not a) (not b) := by
  rcases a with _ | _ | _ <;> rcases b with _ | _ | _ <;> rfl

theorem not_or (a b : Option Bool) : not (or a b) = and (not a) (not b) := by
  rcases a with _ | _ | _ <;> rcases b with _ | _ | _ <;> rfl

@[simp] theorem true_and (a : Option Bool) : and (some true) a = a := by
  rcases a with _ | _ | _ <;> rfl

@[simp] theorem false_or (a : Option Bool) : or (some false) a = a := by
  rcases a with _ | _ | _ <;> rfl

/-! ### Lists -/

@[simp] theorem all_nil : all [] = some true := rfl

@[simp] theorem any_nil : any [] = some false := rfl

@[simp] theorem all_cons (a : Option Bool) (l : List (Option Bool)) :
    all (a :: l) = and a (all l) := rfl

@[simp] theorem any_cons (a : Option Bool) (l : List (Option Bool)) :
    any (a :: l) = or a (any l) := rfl

/-- A conjunction may be cut anywhere. -/
theorem all_append (l m : List (Option Bool)) : all (l ++ m) = and (all l) (all m) := by
  induction l with
  | nil => simp
  | cons a l ih => simp [ih, and_assoc]

/-- A disjunction may be cut anywhere. -/
theorem any_append (l m : List (Option Bool)) : any (l ++ m) = or (any l) (any m) := by
  induction l with
  | nil => simp
  | cons a l ih => simp [ih, or_assoc]

/-- The order of a conjunction does not matter. -/
theorem all_perm {l m : List (Option Bool)} (h : l.Perm m) : all l = all m := by
  induction h with
  | nil => rfl
  | cons a _ ih => rw [all_cons, all_cons, ih]
  | swap a b l => rw [all_cons, all_cons, all_cons, all_cons, ← and_assoc, and_comm b, and_assoc]
  | trans _ _ ihl ihm => exact ihl.trans ihm

/-- The order of a disjunction does not matter. -/
theorem any_perm {l m : List (Option Bool)} (h : l.Perm m) : any l = any m := by
  induction h with
  | nil => rfl
  | cons a _ ih => rw [any_cons, any_cons, ih]
  | swap a b l => rw [any_cons, any_cons, any_cons, any_cons, ← or_assoc, or_comm b, or_assoc]
  | trans _ _ ihl ihm => exact ihl.trans ihm

/-! ### Groups of either kind -/

/-- The group that a truth value decides, whatever the other members are: false decides a
conjunction, true a disjunction. -/
def join (decisive : Bool) (l : List (Option Bool)) : Option Bool :=
  if decisive then any l else all l

theorem join_true (l : List (Option Bool)) : join true l = any l := rfl

theorem join_false (l : List (Option Bool)) : join false l = all l := rfl

theorem join_perm (decisive : Bool) {l m : List (Option Bool)} (h : l.Perm m) :
    join decisive l = join decisive m := by
  cases decisive with
  | true => exact any_perm h
  | false => exact all_perm h

/-- A group that is a member of a group of the same kind may be opened. -/
theorem join_flatten (decisive : Bool) (before inner after : List (Option Bool)) :
    join decisive (before ++ join decisive inner :: after) =
      join decisive (before ++ inner ++ after) := by
  cases decisive with
  | true => simp only [join_true, any_append, any_cons, or_assoc]
  | false => simp only [join_false, all_append, all_cons, and_assoc]

theorem and_self (a : Option Bool) : and a a = a := by
  rcases a with _ | _ | _ <;> rfl

theorem or_self (a : Option Bool) : or a a = a := by
  rcases a with _ | _ | _ <;> rfl

/-- A member may be repeated. -/
theorem join_cons_of_mem (decisive : Bool) {a : Option Bool} {l : List (Option Bool)} (h : a ∈ l) :
    join decisive (a :: l) = join decisive l := by
  obtain ⟨before, after, rfl⟩ := List.append_of_mem h
  -- The member that is there already is brought to the front.
  have hfront : (before ++ a :: after).Perm (a :: (before ++ after)) := List.perm_middle
  rw [join_perm decisive (hfront.cons a), join_perm decisive hfront]
  cases decisive with
  | true => rw [join_true, join_true, any_cons, any_cons, ← or_assoc, or_self]
  | false => rw [join_false, join_false, all_cons, all_cons, ← and_assoc, and_self]

/-- De Morgan's law: negation exchanges the two kinds of groups. -/
theorem not_join (decisive : Bool) (l : List (Option Bool)) :
    not (join decisive l) = join (!decisive) (l.map not) := by
  cases decisive with
  | true =>
      change not (any l) = all (l.map not)
      induction l with
      | nil => rfl
      | cons a l ih => rw [any_cons, not_or, ih, List.map_cons, all_cons]
  | false =>
      change not (all l) = any (l.map not)
      induction l with
      | nil => rfl
      | cons a l ih => rw [all_cons, not_and, ih, List.map_cons, any_cons]

/-! ### Knowing more -/

/-- What is known of the first truth value is known of the second one. -/
def Below (a b : Option Bool) : Prop :=
  ∀ t, a = some t → b = some t

theorem Below.not {a b : Option Bool} (h : Below a b) : Below (not a) (not b) := by
  intro t ht
  obtain ⟨u, hu, rfl⟩ := Option.map_eq_some_iff.1 ht
  exact Option.map_eq_some_iff.2 ⟨u, h u hu, rfl⟩

theorem Below.and {a b : Option Bool} (h : Below a b) (c : Option Bool) :
    Below (and a c) (and b c) := by
  intro t ht
  rcases a with _ | a
  · -- Of an unknown member the conjunction is known only if another one is false.
    rcases c with _ | _ | _ <;> rcases b with _ | _ | _ <;> simp_all [Kleene.and]
  · rw [h a rfl]
    exact ht

theorem Below.or {a b : Option Bool} (h : Below a b) (c : Option Bool) :
    Below (or a c) (or b c) := by
  intro t ht
  rcases a with _ | a
  · rcases c with _ | _ | _ <;> rcases b with _ | _ | _ <;> simp_all [Kleene.or]
  · rw [h a rfl]
    exact ht

/-- What is known of a group stays known when more is known of a member. -/
theorem Below.join {a b : Option Bool} (h : Below a b) (decisive : Bool)
    (before after : List (Option Bool)) :
    Below (join decisive (before ++ a :: after)) (join decisive (before ++ b :: after)) := by
  rw [join_perm decisive List.perm_middle, join_perm decisive (List.perm_middle (a := b))]
  cases decisive with
  | true => exact h.or (any (before ++ after))
  | false => exact h.and (all (before ++ after))

end CoachLedger.Kleene
