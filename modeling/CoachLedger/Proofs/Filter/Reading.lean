/-
**What a filter text says.**

A condition is given by its members: each at most once, in an object in any order and among others
that are ignored, or in an array in their fixed order.  Each member of the condition is what the
tree that is given for it stands for, and a member that is not given is what it is by default,
which a column and an operator do not have.  This says which conditions a text has without regard
to the order in which it is read.

Main definitions:

* `CoachLedger.Filter.Condition.Takes`, `CoachLedger.Filter.Condition.Defaults` — a member of a
  condition is what a tree stands for, or what it is by default;
* `CoachLedger.Filter.Gives` — the members that a tree gives;
* `CoachLedger.Filter.IsCondition` — a tree stands for a condition;
* `CoachLedger.Filter.IsConditionList` — a text is a list of conditions.

Main results:

* `CoachLedger.Filter.assignAll_iff` — reading members one after the other;
* `CoachLedger.Filter.readCondition_eq_ok` — **reading a condition gives what the tree stands for**;
* `CoachLedger.Filter.readConditions_eq_ok` — **reading a text gives the conditions of its list**.
-/

import CoachLedger.Filter.Reader
import Mathlib.Data.List.Forall2

set_option autoImplicit false

namespace CoachLedger.Filter

variable {c : Condition} {d e : Draft} {m : Member} {t : Json.Tree}
  {given : List (Member × Json.Tree)}

/-! ### Members of a condition -/

/-- The member of the condition is what the tree stands for. -/
def Condition.Takes (c : Condition) (t : Json.Tree) : Member → Prop
  | .id => orNull innerValue t = .ok c.id
  | .column => readText t = .ok c.column
  | .operator => ∃ name, readText t = .ok name ∧ c.operator = .ofName name
  | .value => readOperand t = .ok c.value
  | .valueTo => readOptionalOperand t = .ok c.valueTo
  | .connective => readName Connective.ofName? t = .ok c.connective
  | .declared => orNull (readName ofDeclaredName?) t = .ok c.declared

/-- The member of the condition is what it is by default. -/
def Condition.Defaults (c : Condition) : Member → Prop
  | .id => c.id = none
  | .column => False
  | .operator => False
  | .value => c.value = ""
  | .valueTo => c.valueTo = none
  | .connective => c.connective = .and
  | .declared => c.declared = none

/-- The member that an entry of an object gives. -/
def memberOf? : Option String × Json.Tree → Option (Member × Json.Tree)
  | (some name, t) => (Member.ofName? name).map fun m => (m, t)
  | (none, _) => none

/-- The members that a tree gives, with a tree for each of them. -/
inductive Gives : Json.Tree → List (Member × Json.Tree) → Prop
  /-- Names have values, and members with other names are ignored. -/
  | object {members : List (Option String × Json.Tree)} :
      (∀ x ∈ members, x.1.isSome = true) → Gives (.object members) (members.filterMap memberOf?)
  | array {items : List Json.Tree} :
      items.length ≤ Member.all.length → Gives (.array items) (Member.all.zip items)

/-- The members that are given make up the condition. -/
structure IsMadeOf (given : List (Member × Json.Tree)) (c : Condition) : Prop where
  nodup : (given.map Prod.fst).Nodup
  takes : ∀ x ∈ given, c.Takes x.2 x.1
  defaults : ∀ m, m ∉ given.map Prod.fst → c.Defaults m

/-- The tree stands for the condition. -/
def IsCondition (t : Json.Tree) (c : Condition) : Prop :=
  ∃ given, Gives t given ∧ IsMadeOf given c

/-- The text is a list of the conditions. -/
def IsConditionList (text : String) (cs : List Condition) : Prop :=
  ∃ items, Json.outline text = ⟨.array items, true⟩ ∧ List.Forall₂ IsCondition items cs

/-! ### Drafts -/

/-- The draft leaves the member of the condition as it is. -/
def Draft.Yields (d : Draft) (c : Condition) : Member → Prop
  | .id => d.id.join = c.id
  | .column => d.column = some c.column
  | .operator => d.operator = some c.operator
  | .value => d.value.getD "" = c.value
  | .valueTo => d.valueTo.join = c.valueTo
  | .connective => d.connective.getD .and = c.connective
  | .declared => d.declared.join = c.declared

/-- Before anything is read each member is what it is by default. -/
theorem yields_empty (c : Condition) (m : Member) : Draft.empty.Yields c m ↔ c.Defaults m := by
  cases m with
  | column => exact iff_of_false (by rintro ⟨⟩) id
  | operator => exact iff_of_false (by rintro ⟨⟩) id
  | _ => exact eq_comm

/-- A draft is finished as the condition whose members it yields. -/
theorem finish_eq_ok : d.finish = .ok c ↔ ∀ m, d.Yields c m := by
  constructor
  · intro h
    unfold Draft.finish at h
    split at h
    · rename_i column operator hcolumn hoperator
      obtain rfl := Except.ok.inj h
      intro m
      cases m with
      | column => exact hcolumn
      | operator => exact hoperator
      | _ => rfl
    · cases h
  · intro h
    have hcolumn : d.column = some c.column := h .column
    have hoperator : d.operator = some c.operator := h .operator
    have hid : d.id.join = c.id := h .id
    have hvalue : d.value.getD "" = c.value := h .value
    have hvalueTo : d.valueTo.join = c.valueTo := h .valueTo
    have hconnective : d.connective.getD .and = c.connective := h .connective
    have hdeclared : d.declared.join = c.declared := h .declared
    rw [Draft.finish, hcolumn, hoperator, hid, hvalue, hvalueTo, hconnective, hdeclared]

/-- A draft, and the draft with one more member that is read from a tree. -/
inductive Assigned (d : Draft) (t : Json.Tree) : Member → Draft → Prop
  | id {v} : orNull innerValue t = .ok v → Assigned d t .id { d with id := some v }
  | column {s} : readText t = .ok s → Assigned d t .column { d with column := some s }
  | operator {s} : readText t = .ok s →
      Assigned d t .operator { d with operator := some (.ofName s) }
  | value {s} : readOperand t = .ok s → Assigned d t .value { d with value := some s }
  | valueTo {v} : readOptionalOperand t = .ok v → Assigned d t .valueTo { d with valueTo := some v }
  | connective {k} : readName Connective.ofName? t = .ok k →
      Assigned d t .connective { d with connective := some k }
  | declared {v} : orNull (readName ofDeclaredName?) t = .ok v →
      Assigned d t .declared { d with declared := some v }

theorem map_eq_ok {ε α β : Type} {r : Except ε α} {f : α → β} {b : β} :
    r.map f = .ok b ↔ ∃ a, r = .ok a ∧ f a = b := by
  cases r with
  | ok a => simp [Except.map]
  | error x => simp [Except.map]

/-- Only a member that was not read before is read. -/
theorem assigned_of_assign (h : d.assign m t = .ok e) : d.has m = false ∧ Assigned d t m e := by
  unfold Draft.assign at h
  split at h
  · cases h
  · rename_i hfresh
    refine ⟨Bool.eq_false_iff.2 hfresh, ?_⟩
    cases m with
    | id =>
        obtain ⟨v, hv, rfl⟩ := map_eq_ok.1 h
        exact .id hv
    | column =>
        obtain ⟨s, hs, rfl⟩ := map_eq_ok.1 h
        exact .column hs
    | operator =>
        obtain ⟨s, hs, rfl⟩ := map_eq_ok.1 h
        exact .operator hs
    | value =>
        obtain ⟨s, hs, rfl⟩ := map_eq_ok.1 h
        exact .value hs
    | valueTo =>
        obtain ⟨v, hv, rfl⟩ := map_eq_ok.1 h
        exact .valueTo hv
    | connective =>
        obtain ⟨k, hk, rfl⟩ := map_eq_ok.1 h
        exact .connective hk
    | declared =>
        obtain ⟨v, hv, rfl⟩ := map_eq_ok.1 h
        exact .declared hv

/-- A member that was not read before is read if its tree stands for something. -/
theorem assign_of_takes (hfresh : d.has m = false) (h : c.Takes t m) :
    ∃ e, d.assign m t = .ok e := by
  unfold Draft.assign
  rw [hfresh, if_neg Bool.false_ne_true]
  cases m with
  | operator =>
      obtain ⟨name, hname, -⟩ := h
      exact ⟨_, map_eq_ok.2 ⟨name, hname, rfl⟩⟩
  | _ => exact ⟨_, map_eq_ok.2 ⟨_, h, rfl⟩⟩

theorem Assigned.has (h : Assigned d t m e) : e.has m = true := by
  cases h <;> rfl

/-- The member that was read is what its tree stands for. -/
theorem Assigned.yields_iff (h : Assigned d t m e) (c : Condition) :
    e.Yields c m ↔ c.Takes t m := by
  have hread {α : Type} {r : Except Fault α} {a b : α} (hr : r = .ok a) : a = b ↔ r = .ok b := by
    rw [hr, Except.ok.injEq]
  cases h with
  | id hv => exact hread hv
  | column hs => exact Option.some_inj.trans (hread hs)
  | operator hs =>
      refine Option.some_inj.trans ⟨fun heq => ⟨_, hs, heq.symm⟩, ?_⟩
      rintro ⟨name, hname, heq⟩
      rw [heq, Except.ok.inj (hs.symm.trans hname)]
  | value hs => exact hread hs
  | valueTo hv => exact hread hv
  | connective hk => exact hread hk
  | declared hv => exact hread hv

/-- All other members are as they were. -/
theorem Assigned.frame (h : Assigned d t m e) {k : Member} (hk : k ≠ m) :
    e.has k = d.has k ∧ (e.Yields c k ↔ d.Yields c k) := by
  cases h <;> cases k <;> first | exact ⟨rfl, Iff.rfl⟩ | exact absurd rfl hk

/-! ### Members one after the other -/

/-- The draft with members that are read one after the other. -/
def Draft.assignAll (d : Draft) : List (Member × Json.Tree) → Except Fault Draft
  | [] => .ok d
  | (m, t) :: rest =>
      match d.assign m t with
      | .ok d => d.assignAll rest
      | .error e => .error e

/-- **Reading members one after the other** ends with a condition if each of them is fresh and
stands for its part of the condition, and the draft yields all other parts. -/
theorem assignAll_iff :
    (∃ e, d.assignAll given = .ok e ∧ e.finish = .ok c) ↔
      (given.map Prod.fst).Nodup ∧ (∀ x ∈ given, d.has x.1 = false ∧ c.Takes x.2 x.1) ∧
        ∀ m, m ∉ given.map Prod.fst → d.Yields c m := by
  induction given generalizing d with
  | nil =>
      constructor
      · rintro ⟨e, he, hfinish⟩
        obtain rfl := Except.ok.inj he
        exact ⟨.nil, fun x hx => absurd hx List.not_mem_nil, fun m _ => finish_eq_ok.1 hfinish m⟩
      · rintro ⟨-, -, hyields⟩
        exact ⟨d, rfl, finish_eq_ok.2 fun m => hyields m List.not_mem_nil⟩
  | cons x rest ih =>
      obtain ⟨m, t⟩ := x
      rw [List.map_cons, List.nodup_cons, List.forall_mem_cons, Draft.assignAll]
      constructor
      · intro h
        cases hassign : d.assign m t with
        | error f =>
            rw [hassign] at h
            obtain ⟨e, he, -⟩ := h
            cases he
        | ok d' =>
            rw [hassign] at h
            obtain ⟨hnodup, htakes, hyields⟩ := ih.1 h
            obtain ⟨hfresh, hassigned⟩ := assigned_of_assign hassign
            -- The rest does not give this member again, since the draft has it by then.
            have hother : ∀ x ∈ rest, x.1 ≠ m := by
              rintro x hx rfl
              exact Bool.noConfusion (hassigned.has.symm.trans (htakes x hx).1)
            have hmem : m ∉ rest.map Prod.fst := by
              intro hm
              obtain ⟨x, hx, hxm⟩ := List.mem_map.1 hm
              exact hother x hx hxm
            refine ⟨⟨hmem, hnodup⟩, ⟨⟨hfresh, (hassigned.yields_iff c).1 (hyields m hmem)⟩, ?_⟩, ?_⟩
            · intro x hx
              obtain ⟨hhas, -⟩ := hassigned.frame (c := c) (hother x hx)
              exact ⟨hhas.symm.trans (htakes x hx).1, (htakes x hx).2⟩
            · intro k hk
              obtain ⟨hkm, hk⟩ := not_or.1 (mt List.mem_cons.2 hk)
              exact (hassigned.frame hkm).2.1 (hyields k hk)
      · rintro ⟨⟨hmem, hnodup⟩, ⟨⟨hfresh, htake⟩, htakes⟩, hyields⟩
        obtain ⟨d', hassign⟩ := assign_of_takes hfresh htake
        obtain ⟨-, hassigned⟩ := assigned_of_assign hassign
        rw [hassign]
        refine ih.2 ⟨hnodup, ?_, ?_⟩
        · intro x hx
          have hxm : x.1 ≠ m := by
            rintro rfl
            exact hmem (List.mem_map.2 ⟨x, hx, rfl⟩)
          obtain ⟨hhas, -⟩ := hassigned.frame (c := c) hxm
          exact ⟨hhas.trans (htakes x hx).1, (htakes x hx).2⟩
        · intro k hk
          by_cases hkm : k = m
          · subst hkm
            exact (hassigned.yields_iff c).2 htake
          · exact (hassigned.frame hkm).2.2 (hyields k (List.not_mem_cons_of_ne_of_not_mem hkm hk))

/-- Reading the members of an object is reading the known ones among them. -/
theorem readMembers_eq_ok {members : List (Option String × Json.Tree)} :
    d.readMembers members = .ok e ↔
      (∀ x ∈ members, x.1.isSome = true) ∧ d.assignAll (members.filterMap memberOf?) = .ok e := by
  induction members generalizing d with
  | nil => exact ⟨fun h => ⟨fun x hx => absurd hx List.not_mem_nil, h⟩, And.right⟩
  | cons x rest ih =>
      obtain ⟨name, t⟩ := x
      rw [List.forall_mem_cons]
      cases name with
      | none => exact iff_of_false (by rintro ⟨⟩) fun h => Bool.noConfusion h.1.1
      | some name =>
          rw [Draft.readMembers, List.filterMap_cons, memberOf?]
          cases Member.ofName? name with
          | none => exact ih.trans (and_congr_left fun _ => (and_iff_right rfl).symm)
          | some m =>
              dsimp only [Option.map_some]
              rw [Draft.assignAll]
              cases d.assign m t with
              | error f => exact iff_of_false (by rintro ⟨⟩) (by rintro ⟨-, ⟨⟩⟩)
              | ok d' => exact ih.trans (and_congr_left fun _ => (and_iff_right rfl).symm)

/-- Reading the items of an array is reading them as the members in their order. -/
theorem readItems_eq_ok {ms : List Member} {items : List Json.Tree} :
    d.readItems ms items = .ok e ↔
      items.length ≤ ms.length ∧ d.assignAll (ms.zip items) = .ok e := by
  induction items generalizing d ms with
  | nil =>
      rw [List.zip_nil_right]
      cases ms <;> exact ⟨fun h => ⟨Nat.zero_le _, h⟩, And.right⟩
  | cons t ts ih =>
      cases ms with
      | nil => exact iff_of_false (by rintro ⟨⟩) fun h => Nat.not_succ_le_zero _ h.1
      | cons m ms =>
          rw [Draft.readItems, List.zip_cons_cons, Draft.assignAll, List.length_cons,
            List.length_cons, Nat.succ_le_succ_iff]
          cases d.assign m t with
          | error f => exact iff_of_false (by rintro ⟨⟩) (by rintro ⟨-, ⟨⟩⟩)
          | ok d' => exact ih

/-! ### Conditions and their lists -/

/-- Members that are read from nothing make up the condition. -/
theorem assignAll_empty_iff :
    (∃ e, Draft.empty.assignAll given = .ok e ∧ e.finish = .ok c) ↔ IsMadeOf given c := by
  have hempty (m : Member) : Draft.empty.has m = false := by cases m <;> rfl
  rw [assignAll_iff]
  constructor
  · rintro ⟨hnodup, htakes, hyields⟩
    exact ⟨hnodup, fun x hx => (htakes x hx).2, fun m hm => (yields_empty c m).1 (hyields m hm)⟩
  · rintro ⟨hnodup, htakes, hdefaults⟩
    exact ⟨hnodup, fun x hx => ⟨hempty x.1, htakes x hx⟩,
      fun m hm => (yields_empty c m).2 (hdefaults m hm)⟩

theorem finish_read_eq_ok {r : Except Fault Draft} :
    (match r with
      | .ok d => d.finish
      | .error e => .error e) = .ok c ↔ ∃ d, r = .ok d ∧ d.finish = .ok c := by
  cases r with
  | error f => exact iff_of_false (by rintro ⟨⟩) (by rintro ⟨d, ⟨⟩, -⟩)
  | ok d => exact ⟨fun h => ⟨d, rfl, h⟩, fun ⟨_, hd, h⟩ => Except.ok.inj hd ▸ h⟩

/-- **Reading a condition gives what the tree stands for.** -/
theorem readCondition_eq_ok : readCondition t = .ok c ↔ IsCondition t c := by
  unfold readCondition IsCondition
  refine finish_read_eq_ok.trans ?_
  cases t with
  | object members =>
      constructor
      · rintro ⟨d, hd, hfinish⟩
        obtain ⟨hnames, hall⟩ := readMembers_eq_ok.1 hd
        exact ⟨_, .object hnames, assignAll_empty_iff.1 ⟨d, hall, hfinish⟩⟩
      · rintro ⟨given, hgives, hmade⟩
        obtain ⟨d, hall, hfinish⟩ := assignAll_empty_iff.2 hmade
        cases hgives with
        | object hnames => exact ⟨d, readMembers_eq_ok.2 ⟨hnames, hall⟩, hfinish⟩
  | array items =>
      constructor
      · rintro ⟨d, hd, hfinish⟩
        obtain ⟨hlength, hall⟩ := readItems_eq_ok.1 hd
        exact ⟨_, .array hlength, assignAll_empty_iff.1 ⟨d, hall, hfinish⟩⟩
      · rintro ⟨given, hgives, hmade⟩
        obtain ⟨d, hall, hfinish⟩ := assignAll_empty_iff.2 hmade
        cases hgives with
        | array hlength => exact ⟨d, readItems_eq_ok.2 ⟨hlength, hall⟩, hfinish⟩
  | _ => exact iff_of_false (by rintro ⟨d, ⟨⟩, -⟩) (by rintro ⟨given, ⟨⟩, -⟩)

/-- The conditions of a list come after those that were read before. -/
theorem readList_eq_ok {reversed cs : List Condition} {items : List Json.Tree} :
    readList reversed items = .ok cs ↔
      ∃ rest, cs = reversed.reverse ++ rest ∧ List.Forall₂ IsCondition items rest := by
  induction items generalizing reversed with
  | nil =>
      rw [readList]
      constructor
      · intro h
        exact ⟨[], (List.append_nil _).symm ▸ (Except.ok.inj h).symm, .nil⟩
      · rintro ⟨rest, rfl, ⟨⟩⟩
        rw [List.append_nil]
  | cons t ts ih =>
      rw [readList]
      cases hread : readCondition t with
      | error f =>
          refine iff_of_false (by rintro ⟨⟩) ?_
          rintro ⟨rest, -, hall⟩
          cases hall with
          | cons hc _ =>
              rw [readCondition_eq_ok.2 hc] at hread
              cases hread
      | ok c =>
          refine ih.trans ⟨?_, ?_⟩
          · rintro ⟨rest, rfl, hall⟩
            refine ⟨c :: rest, ?_, .cons (readCondition_eq_ok.1 hread) hall⟩
            rw [List.reverse_cons, List.append_assoc, List.singleton_append]
          · rintro ⟨rest, rfl, hall⟩
            cases hall with
            | cons hc hall =>
                obtain rfl := Except.ok.inj (hread.symm.trans (readCondition_eq_ok.2 hc))
                refine ⟨_, ?_, hall⟩
                rw [List.reverse_cons, List.append_assoc, List.singleton_append]

/-- The conditions of a text are those of the items of its array. -/
theorem readConditions_of_outline {text : String} {items : List Json.Tree}
    (h : Json.outline text = ⟨.array items, true⟩) : readConditions text = readList [] items := by
  unfold readConditions
  rw [h]
  dsimp only
  cases readList [] items with
  | ok cs => rfl
  | error f => rfl

/-- **Reading a text gives the conditions of its list.** -/
theorem readConditions_eq_ok {text : String} {cs : List Condition} :
    readConditions text = .ok cs ↔ IsConditionList text cs := by
  unfold readConditions IsConditionList
  obtain ⟨root, complete⟩ := Json.outline text
  dsimp only
  cases root with
  | array items =>
      have hlist : readList [] items = .ok cs ↔ List.Forall₂ IsCondition items cs := by
        refine readList_eq_ok.trans ⟨?_, fun h => ⟨cs, rfl, h⟩⟩
        rintro ⟨rest, rfl, h⟩
        exact h
      dsimp only
      constructor
      · intro h
        cases hread : readList [] items with
        | error f =>
            rw [hread] at h
            cases h
        | ok ds =>
            rw [hread] at h
            cases complete with
            | false => cases h
            | true => exact ⟨items, rfl, hlist.1 (hread.trans h)⟩
      · rintro ⟨_, ⟨⟩, hall⟩
        rw [hlist.2 hall]
        rfl
  | _ => exact iff_of_false (by rintro ⟨⟩) (by rintro ⟨items, ⟨⟩, -⟩)

end CoachLedger.Filter
