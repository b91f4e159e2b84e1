/-
**Writing the conditions of a filter.**

Conditions are written in one form, whatever form they were read from, and are read back from it.
What was read survives this, and so does what is written: names of operators are kept, operands are
texts by then, and members that are not written are read as what they are by default.  There is one
exception.  An id that is null is written, but null stands for no id where it is read; such an id
only comes from an object that embeds the text `null`.

Reading back an id takes a reader that inverts the writer, which is stated for the values at hand:
`CoachLedger.Json.readNested_text` says for which values it is so.

Main definitions:

* `CoachLedger.Filter.Condition.settled` — the condition as it is read back;
* `CoachLedger.Filter.Condition.IsSound` — the condition can be read back.

Main results:

* `CoachLedger.Filter.Condition.stands_toJson` — the text of a condition stands for it;
* `CoachLedger.Filter.readConditions_listToJson` — **sound conditions are read back**;
* `CoachLedger.Filter.readConditions_survives` — **conditions that were read are read back**.
-/

import CoachLedger.Proofs.Filter.Reading
import CoachLedger.Proofs.Json.Inverse

set_option autoImplicit false

namespace CoachLedger.Filter

variable {c : Condition} {cs : List Condition} {m : Member} {j : Json} {text : String}

/-! ### Conditions that are read back -/

namespace Condition

/-- The condition as it is read back: an id that is null is none. -/
def settled (c : Condition) : Condition :=
  { c with id := c.id.filter fun j => !j.isNull }

/-- The condition can be read back: its id is, and its operator is known if its name is. -/
structure IsSound (c : Condition) : Prop where
  id : ∀ j, c.id = some j → Json.readNested innerDepth j.text = some j
  operator : c.operator = .ofName c.operator.name

/-- Only an id that is null is not read back. -/
theorem settled_eq (h : c.id ≠ some .null) : c.settled = c := by
  have hid : (c.id.filter fun j => !j.isNull) = c.id := by
    cases hc : c.id with
    | none => rfl
    | some j =>
        have hj : j.isNull = false := by
          cases j with
          | null => exact absurd hc h
          | _ => rfl
        simp [hj]
  rw [settled, hid]

theorem id_settled_ne_null (c : Condition) : c.settled.id ≠ some .null := by
  intro h
  obtain ⟨-, hnull⟩ := Option.filter_eq_some_iff.1 h
  cases hnull

theorem settled_settled (c : Condition) : c.settled.settled = c.settled :=
  settled_eq c.id_settled_ne_null

theorem IsSound.settled (h : c.IsSound) : c.settled.IsSound where
  id j hj := h.id j (Option.filter_eq_some_iff.1 hj).1
  operator := h.operator

end Condition

/-! ### Ids that are null -/

theorem innerValue_eq_ok {t : Json.Tree} :
    innerValue t = .ok j ↔ t.value? Json.read? innerDepth = some j := by
  unfold innerValue
  cases t.value? Json.read? innerDepth <;> simp

/-- Where null stands for nothing, only other trees are read. -/
theorem orNull_eq_some {α : Type} {read : Json.Tree → Except Fault α} {t : Json.Tree} {a : α} :
    orNull read t = .ok (some a) ↔ t ≠ .null ∧ read t = .ok a := by
  unfold orNull
  split
  · simp
  · rename_i hne
    have hne : t ≠ .null := fun h => hne h
    rw [map_eq_ok]
    simp [hne]

/-! ### Members -/

namespace Condition

/-- The text of an id stands for it, or for none if it is null. -/
theorem IsSound.takes_id (hc : c.IsSound) (h : c.id = some j) :
    ∃ t, Json.Stands j.chars t ∧ c.settled.Takes t .id := by
  by_cases hnull : j = .null
  · have hid : c.settled.id = none := by
      rw [Condition.settled, h, hnull]
      rfl
    refine ⟨.null, hnull ▸ Json.stands_null, ?_⟩
    rw [Takes, hid]
    rfl
  · obtain ⟨t, houtline, hvalue⟩ := Json.readNested_eq_some.1 (hc.id j h)
    have hstands := Json.outline_eq_iff.1 houtline
    rw [Json.toList_text] at hstands
    have ht : t ≠ .null := by
      rintro rfl
      exact hnull (Option.some.inj hvalue).symm
    have hid : c.settled.id = some j := by
      rw [Condition.settled_eq fun hc => hnull (Option.some.inj (h.symm.trans hc)), h]
    refine ⟨t, hstands, ?_⟩
    rw [Takes, hid, orNull_eq_some]
    exact ⟨ht, innerValue_eq_ok.2 hvalue⟩

/-- **The text of a member stands for it.** -/
theorem IsSound.takes (hc : c.IsSound) (h : c.member? m = some j) :
    ∃ t, Json.Stands j.chars t ∧ c.settled.Takes t m := by
  cases m with
  | id => exact hc.takes_id h
  | column =>
      obtain rfl := Option.some.inj h
      exact ⟨_, Json.stands_string _, rfl⟩
  | operator =>
      obtain rfl := Option.some.inj h
      exact ⟨_, Json.stands_string _, _, rfl, hc.operator⟩
  | value =>
      obtain rfl := Option.some.inj h
      exact ⟨_, Json.stands_string _, rfl⟩
  | valueTo =>
      obtain ⟨s, hs, rfl⟩ := Option.map_eq_some_iff.1 h
      refine ⟨_, Json.stands_string _, ?_⟩
      change _ = Except.ok c.valueTo
      rw [hs]
      rfl
  | connective =>
      obtain rfl := Option.some.inj h
      refine ⟨_, Json.stands_string _, ?_⟩
      change _ = Except.ok c.connective
      cases c.connective <;> rfl
  | declared =>
      obtain ⟨k, hk, rfl⟩ := Option.map_eq_some_iff.1 h
      refine ⟨_, Json.stands_string _, ?_⟩
      change _ = Except.ok c.declared
      rw [hk]
      cases k <;> rfl

/-- A member that is not written is what it is by default. -/
theorem defaults_of_member? (h : c.member? m = none) : c.settled.Defaults m := by
  cases m with
  | id => simp [Defaults, settled, show c.id = none from h]
  | valueTo => exact Option.map_eq_none_iff.1 h
  | declared => exact Option.map_eq_none_iff.1 h
  | _ => cases h

/-- The members that are written. -/
def members (c : Condition) : List (Member × Json) :=
  Member.all.filterMap fun m => (c.member? m).map fun j => (m, j)

theorem mem_members {x : Member × Json} : x ∈ c.members ↔ c.member? x.1 = some x.2 := by
  obtain ⟨m, j⟩ := x
  have hm : m ∈ Member.all := by cases m <;> decide
  simp [members, hm]

theorem toJson_eq (c : Condition) :
    c.toJson = .object (c.members.map fun x => (x.1.name, x.2)) := by
  rw [toJson, members, List.map_filterMap]
  simp [Function.comp_def]

theorem nodup_members (c : Condition) : (c.members.map Prod.fst).Nodup := by
  rw [members, List.map_filterMap]
  refine List.Nodup.filterMap ?_ (by decide)
  intro m m' k hk hk'
  simp only [Option.map_map, Option.mem_def, Option.map_eq_some_iff, Function.comp_apply] at hk hk'
  obtain ⟨-, -, rfl⟩ := hk
  obtain ⟨-, -, rfl⟩ := hk'
  rfl

/-- **The text of a condition stands for it.** -/
theorem stands_toJson (hc : c.IsSound) :
    ∃ t, Json.Stands c.toJson.chars t ∧ IsCondition t c.settled := by
  have hmember (x : Member × Json) (hx : x ∈ c.members) := hc.takes (mem_members.1 hx)
  choose! tree hstands htakes using hmember
  have hobject : Json.Stands (Json.object (c.members.map fun x => (x.1.name, x.2))).chars _ :=
    Json.stands_object hstands
  rw [← toJson_eq] at hobject
  refine ⟨_, hobject, c.members.map fun x => (x.1, tree x), ?_, ?_⟩
  · have hgives : ((c.members.map fun x => (some x.1.name, tree x)).filterMap memberOf?) =
        c.members.map fun x => (x.1, tree x) := by
      have hmember : (memberOf? ∘ fun x : Member × Json => (some x.1.name, tree x)) =
          some ∘ fun x => (x.1, tree x) := by
        funext ⟨m, j⟩
        cases m <;> rfl
      rw [List.filterMap_map, hmember, List.filterMap_eq_map]
    rw [← hgives]
    exact .object (List.forall_mem_map.2 fun x _ => rfl)
  · have hfst : (c.members.map fun x => (x.1, tree x)).map Prod.fst = c.members.map Prod.fst := by
      rw [List.map_map]
      rfl
    refine ⟨hfst ▸ c.nodup_members, List.forall_mem_map.2 htakes, fun m hm => ?_⟩
    refine defaults_of_member? ?_
    rw [hfst] at hm
    rw [Option.eq_none_iff_forall_ne_some]
    intro j hj
    exact hm (List.mem_map.2 ⟨(m, j), mem_members.2 hj, rfl⟩)

end Condition

/-! ### Lists of conditions -/

/-- **Sound conditions are read back.** -/
theorem readConditions_listToJson (h : ∀ c ∈ cs, c.IsSound) :
    readConditions (Condition.listToJson cs).text = .ok (cs.map Condition.settled) := by
  have hcondition (c : Condition) (hc : c ∈ cs) := Condition.stands_toJson (h c hc)
  choose! tree hstands hread using hcondition
  have hlist := Json.stands_array hstands
  rw [← Json.toList_text] at hlist
  refine readConditions_eq_ok.2 ⟨cs.map tree, Json.outline_eq_iff.2 hlist, ?_⟩
  rw [List.forall₂_map_left_iff, List.forall₂_map_right_iff, List.forall₂_same]
  exact hread

/-- The operator of a condition that a tree stands for is the one of its name. -/
theorem IsCondition.operator {t : Json.Tree} (h : IsCondition t c) :
    c.operator = .ofName c.operator.name := by
  obtain ⟨given, -, hmade⟩ := h
  have hgiven : Member.operator ∈ given.map Prod.fst := by
    by_contra hmissing
    exact hmade.defaults .operator hmissing
  obtain ⟨x, hx, hmember⟩ := List.mem_map.1 hgiven
  have htakes := hmade.takes x hx
  rw [hmember] at htakes
  obtain ⟨name, -, hname⟩ := htakes
  rw [hname, Operator.name_ofName]

/-- The operators of conditions that were read are those of their names. -/
theorem operator_of_readConditions (h : readConditions text = .ok cs) (hc : c ∈ cs) :
    c.operator = .ofName c.operator.name := by
  obtain ⟨items, -, hall⟩ := readConditions_eq_ok.1 h
  have hboth : List.Forall₂ (fun c t => c.operator = .ofName c.operator.name ∧ IsCondition t c)
      cs items := List.Forall₂.flip (hall.imp fun t c ht => ⟨ht.operator, ht⟩)
  exact ((List.forall₂_and_left cs items).1 hboth).1 c hc

/-- An operator is unknown only if its name is not among the known ones. -/
theorem Operator.name_ne_of_unknown {op : Operator} {name : String} (hop : op = .ofName op.name)
    (h : op = .unknown name) : ∀ k ∈ known, k.name ≠ name := by
  subst h
  change unknown name = (known.find? fun k => k.name == name).getD (unknown name) at hop
  cases hfound : known.find? fun k => k.name == name with
  | none => simpa using hfound
  | some k =>
      rw [hfound, Option.getD_some] at hop
      have hk := List.mem_of_find?_eq_some hfound
      rw [← hop] at hk
      simp [known] at hk

/-- **Conditions that were read are read back** if their ids are, but for ids that are null; from
then on nothing changes, and an operator is unknown only if its name is not among the known ones. -/
theorem readConditions_survives (h : readConditions text = .ok cs)
    (hid : ∀ c ∈ cs, ∀ j, c.id = some j → Json.readNested innerDepth j.text = some j) :
    let back := cs.map Condition.settled
    readConditions (Condition.listToJson cs).text = .ok back ∧
      (∀ c ∈ cs, c.id ≠ some .null → c.settled = c) ∧
      ((∀ c ∈ cs, c.id ≠ some .null) →
        back = cs ∧ (Condition.listToJson back).text = (Condition.listToJson cs).text) ∧
      readConditions (Condition.listToJson back).text = .ok back ∧
      ∀ c ∈ back, ∀ name, c.operator = .unknown name → ∀ k ∈ Operator.known, k.name ≠ name := by
  intro back
  have hsound (c : Condition) (hc : c ∈ cs) : c.IsSound :=
    ⟨hid c hc, operator_of_readConditions h hc⟩
  have hback : ∀ c ∈ back, c.IsSound := List.forall_mem_map.2 fun c hc => (hsound c hc).settled
  have hagain : back.map Condition.settled = back := by
    simp [back, Function.comp_def, Condition.settled_settled]
  refine ⟨readConditions_listToJson hsound, fun c _ => Condition.settled_eq, fun hnull => ?_, ?_, ?_⟩
  · have heq : back = cs := by
      refine (List.map_congr_left fun c hc => ?_).trans (List.map_id cs)
      exact Condition.settled_eq (hnull c hc)
    exact ⟨heq, by rw [heq]⟩
  · have hread := readConditions_listToJson hback
    rwa [hagain] at hread
  · intro c hc name hname
    exact Operator.name_ne_of_unknown (hback c hc).operator hname

/-- A condition in the form of an array and one in the form of an object, with numbers and a truth
value as operands and as an id, and with names in other forms than those that are written. -/
def mixedText : String :=
  "[[\"f1\", \"built_year\", \"equals\", 2010, null, \"or\"], " ++
    "\x7b\"operator\": \"near\", \"id\": 7, \"type\": \x7b\"date\": null\x7d, \"value\": true, " ++
    "\"column\": \"remarks\"\x7d]"

/-- The array of that text. -/
def mixedItems : List Json.Tree :=
  [.array [.string (some "f1"), .string (some "built_year"), .string (some "equals"),
      .number (some (.integer 2010)), .null, .string (some "or")],
    .object [(some "operator", .string (some "near")), (some "id", .number (some (.integer 7))),
      (some "type", .object [(some "date", .null)]), (some "value", .bool true),
      (some "column", .string (some "remarks"))]]

/-- The conditions of that text. -/
def mixed : List Condition :=
  [⟨some (.string "f1"), "built_year", .equals, "2010", none, .or, none⟩,
    ⟨some (.ofInt 7), "remarks", .unknown "near", "true", none, .and, some .date⟩]

set_option maxRecDepth 4000 in
theorem readConditions_survives_mixed :
    readConditions mixedText = .ok mixed ∧
      readConditions (Condition.listToJson mixed).text = .ok mixed := by
  have houtline : Json.outline mixedText = ⟨.array mixedItems, true⟩ := by rfl
  have hread : readConditions mixedText = .ok mixed := by
    rw [readConditions_of_outline houtline]
    rfl
  have hid : ∀ c ∈ mixed, ∀ j, c.id = some j → Json.readNested innerDepth j.text = some j := by
    intro c hc j hj
    refine Json.readNested_text ?_
    simp only [mixed, List.mem_cons, List.not_mem_nil, or_false] at hc
    rcases hc with rfl | rfl
    · obtain rfl := Option.some.inj hj
      trivial
    · obtain rfl := Option.some.inj hj
      exact Json.Numeral.read?_integer (by decide) (by decide)
  obtain ⟨hback, -, hsame, -, -⟩ := readConditions_survives hread hid
  have hnull : ∀ c ∈ mixed, c.id ≠ some .null := by
    simp [mixed, Json.ofInt]
  obtain ⟨heq, -⟩ := hsame hnull
  rw [heq] at hback
  exact ⟨hread, hback⟩

/-- An id that embeds the text of null. -/
def nullIdText : String :=
  "[\x7b\"id\": \x7b\"$serde_json::private::RawValue\": \"null\"\x7d, \"column\": \"coachno\", " ++
    "\"operator\": \"equals\", \"value\": \"C1\"\x7d]"

/-- The members of its condition. -/
def nullIdMembers : List (Option String × Json.Tree) :=
  [(some "id", .object [(some Json.embeddingName, .string (some "null"))]),
    (some "column", .string (some "coachno")), (some "operator", .string (some "equals")),
    (some "value", .string (some "C1"))]

set_option maxRecDepth 4000 in
/-- **An id that is null is written, but it is not read back.** -/
theorem readConditions_forgets_null :
    ∃ cs back, readConditions nullIdText = .ok cs ∧
      (∀ c ∈ cs, ∀ j, c.id = some j → Json.readNested innerDepth j.text = some j) ∧
      readConditions (Condition.listToJson cs).text = .ok back ∧ back ≠ cs ∧
      (Condition.listToJson back).text ≠ (Condition.listToJson cs).text := by
  have houtline : Json.outline nullIdText = ⟨.array [.object nullIdMembers], true⟩ := by rfl
  have hread : readConditions nullIdText =
      .ok [⟨some .null, "coachno", .equals, "C1", none, .and, none⟩] := by
    rw [readConditions_of_outline houtline]
    rfl
  have hsound : ∀ c ∈ [(⟨some .null, "coachno", .equals, "C1", none, .and, none⟩ : Condition)],
      c.IsSound := by
    refine List.forall_mem_singleton.2 ⟨fun j hj => ?_, by decide⟩
    obtain rfl := Option.some.inj hj
    exact Json.readNested_text trivial
  refine ⟨_, _, hread, fun c hc => (hsound c hc).id, readConditions_listToJson hsound, ?_,
    by decide +kernel⟩
  simp [Condition.settled, Json.isNull]

end CoachLedger.Filter
