/-
**Other forms of a condition.**

The members of a condition may come in any order and among members with unknown names, whose values
are not looked at, or they may be written as an array in their fixed order, where something stands
in place of each member that is not given, up to the last one that is.  All of these forms are read
as the same condition.

What no condition has makes the whole text one that is rejected: a member that is given twice, no
column or no operator, null where a name is asked for, an array or an object as an operand.  There
is one exception.  An object that embeds the text of a scalar is read as this scalar.

Main definitions:

* `CoachLedger.Filter.givenBy` — the members that a tree gives;
* `CoachLedger.Filter.OtherForm` — another form of the tree of a condition;
* `CoachLedger.Filter.IsFaulty` — a tree with something that no condition has;
* `CoachLedger.Filter.EmbedsScalar` — an object that is read as a scalar;
* `CoachLedger.Filter.Written`, `CoachLedger.Filter.WrittenMember` — values and members as they are
  written.

Main results:

* `CoachLedger.Filter.isCondition_object_iff` — **order and unknown members do not matter**;
* `CoachLedger.Filter.isCondition_positional` — **an array may stand for an object**;
* `CoachLedger.Filter.exists_readOperand_iff` — when an array or object is read as an operand;
* `CoachLedger.Filter.readConditions_members` — the members of a condition in a text;
* `CoachLedger.Filter.readConditions_forms` — other forms of the conditions of a text, and faults.
-/

import CoachLedger.Proofs.Filter.Writing

set_option autoImplicit false

namespace CoachLedger.Filter

variable {c : Condition} {cs : List Condition} {m : Member} {t u : Json.Tree}
  {given given' : List (Member × Json.Tree)}
  {members members' extra : List (Option String × Json.Tree)}

/-! ### Members that are given -/

/-- The members that a tree gives, whether or not a condition can have them. -/
def givenBy : Json.Tree → List (Member × Json.Tree)
  | .object members => members.filterMap memberOf?
  | .array items => Member.all.zip items
  | _ => []

theorem Member.ofName?_eq_some {name : String} : Member.ofName? name = some m ↔ name = m.name := by
  constructor
  · intro h
    have hfound : (Member.all.find? fun k => k.name == name) = some m := h
    have hname := List.find?_some hfound
    exact (beq_iff_eq.1 hname).symm
  · rintro rfl
    cases m <;> rfl

/-- An object gives its members under their names. -/
theorem mem_givenBy_object : (m, t) ∈ givenBy (.object members) ↔ (some m.name, t) ∈ members := by
  rw [givenBy, List.mem_filterMap]
  constructor
  · rintro ⟨⟨name, t'⟩, hmem, hmember⟩
    cases name with
    | none => cases hmember
    | some name =>
        obtain ⟨k, hk, heq⟩ := Option.map_eq_some_iff.1 hmember
        obtain ⟨rfl, rfl⟩ := Prod.mk.inj heq
        rwa [← Member.ofName?_eq_some.1 hk]
  · intro h
    refine ⟨_, h, ?_⟩
    rw [memberOf?, Member.ofName?_eq_some.2 rfl]
    rfl

theorem IsCondition.isMadeOf (h : IsCondition t c) : IsMadeOf (givenBy t) c := by
  obtain ⟨given, hgives, hmade⟩ := h
  cases hgives <;> exact hmade

/-- The order of the members does not matter. -/
theorem IsMadeOf.perm (h : IsMadeOf given c) (hperm : given.Perm given') : IsMadeOf given' c where
  nodup := (hperm.map Prod.fst).nodup_iff.1 h.nodup
  takes x hx := h.takes x (hperm.mem_iff.2 hx)
  defaults m hm := h.defaults m fun hmem => hm ((hperm.map Prod.fst).mem_iff.1 hmem)

/-! ### Objects -/

/-- The member has a name, but not one of a member of a condition. -/
def IsUnknown (x : Option String × Json.Tree) : Prop :=
  ∃ name, x.1 = some name ∧ Member.ofName? name = none

theorem memberOf?_of_isUnknown {x : Option String × Json.Tree} (h : IsUnknown x) :
    memberOf? x = none := by
  obtain ⟨name, t⟩ := x
  obtain ⟨name, rfl, hname⟩ := h
  rw [memberOf?, hname]
  rfl

/-- **Order and unknown members do not matter.** -/
theorem isCondition_object_iff (hperm : members'.Perm (members ++ extra))
    (hextra : ∀ x ∈ extra, IsUnknown x) :
    IsCondition (.object members') c ↔ IsCondition (.object members) c := by
  have hnone : extra.filterMap memberOf? = [] :=
    List.filterMap_eq_nil_iff.2 fun x hx => memberOf?_of_isUnknown (hextra x hx)
  have hgiven : (givenBy (.object members')).Perm (givenBy (.object members)) := by
    have hfilter := hperm.filterMap memberOf?
    rwa [List.filterMap_append, hnone, List.append_nil] at hfilter
  have hnames : (∀ x ∈ members', x.1.isSome = true) ↔ ∀ x ∈ members, x.1.isSome = true := by
    constructor
    · intro h x hx
      exact h x (hperm.mem_iff.2 (List.mem_append_left _ hx))
    · intro h x hx
      rcases List.mem_append.1 (hperm.mem_iff.1 hx) with hx | hx
      · exact h x hx
      · obtain ⟨name, hname, -⟩ := hextra x hx
        rw [hname]
        rfl
  constructor
  · rintro ⟨given, hgives, hmade⟩
    cases hgives with
    | object hall => exact ⟨_, .object (hnames.1 hall), hmade.perm hgiven⟩
  · rintro ⟨given, hgives, hmade⟩
    cases hgives with
    | object hall => exact ⟨_, .object (hnames.2 hall), hmade.perm hgiven.symm⟩

/-! ### Arrays -/

/-- What may stand in place of a member that is not given. -/
def Member.placeholder : Member → Json.Tree
  | connective => .string (some "AND")
  | _ => .null

theorem takes_placeholder (h : c.Defaults m) : c.Takes m.placeholder m := by
  cases m with
  | column => exact h.elim
  | operator => exact h.elim
  | _ => exact congrArg Except.ok h.symm

/-- All members in their fixed order. -/
def positional (given : List (Member × Json.Tree)) : List Json.Tree :=
  Member.all.map fun m => (given.lookup m).getD m.placeholder

theorem IsMadeOf.takes_positional (h : IsMadeOf given c) (m : Member) :
    c.Takes ((given.lookup m).getD m.placeholder) m := by
  cases hlookup : given.lookup m with
  | some t =>
      obtain ⟨before, after, rfl, -⟩ := List.lookup_eq_some_iff.1 hlookup
      exact h.takes (m, t) (by simp)
  | none =>
      refine takes_placeholder (h.defaults m fun hmem => ?_)
      obtain ⟨x, hx, rfl⟩ := List.mem_map.1 hmem
      simpa using List.lookup_eq_none_iff.1 hlookup x hx

theorem zip_take_map {α β : Type} (f : α → β) (xs : List α) (n : Nat) :
    xs.zip ((xs.map f).take n) = (xs.take n).map fun x => (x, f x) := by
  induction xs generalizing n with
  | nil => simp
  | cons x xs ih => cases n <;> simp [ih]

/-- **An array may stand for an object**, and may end after the last member that is given. -/
theorem isCondition_positional (h : IsMadeOf given c) {n : Nat}
    (hn : ∀ m ∈ Member.all.drop n, m ∉ given.map Prod.fst) :
    IsCondition (.array ((positional given).take n)) c := by
  have hlength : ((positional given).take n).length ≤ Member.all.length := by
    rw [positional, ← List.map_take, List.length_map]
    exact List.length_take_le' _ _
  refine ⟨_, .array hlength, ?_⟩
  rw [positional, zip_take_map]
  have hfst : ((Member.all.take n).map fun m => (m, (given.lookup m).getD m.placeholder)).map
      Prod.fst = Member.all.take n := by
    rw [List.map_map]
    exact List.map_id _
  refine ⟨?_, List.forall_mem_map.2 fun m _ => h.takes_positional m, fun m hm => ?_⟩
  · rw [hfst]
    exact (List.take_sublist n _).nodup (by decide)
  · rw [hfst] at hm
    have hall : m ∈ Member.all := by cases m <;> decide
    rw [← List.take_append_drop n Member.all, List.mem_append] at hall
    exact h.defaults m (hn m (hall.resolve_left hm))

/-! ### Forms -/

/-- **Another form of the tree of a condition.** -/
inductive OtherForm : Json.Tree → Json.Tree → Prop
  | same (t : Json.Tree) : OtherForm t t
  /-- The members in another order, and among others. -/
  | members {members members' extra : List (Option String × Json.Tree)} :
      members'.Perm (members ++ extra) → (∀ x ∈ extra, IsUnknown x) →
      OtherForm (.object members) (.object members')
  /-- An array of the members, with none that is given after its end. -/
  | positional {members : List (Option String × Json.Tree)} {n : Nat} :
      (∀ m ∈ Member.all.drop n, m ∉ (givenBy (.object members)).map Prod.fst) →
      OtherForm (.object members) (.array ((positional (givenBy (.object members))).take n))

/-- **Other forms are read as the same condition.** -/
theorem IsCondition.otherForm (h : IsCondition t c) (hform : OtherForm t u) : IsCondition u c := by
  cases hform with
  | same => exact h
  | members hperm hextra => exact (isCondition_object_iff hperm hextra).2 h
  | positional hn => exact isCondition_positional h.isMadeOf hn

/-! ### Operands -/

/-- An object that embeds the text of a value that is neither an array nor an object. -/
inductive EmbedsScalar : Json.Tree → Prop
  | intro {s : String} {v : Json} : Json.read? s = some v → ¬ v.IsComposite →
      EmbedsScalar (.object [(some Json.embeddingName, .string (some s))])

/-- Operands are read from values without parts. -/
theorem exists_readOperand_eq_ok :
    (∃ s, readOperand t = .ok s) ↔ ∃ v, innerValue t = .ok v ∧ ¬ v.IsComposite := by
  unfold readOperand
  cases innerValue t with
  | error f => exact iff_of_false (by rintro ⟨s, ⟨⟩⟩) (by rintro ⟨v, ⟨⟩, -⟩)
  | ok v =>
      cases v with
      | array items =>
          refine iff_of_false (by rintro ⟨s, ⟨⟩⟩) ?_
          rintro ⟨v, hv, hparts⟩
          obtain rfl := Except.ok.inj hv
          exact hparts trivial
      | object members =>
          refine iff_of_false (by rintro ⟨s, ⟨⟩⟩) ?_
          rintro ⟨v, hv, hparts⟩
          obtain rfl := Except.ok.inj hv
          exact hparts trivial
      | _ => exact iff_of_true ⟨_, rfl⟩ ⟨_, rfl, id⟩

/-- **When an array or object is read as an operand.** -/
theorem exists_readOperand_iff (ht : t.IsComposite) :
    (∃ s, readOperand t = .ok s) ↔ EmbedsScalar t := by
  rw [exists_readOperand_eq_ok]
  constructor
  · rintro ⟨v, hvalue, hv⟩
    obtain ⟨s, rfl, hs⟩ :=
      (Json.Tree.value?_eq_some_iff_of_isComposite ht hv).1 (innerValue_eq_ok.1 hvalue)
    exact ⟨hs, hv⟩
  · rintro ⟨hs, hv⟩
    exact ⟨_, innerValue_eq_ok.2 ((Json.Tree.value?_embedding _ _ _).trans hs), hv⟩

/-- The same for an operand that may be missing. -/
theorem exists_readOptionalOperand_iff (ht : t.IsComposite) :
    (∃ v, readOptionalOperand t = .ok v) ↔ EmbedsScalar t := by
  rw [← exists_readOperand_iff ht, readOptionalOperand]
  split
  · rename_i hnull
    refine iff_of_true ⟨none, rfl⟩ ⟨"", ?_⟩
    rw [readOperand, hnull]
  · constructor
    · rintro ⟨v, hv⟩
      obtain ⟨s, hs, -⟩ := map_eq_ok.1 hv
      exact ⟨s, hs⟩
    · rintro ⟨s, hs⟩
      exact ⟨some s, map_eq_ok.2 ⟨s, hs, rfl⟩⟩

/-! ### Faults -/

/-- **A tree with something that no condition has.** -/
inductive IsFaulty (t : Json.Tree) : Prop
  /-- A member is given twice. -/
  | repeated : ¬ ((givenBy t).map Prod.fst).Nodup → IsFaulty t
  /-- A member without a default is not given. -/
  | lacking {m : Member} : m = .column ∨ m = .operator → m ∉ (givenBy t).map Prod.fst → IsFaulty t
  /-- Null is given for a name. -/
  | null {m : Member} : m = .column ∨ m = .operator ∨ m = .connective → (m, .null) ∈ givenBy t →
      IsFaulty t
  /-- An array or object is given as an operand, and does not embed a scalar. -/
  | composite {m : Member} {u : Json.Tree} : m = .value ∨ m = .valueTo → (m, u) ∈ givenBy t →
      u.IsComposite → ¬ EmbedsScalar u → IsFaulty t

theorem not_takes_null (hm : m = .column ∨ m = .operator ∨ m = .connective) :
    ¬ c.Takes .null m := by
  rcases hm with rfl | rfl | rfl
  · rintro ⟨⟩
  · rintro ⟨name, ⟨⟩, -⟩
  · rintro ⟨⟩

theorem not_takes_composite (hm : m = .value ∨ m = .valueTo) (hu : u.IsComposite)
    (hembeds : ¬ EmbedsScalar u) : ¬ c.Takes u m := by
  intro htakes
  rcases hm with rfl | rfl
  · exact hembeds ((exists_readOperand_iff hu).1 ⟨_, htakes⟩)
  · exact hembeds ((exists_readOptionalOperand_iff hu).1 ⟨_, htakes⟩)

theorem IsFaulty.not_isCondition (h : IsFaulty t) : ¬ IsCondition t c := by
  intro hc
  have hmade := hc.isMadeOf
  cases h with
  | repeated hnodup => exact hnodup hmade.nodup
  | lacking hm hmem =>
      rcases hm with rfl | rfl
      · exact hmade.defaults .column hmem
      · exact hmade.defaults .operator hmem
  | null hm hmem => exact not_takes_null hm (hmade.takes _ hmem)
  | composite hm hmem hu hembeds => exact not_takes_composite hm hu hembeds (hmade.takes _ hmem)

/-- A text with a tree among its items that is no condition is rejected. -/
theorem readConditions_eq_error {text : String} {items : List Json.Tree} {complete : Bool}
    (houtline : Json.outline text = ⟨.array items, complete⟩) (ht : t ∈ items)
    (hfaulty : IsFaulty t) : ∃ fault, readConditions text = .error fault := by
  cases hread : readConditions text with
  | error fault => exact ⟨fault, rfl⟩
  | ok cs =>
      obtain ⟨items', houtline', hall⟩ := readConditions_eq_ok.1 hread
      rw [houtline] at houtline'
      obtain ⟨⟨⟩, -⟩ := Json.Outline.mk.inj houtline'
      have hboth : List.Forall₂ (fun t c => ¬ IsFaulty t ∧ IsCondition t c) items cs :=
        hall.imp fun t c hc => ⟨fun hfaulty => hfaulty.not_isCondition hc, hc⟩
      exact absurd hfaulty (((List.forall₂_and_left items cs).1 hboth).1 t ht)

/-! ### Texts -/

/-- A value as it is written. -/
structure Written where
  chars : List Char
  tree : Json.Tree
  stands : Json.Stands chars tree

/-- A member as it is written. -/
structure WrittenMember where
  name : String
  nameChars : List Char
  scans : Json.Scans nameChars [.string (some name)]
  value : Written

/-- The name and the value of a member. -/
def WrittenMember.entry (x : WrittenMember) : Option String × Json.Tree :=
  (some x.name, x.value.tree)

theorem WrittenMember.stands (members : List WrittenMember) :
    Json.Stands (Json.objectChars (members.map fun x => (x.nameChars, x.value.chars)))
      (.object (members.map entry)) := by
  refine Json.stands_objectChars (fun x _ => x.scans) fun x _ => ?_
  exact x.value.stands

/-- A list of values, one after the other. -/
def Written.array (items : List Written) : Written where
  chars := Json.arrayChars (items.map Written.chars)
  tree := .array (items.map Written.tree)
  stands := Json.stands_arrayChars fun x _ => x.stands

/-- An object with its members one after the other. -/
def Written.object (members : List WrittenMember) : Written where
  chars := Json.objectChars (members.map fun x => (x.nameChars, x.value.chars))
  tree := .object (members.map WrittenMember.entry)
  stands := WrittenMember.stands members

/-- The text of a value. -/
def Written.text (w : Written) : String := String.ofList w.chars

theorem Written.outline_text (w : Written) : Json.outline w.text = ⟨w.tree, true⟩ := by
  rw [Json.outline_eq_iff, text, String.toList_ofList]
  exact w.stands

theorem forall₂_isCondition_of_forms {items items' : List Json.Tree}
    (hforms : List.Forall₂ OtherForm items items') (h : List.Forall₂ IsCondition items cs) :
    List.Forall₂ IsCondition items' cs := by
  induction hforms generalizing cs with
  | nil => exact h
  | cons hform _ ih =>
      cases h with
      | cons hc hcs => exact .cons (hc.otherForm hform) (ih hcs)

theorem forall₂_middle_iff {α β : Type} {R : α → β → Prop} {x y : α} (h : ∀ b, R x b ↔ R y b)
    (before after : List α) (bs : List β) :
    List.Forall₂ R (before ++ x :: after) bs ↔ List.Forall₂ R (before ++ y :: after) bs := by
  induction before generalizing bs with
  | nil => cases bs <;> simp [h]
  | cons a before ih => cases bs <;> simp [ih]

/-- A list of written conditions is read as what each of them stands for. -/
theorem readConditions_array (ws : List Written) :
    readConditions (Written.array ws).text = .ok cs ↔
      List.Forall₂ IsCondition (ws.map Written.tree) cs := by
  rw [readConditions_eq_ok, IsConditionList, (Written.array ws).outline_text]
  constructor
  · rintro ⟨items, ⟨⟩, hall⟩
    exact hall
  · intro hall
    exact ⟨_, rfl, hall⟩

/-- **The members of a condition may be written in any order**, and among any members with unknown
names. -/
theorem readConditions_members (before after : List Written)
    (members members' extra : List WrittenMember) (hperm : members'.Perm (members ++ extra))
    (hextra : ∀ x ∈ extra, Member.ofName? x.name = none) (cs : List Condition) :
    readConditions (Written.array (before ++ .object members' :: after)).text = .ok cs ↔
      readConditions (Written.array (before ++ .object members :: after)).text = .ok cs := by
  have hentries : (members'.map WrittenMember.entry).Perm
      (members.map WrittenMember.entry ++ extra.map WrittenMember.entry) := by
    rw [← List.map_append]
    exact hperm.map _
  have hmiddle (c : Condition) : IsCondition (Written.object members').tree c ↔
      IsCondition (Written.object members).tree c :=
    isCondition_object_iff hentries
      (List.forall_mem_map.2 fun x hx => ⟨x.name, rfl, hextra x hx⟩)
  rw [readConditions_array, readConditions_array, List.map_append, List.map_append,
    List.map_cons, List.map_cons]
  exact forall₂_middle_iff hmiddle _ _ cs

/-- **Other forms of conditions, and faults.**  A text whose conditions are written in other forms
has the same conditions.  In particular the members of a condition may be written in any order and
among any members with unknown names.  A text is rejected if it repeats a member, lacks a column or
an operator, has null for a name, or an array or object as an operand that does not embed a scalar;
those that do are the ones that are read. -/
theorem readConditions_forms {text : String} {items : List Json.Tree} {complete : Bool}
    (houtline : Json.outline text = ⟨.array items, complete⟩) :
    (∀ cs, readConditions text = .ok cs → ∀ text' items',
      Json.outline text' = ⟨.array items', true⟩ → List.Forall₂ OtherForm items items' →
      readConditions text' = .ok cs) ∧
    (∀ (before after : List Written) (members members' extra : List WrittenMember),
      members'.Perm (members ++ extra) → (∀ x ∈ extra, Member.ofName? x.name = none) → ∀ cs,
      readConditions (Written.array (before ++ .object members' :: after)).text = .ok cs ↔
        readConditions (Written.array (before ++ .object members :: after)).text = .ok cs) ∧
    (∀ t ∈ items, IsFaulty t → ∃ fault, readConditions text = .error fault) ∧
    ∀ t ∈ items, ∀ x ∈ givenBy t, x.2.IsComposite →
      ((∃ s, readOperand x.2 = .ok s) ↔ EmbedsScalar x.2) ∧
        ((∃ v, readOptionalOperand x.2 = .ok v) ↔ EmbedsScalar x.2) := by
  refine ⟨?_, readConditions_members, fun t ht => readConditions_eq_error houtline ht,
    fun t _ x _ hx => ⟨exists_readOperand_iff hx, exists_readOptionalOperand_iff hx⟩⟩
  intro cs hread text' items' houtline' hforms
  obtain ⟨items₀, houtline₀, hall⟩ := readConditions_eq_ok.1 hread
  rw [houtline] at houtline₀
  obtain ⟨⟨⟩, -⟩ := Json.Outline.mk.inj houtline₀
  exact readConditions_eq_ok.2 ⟨items', houtline', forall₂_isCondition_of_forms hforms hall⟩

/-- A condition. -/
def lateText : String :=
  "[\x7b\"column\": \"remarks\", \"operator\": \"contains\", \"value\": \"late\"\x7d]"

/-- Its members. -/
def lateMembers : List (Option String × Json.Tree) :=
  [(some "column", .string (some "remarks")), (some "operator", .string (some "contains")),
    (some "value", .string (some "late"))]

/-- The same condition with another member, backwards. -/
def backwardsText : String :=
  "[\x7b\"note\": [\x7b\x7d], \"value\": \"late\", \"operator\": \"contains\", " ++
    "\"column\": \"remarks\"\x7d]"

/-- The same condition as an array. -/
def lateItemsText : String := "[[null, \"remarks\", \"contains\", \"late\"]]"

/-- A condition with two columns. -/
def repeatedText : String :=
  "[\x7b\"column\": \"remarks\", \"operator\": \"contains\", \"column\": \"remarks\"\x7d]"

set_option maxRecDepth 4000 in
theorem readConditions_forms_late :
    readConditions backwardsText =
        .ok [⟨none, "remarks", .contains, "late", none, .and, none⟩] ∧
      readConditions lateItemsText =
        .ok [⟨none, "remarks", .contains, "late", none, .and, none⟩] ∧
      ∃ fault, readConditions repeatedText = .error fault := by
  have hlate : Json.outline lateText = ⟨.array [.object lateMembers], true⟩ := by rfl
  have hread : readConditions lateText =
      .ok [⟨none, "remarks", .contains, "late", none, .and, none⟩] := by
    rw [readConditions_of_outline hlate]
    rfl
  have hbackwards : Json.outline backwardsText =
      ⟨.array [.object (lateMembers ++ [(some "note", Json.Tree.array [.object []])]).reverse],
        true⟩ := by rfl
  have hitems : Json.outline lateItemsText =
      ⟨.array [.array ((positional (givenBy (.object lateMembers))).take 4)], true⟩ := by rfl
  have hrepeated : Json.outline repeatedText =
      ⟨.array [.object (lateMembers.take 2 ++ lateMembers.take 1)], true⟩ := by rfl
  have hnote : ∀ x ∈ [(some "note", Json.Tree.array [.object []])], IsUnknown x :=
    List.forall_mem_singleton.2 ⟨"note", rfl, rfl⟩
  obtain ⟨hforms, -, -, -⟩ := readConditions_forms hlate
  obtain ⟨-, -, hfaults, -⟩ := readConditions_forms hrepeated
  refine ⟨hforms _ hread _ _ hbackwards ?_, hforms _ hread _ _ hitems ?_,
    hfaults _ (List.mem_singleton.2 rfl) (.repeated ?_)⟩
  · exact .cons (.members (List.reverse_perm _) hnote) .nil
  · refine .cons (.positional ?_) .nil
    have hgiven : (givenBy (.object lateMembers)).map Prod.fst = [.column, .operator, .value] := by
      decide +kernel
    rw [hgiven]
    decide
  · have hgiven : (givenBy (.object (lateMembers.take 2 ++ lateMembers.take 1))).map Prod.fst =
        [.column, .operator, .column] := by decide +kernel
    rw [hgiven]
    decide

/-- An operand that is an object, which embeds a text. -/
def embeddingText : String :=
  "[\x7b\"column\": \"coachno\", \"operator\": \"equals\", " ++
    "\"value\": \x7b\"$serde_json::private::RawValue\": \"\\\"C1\\\"\"\x7d\x7d]"

/-- Its members. -/
def embeddingMembers : List (Option String × Json.Tree) :=
  [(some "column", .string (some "coachno")), (some "operator", .string (some "equals")),
    (some "value", .object [(some Json.embeddingName, .string (some "\"C1\""))])]

set_option maxRecDepth 4000 in
/-- **An object may be read as an operand.** -/
theorem readConditions_embedding :
    Json.outline embeddingText = ⟨.array [.object embeddingMembers], true⟩ ∧
      (.value, .object [(some Json.embeddingName, .string (some "\"C1\""))]) ∈
        givenBy (.object embeddingMembers) ∧
      readConditions embeddingText =
        .ok [⟨none, "coachno", .equals, "C1", none, .and, none⟩] := by
  have houtline : Json.outline embeddingText = ⟨.array [.object embeddingMembers], true⟩ := by rfl
  refine ⟨houtline, mem_givenBy_object.2 (by simp [Member.name, embeddingMembers]), ?_⟩
  rw [readConditions_of_outline houtline]
  rfl

end CoachLedger.Filter
