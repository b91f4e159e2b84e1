/-
**A member is reported for its own values.**

Whether the change between two objects reports a member should depend on nothing but its own two
values, so that it can be found out from the objects restricted to that member.  It does not in one
case.  Objects that are equal are not looked at any further, and the two zeros are equal numbers; but
the members are compared by their texts, and the texts of the two zeros differ.  So a member
that differs in nothing but signs of zeros is reported along with other changes, and not alone.

Main definitions:

* `CoachLedger.Audit.ReportsMember` — the change between two objects reports a member;
* `CoachLedger.Audit.only` — the members restricted to one name;
* `CoachLedger.Audit.HiddenBySign` — two values are equal, though their texts differ.

Main results:

* `CoachLedger.Audit.reportsMember_iff` — which members are reported;
* `CoachLedger.Audit.reportsMember_iff_alone_or` — a member of two objects and the same member alone;
* `CoachLedger.Audit.reportsMember_isLocal` — **members are reported for their own values**, unless
  these differ only in signs of zeros;
* `CoachLedger.Audit.not_reportsMember_zero` — a member that is reported, but not alone.
-/

import CoachLedger.Proofs.Audit.Visible

set_option autoImplicit false

namespace CoachLedger.Audit

/-- The change between two objects reports a member. -/
def ReportsMember (o : Options) (olds news : List (String × Json)) (name : String) : Prop :=
  ∃ ms ns, change? o (.object olds) (.object news) = some ⟨.object ms, .object ns⟩ ∧
    name ∈ ms.map Prod.fst

/-- The members restricted to one name. -/
def only (name : String) (members : List (String × Json)) : List (String × Json) :=
  members.filter fun m => m.1 == name

/-- The values are equal, but their texts differ. -/
def HiddenBySign (old new : Json) : Prop :=
  old.same new = true ∧ old.canonical ≠ new.canonical

variable {o : Options} {olds news members : List (String × Json)} {name : String}

/-! ### Restricted objects -/

theorem member?_only (name : String) (members : List (String × Json)) :
    Json.member? (only name members) name = Json.member? members name := by
  induction members with
  | nil => rfl
  | cons m members ih =>
      obtain ⟨k, v⟩ := m
      rw [only, List.filter_cons, Json.member?, Json.member?, List.lookup_cons]
      by_cases hk : name = k
      · rw [hk, beq_self_eq_true, if_pos rfl, List.lookup_cons, beq_self_eq_true]
      · rw [beq_eq_false_iff_ne.2 hk, beq_eq_false_iff_ne.2 (Ne.symm hk), if_neg Bool.false_ne_true]
        exact ih

theorem member?_only_of_ne {other : String} (h : other ≠ name) (members : List (String × Json)) :
    Json.member? (only name members) other = none := by
  rw [Json.member?_eq_none, List.mem_map]
  rintro ⟨m, hm, rfl⟩
  exact h (beq_iff_eq.1 (List.mem_filter.1 hm).2)

theorem valueOf_only (name : String) (members : List (String × Json)) :
    valueOf (only name members) name = valueOf members name := by
  rw [valueOf, member?_only, valueOf]

theorem names_only (h : (members.map Prod.fst).Nodup) :
    ((only name members).map Prod.fst).Nodup :=
  (List.filter_sublist.map Prod.fst).nodup h

/-- Restricted objects are equal if they have no member left or equal values. -/
theorem same_only_iff (holds : (olds.map Prod.fst).Nodup) (hnews : (news.map Prod.fst).Nodup) :
    (Json.object (only name olds)).same (.object (only name news)) = true ↔
      (Json.member? olds name = none → Json.member? news name = none) ∧
      ∀ v, Json.member? olds name = some v →
        ∃ w, Json.member? news name = some w ∧ v.same w = true := by
  rw [Json.same_object_iff (names_only holds) (names_only hnews)]
  constructor
  · intro h
    have hname := h name
    rwa [member?_only, member?_only] at hname
  · intro h other
    by_cases hother : other = name
    · rwa [hother, member?_only, member?_only]
    · rw [member?_only_of_ne hother, member?_only_of_ne hother]
      exact ⟨fun _ => rfl, fun v hv => by cases hv⟩

/-- Equal objects are equal when restricted. -/
theorem same_only_of_same (holds : (olds.map Prod.fst).Nodup) (hnews : (news.map Prod.fst).Nodup)
    (h : (Json.object olds).same (.object news) = true) (name : String) :
    (Json.object (only name olds)).same (.object (only name news)) = true :=
  (same_only_iff holds hnews).2 ((Json.same_object_iff holds hnews).1 h name)

/-- Where the texts of the two values differ, the values are equal if the restricted objects are. -/
theorem same_only_iff_of_ne (holds : (olds.map Prod.fst).Nodup) (hnews : (news.map Prod.fst).Nodup)
    (hne : (valueOf olds name).canonical ≠ (valueOf news name).canonical) :
    (Json.object (only name olds)).same (.object (only name news)) = true ↔
      (valueOf olds name).same (valueOf news name) = true := by
  rw [same_only_iff holds hnews]
  rw [valueOf, valueOf] at hne ⊢
  cases hv : Json.member? olds name with
  | none =>
      cases hw : Json.member? news name with
      | none => simp [hv, hw] at hne
      | some w =>
          -- A value that equals the missing one is null, and has its text.
          rw [hv, hw] at hne
          refine iff_of_false (fun h => by cases h.1 rfl) fun hsame => hne ?_
          cases w with
          | null => rfl
          | _ => cases hsame
  | some v =>
      cases hw : Json.member? news name with
      | none =>
          rw [hv, hw] at hne
          refine iff_of_false (fun h => ?_) fun hsame => hne ?_
          · obtain ⟨w, hw, -⟩ := h.2 v rfl
            cases hw
          · cases v with
            | null => rfl
            | _ => cases hsame
      | some w => simp

/-! ### Reported members -/

/-- **A member is reported if the texts of its values differ**, unless the objects are equal. -/
theorem reportsMember_iff :
    ReportsMember o olds news name ↔ (Json.object olds).same (.object news) = false ∧
      (valueOf olds name).canonical ≠ (valueOf news name).canonical := by
  rw [← mem_changedNames, ← Bool.not_eq_true]
  constructor
  · rintro ⟨ms, ns, hc, hname⟩
    have hsame := same_of_change? hc
    rw [change?, hsame] at hc
    obtain ⟨-, hmembers⟩ := changeOfMembers?_eq hc
    rw [Json.object.inj (congrArg Change.old hmembers), names_map_valueOf] at hname
    exact ⟨Bool.not_eq_true _ ▸ hsame, hname⟩
  · rintro ⟨hsame, hname⟩
    refine ⟨(changedNames olds news).map fun n => (n, valueOf olds n),
      (changedNames olds news).map fun n => (n, valueOf news n), ?_, ?_⟩
    · rw [change?, if_neg hsame]
      unfold changeOfMembers?
      split
      · rename_i hnil
        rw [hnil] at hname
        cases hname
      · rfl
    · rwa [names_map_valueOf]

/-- Of the restricted objects the member is reported if its values differ, and their texts. -/
theorem reportsMember_only_iff (holds : (olds.map Prod.fst).Nodup)
    (hnews : (news.map Prod.fst).Nodup) :
    ReportsMember o (only name olds) (only name news) name ↔
      (valueOf olds name).same (valueOf news name) = false ∧
      (valueOf olds name).canonical ≠ (valueOf news name).canonical := by
  rw [reportsMember_iff, valueOf_only, valueOf_only]
  refine and_congr_left fun hne => ?_
  rw [← Bool.not_eq_true, ← Bool.not_eq_true, same_only_iff_of_ne holds hnews hne]

/-- **A member is reported if it is when it is alone**, and else only if its values are equal, though
their texts differ. -/
theorem reportsMember_iff_alone_or (holds : (olds.map Prod.fst).Nodup)
    (hnews : (news.map Prod.fst).Nodup) :
    ReportsMember o olds news name ↔
      ReportsMember o (only name olds) (only name news) name ∨
        (Json.object olds).same (.object news) = false ∧
          HiddenBySign (valueOf olds name) (valueOf news name) := by
  constructor
  · intro h
    obtain ⟨hsame, hne⟩ := reportsMember_iff.1 h
    cases hvalues : (valueOf olds name).same (valueOf news name) with
    | false => exact .inl ((reportsMember_only_iff holds hnews).2 ⟨hvalues, hne⟩)
    | true => exact .inr ⟨hsame, hvalues, hne⟩
  · rintro (h | ⟨hsame, -, hne⟩)
    · obtain ⟨halone, hne⟩ := reportsMember_iff.1 h
      rw [valueOf_only, valueOf_only] at hne
      refine reportsMember_iff.2 ⟨Bool.not_eq_true _ ▸ fun hsame => ?_, hne⟩
      rw [same_only_of_same holds hnews hsame name] at halone
      cases halone
    · exact reportsMember_iff.2 ⟨hsame, hne⟩

section

variable {negative : Bool}

/-- If all zeros have the same sign, equal values have the same text. -/
theorem not_hiddenBySign {old new : Json} (hold : old.HasZeroSign negative)
    (hnew : new.HasZeroSign negative) : ¬HiddenBySign old new :=
  fun h => h.2 (Json.canonical_eq_of_same hold hnew h.1)

/-- If all zeros have the same sign, the values of equal objects have the same texts. -/
theorem canonical_valueOf_of_same (hold : (Json.object olds).HasZeroSign negative)
    (hnew : (Json.object news).HasZeroSign negative)
    (h : (Json.object olds).same (.object news) = true) (name : String) :
    (valueOf olds name).canonical = (valueOf news name).canonical := by
  have holds := (Json.wellFormed_object_iff.1 hold).1
  have hnews := (Json.wellFormed_object_iff.1 hnew).1
  by_contra hne
  have halone := same_only_of_same holds hnews h name
  exact not_hiddenBySign (wellFormed_valueOf hold name) (wellFormed_valueOf hnew name)
    ⟨(same_only_iff_of_ne holds hnews hne).1 halone, hne⟩

end

/-- **Members are reported for their own values.**  A member is reported if it is when it is alone,
and else only if its values differ in signs of zeros.  If all zeros have the same sign, it is
reported exactly if the texts of its values differ, so that it is if it is when it is alone; and
objects that count as equal have no member to report. -/
theorem reportsMember_isLocal (hold : (Json.object olds).IsProper)
    (hnew : (Json.object news).IsProper) (o : Options) (name : String) :
    (ReportsMember o olds news name ↔
      ReportsMember o (only name olds) (only name news) name ∨
        (Json.object olds).same (.object news) = false ∧
          HiddenBySign (valueOf olds name) (valueOf news name)) ∧
    ∀ negative, (Json.object olds).HasZeroSign negative →
      (Json.object news).HasZeroSign negative →
      (ReportsMember o olds news name ↔
        ReportsMember o (only name olds) (only name news) name) ∧
      (ReportsMember o olds news name ↔
        (valueOf olds name).canonical ≠ (valueOf news name).canonical) ∧
      ((Json.object olds).same (.object news) = true → changeOfMembers? olds news = none) := by
  have hexact : ReportsMember o olds news name ↔ _ :=
    reportsMember_iff_alone_or (Json.wellFormed_object_iff.1 hold).1
      (Json.wellFormed_object_iff.1 hnew).1
  refine ⟨hexact, fun negative hzero hzero' => ?_⟩
  have htexts := canonical_valueOf_of_same hzero hzero'
  have hvisible := not_hiddenBySign (wellFormed_valueOf hzero name) (wellFormed_valueOf hzero' name)
  refine ⟨?_, ?_, fun hsame => changeOfMembers?_eq_none_iff.2 fun k _ => htexts hsame k⟩
  · rw [hexact, or_iff_left fun h => hvisible h.2]
  · rw [reportsMember_iff, and_iff_right_iff_imp]
    exact fun hne => Bool.not_eq_true _ ▸ fun hsame => hne (htexts hsame name)

/-- An object with a zero of the given sign, and another number. -/
def zeroAndId (negative : Bool) (id : Int) : List (String × Json) :=
  [("built_year", .zero negative), ("id", .number (.integer id))]

theorem hasZeroSign_zeroAndId (negative : Bool) (id : Int) :
    (Json.object (zeroAndId negative id)).HasZeroSign negative := by
  refine .object (by simp [zeroAndId]) fun m hm => ?_
  rcases List.mem_pair.1 hm with rfl | rfl
  · exact Json.hasZeroSign_zero negative
  · exact .number ⟨trivial, trivial⟩

/-- A number that changes is reported along with a zero that does not, and alone. -/
theorem reportsMember_isLocal_id :
    let olds := zeroAndId true 1
    let news := zeroAndId true 2
    ((Json.object olds).IsProper ∧ (Json.object news).IsProper) ∧
      ReportsMember .standard olds news "id" ∧
      ReportsMember .standard (only "id" olds) (only "id" news) "id" := by
  intro olds news
  have hold := hasZeroSign_zeroAndId true 1
  have hnew := hasZeroSign_zeroAndId true 2
  obtain ⟨-, hzero⟩ := reportsMember_isLocal hold.isProper hnew.isProper .standard "id"
  obtain ⟨halone, htexts, -⟩ := hzero true hold hnew
  have hreported := htexts.2 (by decide)
  exact ⟨⟨hold.isProper, hnew.isProper⟩, hreported, halone.1 hreported⟩

/-- **A zero that changes its sign is reported along with another change, and not alone.** -/
theorem not_reportsMember_zero :
    ¬∀ (o : Options) (olds news : List (String × Json)) (name : String),
      (Json.object olds).IsProper → (Json.object news).IsProper →
      (ReportsMember o olds news name ↔
        ReportsMember o (only name olds) (only name news) name) := by
  intro h
  have hiff := h .standard (zeroAndId false 1) (zeroAndId true 2) "built_year"
    (hasZeroSign_zeroAndId false 1).isProper (hasZeroSign_zeroAndId true 2).isProper
  rw [reportsMember_iff, reportsMember_iff] at hiff
  have hhidden : (Json.object (only "built_year" (zeroAndId false 1))).same
      (.object (only "built_year" (zeroAndId true 2))) = true := rfl
  rw [hhidden] at hiff
  exact absurd (hiff.1 ⟨rfl, by decide⟩).1 Bool.noConfusion

end CoachLedger.Audit
