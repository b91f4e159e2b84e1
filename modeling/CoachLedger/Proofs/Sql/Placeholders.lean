/-
**The placeholders of a condition.**

A placeholder is a question mark in the one dialect, and a dollar sign with a number in the other
one.  If the names of the columns have neither of these marks, the placeholders that are found in
the text of a condition, read from left to right, are those of its parameters, each once and in
order: no placeholder runs into what follows it, since this is never a digit.

Main definitions:

* `CoachLedger.Sql.placeholdersIn` — the placeholders in a text from left to right;
* `CoachLedger.Sql.IsPlain` — a text without the marks of placeholders;
* `CoachLedger.Sql.Shows` — a text with the placeholders of some parameters, in their order.

Main results:

* `CoachLedger.Sql.Shows.append`, `CoachLedger.Sql.Shows.within` — texts one after the other, and a
  text between plain ones;
* `CoachLedger.Sql.shows_text` — **a condition has the placeholders of its parameters**;
* `CoachLedger.Predicate.toSql_keepsOperandsOut` — operands never reach the text, and its
  placeholders are those of the parameters.
-/

import CoachLedger.Proofs.Calendar.RoundTrip
import CoachLedger.Proofs.Filter.Search
import CoachLedger.Proofs.Sql.Writing

set_option autoImplicit false

namespace CoachLedger

namespace Sql

open CoachLedger.Date (NoDigitFirst noDigitFirst_nil noDigitFirst_cons takeWhile_isDigit_append)
open CoachLedger.Sql.Condition (joined ofComparison ofPredicate ofPredicates operandText qualified)

variable {d : Dialect} {n k j : Nat} {s t : String}

/-! ### Placeholders in a text -/

/-- The character that a placeholder starts with. -/
def mark : Dialect → Char
  | .sqlite => '?'
  | .postgres => '$'

/-- What belongs to a placeholder after its mark. -/
def afterMark (d : Dialect) (cs : List Char) : List Char :=
  match d with
  | .sqlite => []
  | .postgres => cs.takeWhile Char.isDigit

/-- The placeholders in a text from left to right. -/
def placeholdersIn (d : Dialect) : List Char → List (List Char)
  | [] => []
  | c :: cs =>
      if c = mark d then (c :: afterMark d cs) :: placeholdersIn d cs else placeholdersIn d cs

/-- A text without the marks of placeholders. -/
def IsPlain (s : String) : Prop :=
  ∀ c ∈ s.toList, c ≠ '?' ∧ c ≠ '$'

-- Only the characters of the text are looked at.
instance (s : String) : Decidable (IsPlain s) :=
  List.decidableBAll (fun c => c ≠ '?' ∧ c ≠ '$') s.toList

theorem isPlain_append (hs : IsPlain s) (ht : IsPlain t) : IsPlain (s ++ t) := by
  intro c hc
  rw [String.toList_append] at hc
  rcases List.mem_append.1 hc with hc | hc
  · exact hs c hc
  · exact ht c hc

/-- There is no placeholder where there is no mark. -/
theorem placeholdersIn_append {cs : List Char} (h : ∀ c ∈ cs, c ≠ mark d) (rest : List Char) :
    placeholdersIn d (cs ++ rest) = placeholdersIn d rest := by
  induction cs with
  | nil => rfl
  | cons c cs ih =>
      obtain ⟨hc, hcs⟩ := List.forall_mem_cons.1 h
      rw [List.cons_append, placeholdersIn, if_neg hc, ih hcs]

theorem ne_mark_of_isPlain (h : IsPlain s) : ∀ c ∈ s.toList, c ≠ mark d := by
  intro c hc
  cases d with
  | sqlite => exact (h c hc).1
  | postgres => exact (h c hc).2

/-- The number of a placeholder has digits only. -/
theorem isDigit_of_mem_toString {i : Nat} {c : Char} (h : c ∈ (toString i).toList) :
    c.isDigit = true := by
  have hrepr : (toString i).toList = Nat.toDigits 10 i := Nat.toList_repr
  rw [hrepr] at h
  exact Decimal.isDigit_of_mem_digits h

/-- A placeholder is found as a whole if no digit follows it. -/
theorem placeholdersIn_placeholder (i : Nat) {rest : List Char} (hr : NoDigitFirst rest) :
    placeholdersIn d ((d.placeholder i).toList ++ rest) =
      (d.placeholder i).toList :: placeholdersIn d rest := by
  cases d with
  | sqlite =>
      have hchars : (Dialect.placeholder .sqlite i).toList = ['?'] := by
        rw [Dialect.placeholder]
        rfl
      have hmark : '?' = mark .sqlite := rfl
      rw [hchars, List.cons_append, List.nil_append, placeholdersIn, if_pos hmark]
      rfl
  | postgres =>
      have hmark : '$' = mark .postgres := rfl
      have hdigits : ∀ c ∈ (toString i).toList, c.isDigit = true :=
        fun c hc => isDigit_of_mem_toString hc
      have hplain : ∀ c ∈ (toString i).toList, c ≠ mark .postgres := by
        rintro c hc rfl
        exact absurd (hdigits _ hc) (by decide)
      have hchars : (Dialect.placeholder .postgres i).toList = '$' :: (toString i).toList := by
        rw [Dialect.placeholder, String.toList_append]
        rfl
      rw [hchars, List.cons_append, placeholdersIn, if_pos hmark, afterMark,
        takeWhile_isDigit_append hdigits hr, placeholdersIn_append hplain]

/-! ### Texts with placeholders -/

/-- The placeholders of some parameters, whose numbers follow the given one. -/
def placeholdersFrom (d : Dialect) (n k : Nat) : List (List Char) :=
  (List.range' (n + 1) k).map fun i => (d.placeholder i).toList

/-- The text has the placeholders of `k` parameters after `n` others, in their order, whatever
follows that does not start with a digit. -/
def Shows (d : Dialect) (n k : Nat) (s : String) : Prop :=
  ∀ rest, NoDigitFirst rest →
    placeholdersIn d (s.toList ++ rest) = placeholdersFrom d n k ++ placeholdersIn d rest

theorem shows_plain (h : IsPlain s) : Shows d n 0 s := by
  intro rest _
  exact placeholdersIn_append (ne_mark_of_isPlain h) rest

theorem shows_placeholder (d : Dialect) (n : Nat) : Shows d n 1 (d.placeholder (n + 1)) := by
  intro rest hr
  exact placeholdersIn_placeholder (n + 1) hr

/-- What goes before does not matter if it has no marks. -/
theorem Shows.after_plain (ht : Shows d n k t) (hs : IsPlain s) : Shows d n k (s ++ t) := by
  intro rest hr
  rw [String.toList_append, List.append_assoc, placeholdersIn_append (ne_mark_of_isPlain hs)]
  exact ht rest hr

theorem noDigitFirst_append {cs ds : List Char} (hc : NoDigitFirst cs) (hd : NoDigitFirst ds) :
    NoDigitFirst (cs ++ ds) := by
  cases cs with
  | nil => exact hd
  | cons c cs => exact noDigitFirst_cons (hc c cs rfl)

/-- **Texts one after the other**, the second of which does not start with a digit. -/
theorem Shows.append (hs : Shows d n k s) (ht : Shows d (n + k) j t)
    (hfirst : NoDigitFirst t.toList) : Shows d n (k + j) (s ++ t) := by
  intro rest hr
  have hfrom : placeholdersFrom d n (k + j) =
      placeholdersFrom d n k ++ placeholdersFrom d (n + k) j := by
    unfold placeholdersFrom
    rw [← List.map_append, Nat.add_right_comm, List.range'_append_1]
  rw [String.toList_append, List.append_assoc, hs _ (noDigitFirst_append hfirst hr), ht rest hr,
    hfrom, List.append_assoc]

/-- Plain texts before and after do not matter, if what comes after does not start with a digit. -/
theorem Shows.within (hs : Shows d n k s) {before after : String} (hb : IsPlain before)
    (ha : IsPlain after) (hfirst : NoDigitFirst after.toList) :
    Shows d n k (before ++ s ++ after) :=
  (hs.after_plain hb).append (shows_plain ha) hfirst

/-! ### Comparisons -/

theorem shows_operandText (d : Dialect) (n : Nat) (v : Value) :
    Shows d n 1 (operandText d n v) := by
  have hp := shows_placeholder d n
  unfold operandText
  dsimp only
  split
  · cases d with
    | sqlite => exact hp
    | postgres => exact hp.within (by decide) (by decide) (noDigitFirst_cons rfl)
  · exact hp

theorem shows_like {column : String} (hc : IsPlain column) (d : Dialect) (n : Nat) :
    Shows d n 1 (d.like column (d.placeholder (n + 1))) := by
  have hp := shows_placeholder d n
  cases d with
  | sqlite =>
      have hbefore : IsPlain ("LOWER(" ++ column ++ ") LIKE LOWER(") :=
        isPlain_append (isPlain_append (by decide) hc) (by decide)
      exact hp.within hbefore (by decide) (noDigitFirst_cons rfl)
  | postgres =>
      have hbefore : IsPlain (column ++ "::TEXT ILIKE ") := isPlain_append hc (by decide)
      exact hp.within hbefore (by decide) (noDigitFirst_cons rfl)

theorem shows_equalsFolded {column : String} (hc : IsPlain column) (d : Dialect) (n : Nat) :
    Shows d n 1 (d.equalsFolded column (d.placeholder (n + 1))) := by
  have hp := shows_placeholder d n
  cases d with
  | sqlite =>
      have hbefore : IsPlain ("LOWER(" ++ column ++ ") = LOWER(") :=
        isPlain_append (isPlain_append (by decide) hc) (by decide)
      exact hp.within hbefore (by decide) (noDigitFirst_cons rfl)
  | postgres =>
      have hbefore : IsPlain ("LOWER(" ++ column ++ "::TEXT) = LOWER(") :=
        isPlain_append (isPlain_append (by decide) hc) (by decide)
      exact hp.within hbefore (by decide) (noDigitFirst_cons rfl)

variable {column : String → String} {name : String}

theorem shows_compare (hc : IsPlain (column name)) (r : Relation) (v : Value) :
    Shows d n 1 ((Condition.compare name r v).text d column n) := by
  have hsymbol : IsPlain r.symbol := by cases r <;> decide
  have hbefore : IsPlain (column name ++ " " ++ r.symbol ++ " ") :=
    isPlain_append (isPlain_append (isPlain_append hc (by decide)) hsymbol) (by decide)
  rw [Condition.text]
  exact (shows_operandText d n v).after_plain hbefore

theorem shows_between (hc : IsPlain (column name)) (low high : Value) :
    Shows d n 2 ((Condition.between name low high).text d column n) := by
  have hbefore : IsPlain (column name ++ " BETWEEN ") := isPlain_append hc (by decide)
  have hlow := (shows_operandText d n low).after_plain hbefore
  have hhigh : Shows d (n + 1) 1 (" AND " ++ operandText d (n + 1) high) :=
    (shows_operandText d (n + 1) high).after_plain (by decide)
  have hfirst : NoDigitFirst (" AND " ++ operandText d (n + 1) high).toList := by
    rw [String.toList_append]
    exact noDigitFirst_cons rfl
  rw [Condition.text, String.append_assoc]
  exact hlow.append hhigh hfirst

/-- The text of a comparison has a placeholder for each of its parameters. -/
theorem shows_comparison (hc : IsPlain (column name)) (c : Comparison) :
    Shows d n c.bound.length ((ofComparison name c).text d column n) := by
  cases c with
  | isNull => exact shows_plain (isPlain_append hc (by decide))
  | equals v fold =>
      cases fold with
      | false => exact shows_compare hc .equal v
      | true => exact shows_equalsFolded hc d n
  | contains s | startsWith s | endsWith s => exact shows_like hc d n
  | greater v => exact shows_compare hc .greater v
  | greaterOrEqual v => exact shows_compare hc .greaterOrEqual v
  | less v => exact shows_compare hc .less v
  | lessOrEqual v => exact shows_compare hc .lessOrEqual v
  | between low high => exact shows_between hc low high

/-! ### Groups -/

/-- The texts of predicates with something plain between them. -/
theorem shows_intercalate {joiner : String} (hj : IsPlain joiner)
    (hfirst : ∀ t, NoDigitFirst (joiner ++ t : String).toList) {ps : List Predicate}
    (h : ∀ p ∈ ps, ∀ n,
      Shows d n (ofPredicate p).operands.length ((ofPredicate p).text d column n)) (n : Nat) :
    Shows d n (Condition.operandsOf (ofPredicates ps)).length
      (String.intercalate joiner (Condition.texts d column n (ofPredicates ps))) := by
  induction ps generalizing n with
  | nil => exact shows_plain (s := "") (by decide)
  | cons p ps ih =>
      obtain ⟨hp, hps⟩ := List.forall_mem_cons.1 h
      have hrest := ih hps (n + (ofPredicate p).operands.length)
      rw [ofPredicates, Condition.operandsOf, Condition.texts, List.length_append]
      cases ps with
      | nil => exact hp n
      | cons q ps =>
          rw [ofPredicates, Condition.texts] at hrest ⊢
          rw [String.intercalate_cons_cons, String.append_assoc]
          exact (hp n).append (hrest.after_plain hj) (hfirst _)

theorem mem_mentioned_of_mem {ps : List Predicate} {p : Predicate} (hp : p ∈ ps) {name : String}
    (h : name ∈ p.mentioned) : name ∈ Predicate.mentionedIn ps := by
  rw [Filter.mentionedIn_eq]
  exact List.mem_flatMap.2 ⟨p, hp, h⟩

/-- A text that starts with a blank does not start with a digit. -/
theorem noDigitFirst_space (s t : String) (hs : s.toList.head? = some ' ') :
    NoDigitFirst (s ++ t).toList := by
  rw [String.toList_append]
  cases hc : s.toList with
  | nil =>
      rw [hc] at hs
      cases hs
  | cons c cs =>
      rw [hc] at hs
      obtain rfl := Option.some.inj hs
      exact noDigitFirst_cons rfl

/-- The text of a group, if its members have the property that is shown of each predicate below. -/
theorem shows_joined {joiner absent : String} (hj : IsPlain joiner) (ha : IsPlain absent)
    (hfirst : joiner.toList.head? = some ' ') {ps : List Predicate}
    (hc : ∀ name ∈ Predicate.mentionedIn ps, IsPlain (column name))
    (h : ∀ p ∈ ps, (∀ name ∈ p.mentioned, IsPlain (column name)) → ∀ n,
      Shows d n (ofPredicate p).operands.length ((ofPredicate p).text d column n)) (n : Nat) :
    Shows d n (Condition.operandsOf (ofPredicates ps)).length
      (joined joiner absent (Condition.texts d column n (ofPredicates ps))) := by
  have heach : ∀ p ∈ ps, ∀ n,
      Shows d n (ofPredicate p).operands.length ((ofPredicate p).text d column n) :=
    fun p hp => h p hp fun name hname => hc name (mem_mentioned_of_mem hp hname)
  have hmembers := shows_intercalate hj (fun t => noDigitFirst_space joiner t hfirst) heach n
  unfold joined
  cases ps with
  | nil => exact shows_plain ha
  | cons p ps => exact hmembers.within (by decide) (by decide) (noDigitFirst_cons rfl)

/-! ### Conditions -/

/-- **A condition has the placeholders of its parameters**, if the names of its columns have no
marks. -/
theorem shows_text (column : String → String) (p : Predicate)
    (hc : ∀ name ∈ p.mentioned, IsPlain (column name)) (n : Nat) :
    Shows d n (ofPredicate p).operands.length ((ofPredicate p).text d column n) := by
  induction p using Predicate.induct_members generalizing n with
  | everything => exact shows_plain (s := "1=1") (by decide)
  | idle reason => exact shows_plain (s := "1=1") (by decide)
  | clause name c =>
      rw [ofPredicate, operands_ofComparison]
      exact shows_comparison (hc name (List.mem_singleton_self name)) c
  | not inner ih => exact (ih hc n).within (by decide) (by decide) (noDigitFirst_cons rfl)
  | and members ih => exact shows_joined (by decide) (by decide) rfl hc ih n
  | or members ih => exact shows_joined (by decide) (by decide) rfl hc ih n

/-- The placeholders in a text that shows those of some parameters. -/
theorem Shows.placeholdersIn (h : Shows d n k s) :
    Sql.placeholdersIn d s.toList = placeholdersFrom d n k := by
  have hs := h [] noDigitFirst_nil
  rw [List.append_nil, Sql.placeholdersIn, List.append_nil] at hs
  exact hs

/-- In the dialect without numbers there are as many placeholders as marks. -/
theorem count_mark_sqlite (cs : List Char) :
    cs.count '?' = (Sql.placeholdersIn .sqlite cs).length := by
  induction cs with
  | nil => rfl
  | cons c cs ih =>
      rw [Sql.placeholdersIn, mark]
      by_cases hc : c = '?'
      · rw [if_pos hc, hc, List.count_cons_self, ih, List.length_cons]
      · rw [if_neg hc, List.count_cons_of_ne hc, ih]

end Sql

namespace Predicate

open CoachLedger.Sql (Dialect IsPlain placeholdersIn placeholdersFrom shows_text count_mark_sqlite)

/-- The name of a column has no marks if the alias and what the column is renamed to have none. -/
theorem isPlain_columnName {mapper : String → String} {alias_ column : String}
    (ha : IsPlain alias_) (hm : IsPlain (mapper column)) :
    IsPlain (columnName mapper alias_ column) := by
  unfold columnName Sql.Condition.qualified
  split
  · exact hm
  · exact Sql.isPlain_append (Sql.isPlain_append ha (by decide)) hm

/-- **Operands never reach the text, and its placeholders are those of the parameters.**  Writing a
predicate in one pass, with parameters that are put at the end of those given, gives a text that
depends only on the form of the predicate and on how many parameters were given.  In both dialects
the parameters are followed by the operands from left to right.  Without marks in the names of the
columns the text has a placeholder for each of them: the same question mark in one dialect, and
numbers that go on from the parameters that were given in the other one. -/
theorem toSql_keepsOperandsOut (p : Predicate) (mapper : String → String) (alias_ : String)
    (before : List Value) :
    (∀ d : Dialect,
      write d (columnName mapper alias_) before p = p.toSql d mapper alias_ before) ∧
    (∀ (d : Dialect) (q : Predicate) (others : List Value), q.form = p.form →
      others.length = before.length →
      (q.toSql d mapper alias_ others).1 = (p.toSql d mapper alias_ before).1) ∧
    (∀ d : Dialect, (p.toSql d mapper alias_ before).2 = before ++ p.bound) ∧
    (IsPlain alias_ → (∀ column ∈ p.mentioned, IsPlain (mapper column)) →
      (p.toSql .sqlite mapper alias_ before).1.toList.count '?' = p.bound.length ∧
      placeholdersIn .postgres (p.toSql .postgres mapper alias_ before).1.toList =
        (List.range' (before.length + 1) p.bound.length).map fun i => ("$" ++ toString i).toList) := by
  refine ⟨fun d => write_eq d _ p before, ?_, ?_, ?_⟩
  · intro d q others hform hlength
    obtain ⟨hq, -⟩ := text_form d (columnName mapper alias_) q others.length
    obtain ⟨hp, -⟩ := text_form d (columnName mapper alias_) p before.length
    change (Sql.Condition.ofPredicate q).text d _ others.length =
      (Sql.Condition.ofPredicate p).text d _ before.length
    rw [← hq, ← hp, hform, hlength]
  · intro d
    rw [toSql, Sql.Condition.render_parameters, operands_eq_bound]
  · intro ha hm
    have hshows (d : Dialect) : placeholdersIn d (p.toSql d mapper alias_ before).1.toList =
        placeholdersFrom d before.length p.bound.length := by
      rw [← operands_eq_bound]
      exact (shows_text (columnName mapper alias_) p
        (fun column h => isPlain_columnName ha (hm column h)) before.length).placeholdersIn
    constructor
    · rw [count_mark_sqlite, hshows, placeholdersFrom, List.length_map, List.length_range']
    · exact hshows .postgres

/-- A day in March. -/
def march : Date := ⟨2025, 3, 14, by decide⟩

/-- A text that looks like SQL is searched for, together with the dates up to a given one. -/
def intrusion (needle : String) (last : Date) : Predicate :=
  .and [.clause "remarks" (.contains needle),
    .not (.clause "poh_date" (.between (.date default) (.date last)))]

/-- What is searched for does not reach the text, and each operand has its own placeholder. -/
theorem toSql_keepsOperandsOut_intrusion :
    (IsPlain "cm" ∧ ∀ column ∈ (intrusion "?' OR $1 --" default).mentioned, IsPlain column) ∧
    ((intrusion "late" march).toSql .postgres id "cm" [.text "x"]).1 =
      ((intrusion "?' OR $1 --" default).toSql .postgres id "cm" [.null]).1 ∧
    ((intrusion "?' OR $1 --" default).toSql .sqlite id "cm" [.null]).1.toList.count '?' = 3 ∧
    placeholdersIn .postgres
        ((intrusion "?' OR $1 --" default).toSql .postgres id "cm" [.null]).1.toList =
      [['$', '2'], ['$', '3'], ['$', '4']] := by
  have hplain : ∀ column ∈ (intrusion "?' OR $1 --" default).mentioned, IsPlain (id column) := by
    decide
  obtain ⟨-, hform, -, hmarks⟩ :=
    toSql_keepsOperandsOut (intrusion "?' OR $1 --" default) id "cm" [.null]
  obtain ⟨hquestion, hnumbers⟩ := hmarks (by decide) hplain
  exact ⟨⟨by decide, hplain⟩, hform .postgres (intrusion "late" march) [.text "x"] rfl rfl,
    hquestion, hnumbers⟩

end Predicate

end CoachLedger
