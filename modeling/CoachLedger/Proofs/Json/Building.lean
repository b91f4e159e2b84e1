/-
**Building a tree within a tree.**

Tokens that make up a tree on their own make up the same tree wherever a value may stand, inside of
whatever arrays and objects are open there.  A text that is complete on its own therefore stands for
its tree as an item of an array and as a member of an object, and the text of an array or object can
be put together from the texts of its parts.

Main definitions:

* `CoachLedger.Json.Builds` — the tokens make up a tree wherever a value may stand;
* `CoachLedger.Json.Stands` — the text stands for a tree wherever it is written;
* `CoachLedger.Json.arrayChars`, `CoachLedger.Json.objectChars` — arrays and objects of texts.

Main results:

* `CoachLedger.Json.builds_of_ofTokens` — **what is a tree on its own is one everywhere**;
* `CoachLedger.Json.outline_eq_iff` — a complete text stands for its tree everywhere;
* `CoachLedger.Json.stands_arrayChars`, `CoachLedger.Json.stands_objectChars` — **arrays and objects
  are put together from their parts**;
* `CoachLedger.Json.chars_array`, `CoachLedger.Json.chars_object` — so are the texts that are
  written.
-/

import CoachLedger.Json.Writer
import CoachLedger.Proofs.Json.Scanning
import Mathlib.Tactic.Choose

set_option autoImplicit false

namespace CoachLedger.Json

namespace Builder

variable {a b : Builder} {t : Tree} {frame : Frame} {frames : List Frame} {p : Phase}

/-- A value may come next. -/
def IsReady (b : Builder) : Prop :=
  (b.phase = .value ∨ b.phase = .firstItem) ∧ b.surplus = false

/-! ### Texts that are not complete -/

/-- Whatever follows, the text is not complete. -/
def IsHopeless (b : Builder) : Prop :=
  b.phase = .stuck ∨ b.surplus = true

theorem surplus_complete (b : Builder) (t : Tree) : (b.complete t).surplus = b.surplus := by
  unfold complete
  split <;> rfl

theorem surplus_startValue (b : Builder) (t : Token) : (b.startValue t).surplus = b.surplus := by
  cases t <;> first | rfl | exact surplus_complete _ _

theorem surplus_close (b : Builder) (t : Token) : (b.close t).surplus = b.surplus := by
  unfold close
  split <;> first | rfl | exact surplus_complete _ _

theorem surplus_step (b : Builder) (t : Token) (h : b.surplus = true) :
    (b.step t).surplus = true := by
  unfold step
  split
  · rw [surplus_startValue, h]
  · split_ifs
    · rw [surplus_close, h]
    · rw [surplus_startValue, h]
  · split_ifs
    · rw [surplus_close, h]
    · unfold startName
      split <;> exact h
  · unfold startName
    split <;> exact h
  · exact h
  · split_ifs
    · unfold separate
      split <;> exact h
    · rw [surplus_close, h]
  · rfl
  · exact h

theorem isHopeless_step (h : b.IsHopeless) (t : Token) : (b.step t).IsHopeless := by
  rcases h with hstuck | hsurplus
  · refine .inl ?_
    unfold step
    rw [hstuck]
    exact hstuck
  · exact .inr (surplus_step b t hsurplus)

theorem complete_of_isHopeless (h : b.IsHopeless) : b.finish.complete = false := by
  unfold finish
  split
  · rename_i root hdone
    rcases h with hstuck | hsurplus
    · rw [hdone] at hstuck
      cases hstuck
    · simp [hsurplus]
  · rfl

/-- A fault is never the last token of a complete text. -/
theorem step_fault (b : Builder) : (b.step .fault).finish.complete = false := by
  obtain ⟨frames, phase, surplus⟩ := b
  cases phase with
  | done root => exact complete_of_isHopeless (.inr rfl)
  | colon => exact complete_of_isHopeless (.inl rfl)
  | stuck => exact complete_of_isHopeless (.inl rfl)
  | value => exact complete_of_isHopeless (.inl rfl)
  | firstItem => exact complete_of_isHopeless (.inl rfl)
  | firstName =>
      refine complete_of_isHopeless (.inl ?_)
      unfold step
      simp only [reduceCtorEq, if_false]
      unfold startName
      split <;> simp_all
  | name =>
      refine complete_of_isHopeless (.inl ?_)
      unfold step
      dsimp only
      unfold startName
      split <;> simp_all
  | separator =>
      refine complete_of_isHopeless (.inl ?_)
      unfold step
      simp only [reduceCtorEq, if_false]
      unfold close
      split <;> simp_all

/-! ### Inside of open arrays and objects -/

/-- The first builder goes on as on its own, the second one where `b` stands. -/
inductive Inside (b : Builder) : Builder → Builder → Prop
  | opened (frame : Frame) (frames : List Frame) (p : Phase) (hp : ∀ t, p ≠ .done t) :
      Inside b ⟨frame :: frames, p, false⟩ ⟨frame :: frames ++ b.frames, p, false⟩
  | complete (t : Tree) : Inside b ⟨[], .done t, false⟩ (b.complete t)
  | hopeless {a c : Builder} (h : a.IsHopeless) : Inside b a c

theorem inside_complete (frame : Frame) (frames : List Frame) (p : Phase) (t : Tree) :
    Inside b (Builder.complete ⟨frame :: frames, p, false⟩ t)
      (Builder.complete ⟨frame :: frames ++ b.frames, p, false⟩ t) := by
  cases frame with
  | array items => exact .opened _ frames .separator (by simp)
  | object members name =>
      cases name with
      | none => exact .hopeless (.inl rfl)
      | some name => exact .opened _ frames .separator (by simp)

/-- A value is complete whatever was expected to come next. -/
theorem complete_phase (frames : List Frame) (p q : Phase) (surplus : Bool) (t : Tree) :
    Builder.complete ⟨frames, p, surplus⟩ t = Builder.complete ⟨frames, q, surplus⟩ t := by
  cases frames with
  | nil => rfl
  | cons frame frames =>
      cases frame with
      | array items => rfl
      | object members name => cases name <;> rfl

/-- The end of the outermost array or object is the end of the text on its own. -/
theorem inside_pop (hb : b.surplus = false) (frames : List Frame) (p : Phase) (t : Tree) :
    Inside b (Builder.complete ⟨frames, p, false⟩ t)
      (Builder.complete ⟨frames ++ b.frames, p, false⟩ t) := by
  cases frames with
  | nil =>
      obtain ⟨outer, q, surplus⟩ := b
      obtain rfl : surplus = false := hb
      rw [List.nil_append, complete_phase outer p q]
      exact .complete t
  | cons frame frames => exact inside_complete frame frames p t

theorem inside_startValue (frame : Frame) (frames : List Frame) (p : Phase) (t : Token) :
    Inside b (startValue ⟨frame :: frames, p, false⟩ t)
      (startValue ⟨frame :: frames ++ b.frames, p, false⟩ t) := by
  cases t with
  | openArray => exact .opened _ (frame :: frames) .firstItem (by simp)
  | openObject => exact .opened _ (frame :: frames) .firstName (by simp)
  | null => exact inside_complete ..
  | bool v => exact inside_complete ..
  | number n => exact inside_complete ..
  | string s => exact inside_complete ..
  | _ => exact .hopeless (.inl rfl)

theorem inside_close (hb : b.surplus = false) (frame : Frame) (frames : List Frame) (p : Phase)
    (t : Token) :
    Inside b (close ⟨frame :: frames, p, false⟩ t)
      (close ⟨frame :: frames ++ b.frames, p, false⟩ t) := by
  cases frame with
  | array items =>
      cases t with
      | closeArray => exact inside_pop hb frames p _
      | _ => exact .hopeless (.inl rfl)
  | object members name =>
      cases name with
      | some name => cases t <;> exact .hopeless (.inl rfl)
      | none =>
          cases t with
          | closeObject => exact inside_pop hb frames p _
          | _ => exact .hopeless (.inl rfl)

theorem inside_startName (frame : Frame) (frames : List Frame) (p : Phase) (t : Token) :
    Inside b (startName ⟨frame :: frames, p, false⟩ t)
      (startName ⟨frame :: frames ++ b.frames, p, false⟩ t) := by
  cases frame with
  | array items => cases t <;> exact .hopeless (.inl rfl)
  | object members name =>
      cases name with
      | some name => cases t <;> exact .hopeless (.inl rfl)
      | none =>
          cases t with
          | string s => exact .opened _ frames .colon (by simp)
          | _ => exact .hopeless (.inl rfl)

/-- **A token does the same to both builders.** -/
theorem inside_step (hb : b.surplus = false) {a c : Builder} (h : Inside b a c) (t : Token) :
    Inside b (a.step t) (c.step t) := by
  cases h with
  | hopeless h => exact .hopeless (isHopeless_step h t)
  | complete root => exact .hopeless (.inr rfl)
  | opened frame frames p hp =>
      cases p with
      | done root => exact absurd rfl (hp root)
      | value => exact inside_startValue frame frames .value t
      | firstItem =>
          simp only [step]
          split_ifs
          · exact inside_close hb frame frames .firstItem t
          · exact inside_startValue frame frames .firstItem t
      | firstName =>
          simp only [step]
          split_ifs
          · exact inside_close hb frame frames .firstName t
          · exact inside_startName frame frames .firstName t
      | name => exact inside_startName frame frames .name t
      | colon =>
          simp only [step]
          split_ifs
          · exact .opened frame frames .value (by simp)
          · exact .hopeless (.inl rfl)
      | separator =>
          simp only [step]
          split_ifs
          · cases frame with
            | array items => exact .opened _ frames .value (by simp)
            | object members name => exact .opened _ frames .name (by simp)
          · exact inside_close hb frame frames .separator t
      | stuck => exact .hopeless (.inl rfl)

theorem inside_foldl (hb : b.surplus = false) {a c : Builder} (h : Inside b a c)
    (ts : List Token) : Inside b (ts.foldl step a) (ts.foldl step c) := by
  induction ts generalizing a c with
  | nil => exact h
  | cons t ts ih => exact ih (inside_step hb h t)

/-- The first token of a value opens an array or object, or is the value. -/
theorem inside_first (hb : b.IsReady) (t : Token) : Inside b (initial.step t) (b.step t) := by
  obtain ⟨frames, p, surplus⟩ := b
  obtain ⟨hp, rfl⟩ := hb
  have hstart (ht : t ≠ .closeArray) :
      step ⟨frames, p, false⟩ t = startValue ⟨frames, p, false⟩ t := by
    unfold step
    rcases hp with rfl | rfl
    · rfl
    · exact if_neg ht
  cases t with
  | closeArray => exact .hopeless (.inl rfl)
  | openArray =>
      rw [hstart (by simp)]
      exact .opened _ [] .firstItem (by simp)
  | openObject =>
      rw [hstart (by simp)]
      exact .opened _ [] .firstName (by simp)
  | null =>
      rw [hstart (by simp)]
      exact .complete .null
  | bool v =>
      rw [hstart (by simp)]
      exact .complete (.bool v)
  | number n =>
      rw [hstart (by simp)]
      exact .complete (.number n)
  | string s =>
      rw [hstart (by simp)]
      exact .complete (.string s)
  | _ => exact .hopeless (.inl rfl)

end Builder

/-! ### Trees wherever a value may stand -/

/-- The tokens make up the tree wherever a value may stand. -/
def Builds (ts : List Token) (t : Tree) : Prop :=
  ∀ b : Builder, b.IsReady → ts.foldl Builder.step b = b.complete t

section

variable {ts : List Token} {t : Tree} {cs : List Char}

/-- **What is a tree on its own is one everywhere.** -/
theorem builds_of_ofTokens (h : Outline.ofTokens ts = ⟨t, true⟩) : Builds ts t := by
  intro b hb
  unfold Outline.ofTokens at h
  cases ts with
  | nil => cases h
  | cons first ts =>
      rw [List.foldl_cons] at h ⊢
      have hinside := Builder.inside_foldl hb.2 (Builder.inside_first hb first) ts
      generalize ts.foldl Builder.step (Builder.initial.step first) = a at h hinside
      generalize ts.foldl Builder.step (b.step first) = c at hinside ⊢
      cases hinside with
      | opened frame frames p hp =>
          unfold Builder.finish at h
          cases p with
          | done root => exact absurd rfl (hp root)
          | _ => cases h
      | complete root =>
          obtain ⟨rfl, -⟩ := Outline.mk.inj h
          rfl
      | hopeless hopeless =>
          have := Builder.complete_of_isHopeless hopeless
          rw [h] at this
          cases this

theorem ofTokens_of_builds (h : Builds ts t) : Outline.ofTokens ts = ⟨t, true⟩ := by
  rw [Outline.ofTokens, h .initial ⟨.inl rfl, rfl⟩]
  rfl

/-- The text stands for the tree wherever it is written. -/
def Stands (cs : List Char) (t : Tree) : Prop :=
  ∃ ts, Scans cs ts ∧ Builds ts t

/-- **A complete text stands for its tree everywhere.** -/
theorem outline_eq_iff {text : String} :
    outline text = ⟨t, true⟩ ↔ Stands text.toList t := by
  unfold outline
  constructor
  · intro h
    refine ⟨Token.scan text.toList, scans_of_scan ?_, builds_of_ofTokens h⟩
    rintro last hlast rfl
    -- After a fault the text is not complete.
    obtain ⟨before, hbefore⟩ := List.getLast?_eq_some_iff.1 hlast
    rw [hbefore, Outline.ofTokens, List.foldl_append, List.foldl_cons, List.foldl_nil] at h
    have := Builder.step_fault (before.foldl Builder.step .initial)
    rw [h] at this
    cases this
  · rintro ⟨ts, hscans, hbuilds⟩
    have hscan : Token.scan text.toList = ts := by
      have := hscans []
      rw [List.append_nil] at this
      unfold Token.scan Scanner.initial
      rw [this, List.reverse_reverse]
    rw [hscan]
    exact ofTokens_of_builds hbuilds

/-! ### Arrays and objects -/

theorem builds_token (t : Token) (root : Tree) (ht : t ≠ .closeArray)
    (h : ∀ b : Builder, b.startValue t = b.complete root) : Builds [t] root := by
  rintro ⟨frames, p, surplus⟩ ⟨hp, -⟩
  rw [List.foldl_cons, List.foldl_nil, ← h]
  unfold Builder.step
  rcases hp with rfl | rfl
  · rfl
  · exact if_neg ht

theorem stands_string (s : String) : Stands (string s).chars (.string (some s)) := by
  have hchars : (string s).chars = (Token.string (some s)).spell := by simp [chars, tokens, emit]
  rw [hchars]
  exact ⟨_, (scansOut_string s).scans, builds_token _ _ (by simp) fun _ => rfl⟩

/-- The items of an array that follow the first one, and its end. -/
theorem builds_items {items : List (List Token × Tree)} (hitems : ∀ x ∈ items, Builds x.1 x.2)
    (before : List Tree) (frames : List Builder.Frame) :
    List.foldl Builder.step ⟨.array before :: frames, .separator, false⟩
        (separated .comma false (items.map Prod.fst) ++ [.closeArray]) =
      Builder.complete ⟨frames, .separator, false⟩
        (.array (before.reverse ++ items.map Prod.snd)) := by
  induction items generalizing before with
  | nil => simp [separated, Builder.step, Builder.close]
  | cons x items ih =>
      have hx := hitems x (by simp) ⟨.array before :: frames, .value, false⟩ ⟨.inl rfl, rfl⟩
      have hcomma : Builder.step ⟨.array before :: frames, .separator, false⟩ .comma =
          ⟨.array before :: frames, .value, false⟩ := rfl
      have hcomplete : Builder.complete ⟨.array before :: frames, .value, false⟩ x.2 =
          ⟨.array (x.2 :: before) :: frames, .separator, false⟩ := rfl
      have hrest := ih (fun y hy => hitems y (by simp [hy])) (x.2 :: before)
      simp only [List.map_cons, separated, Bool.false_eq_true, if_false, List.append_assoc,
        List.cons_append, List.foldl_cons, List.foldl_append, hcomma, hx, hcomplete] at hrest ⊢
      simpa using hrest

/-- **An array is made up of its items.** -/
theorem builds_array (items : List (List Token × Tree)) (hitems : ∀ x ∈ items, Builds x.1 x.2) :
    Builds (.openArray :: (separated .comma true (items.map Prod.fst) ++ [.closeArray]))
      (.array (items.map Prod.snd)) := by
  rintro ⟨frames, p, surplus⟩ ⟨hp, hsurplus⟩
  obtain rfl : surplus = false := hsurplus
  have hopen : Builder.step ⟨frames, p, false⟩ .openArray =
      ⟨.array [] :: frames, .firstItem, false⟩ := by
    unfold Builder.step
    rcases hp with rfl | rfl <;> rfl
  rw [List.foldl_cons, hopen, Builder.complete_phase frames p .separator]
  cases items with
  | nil => rfl
  | cons x items =>
      have hx := hitems x (by simp) ⟨.array [] :: frames, .firstItem, false⟩ ⟨.inr rfl, rfl⟩
      have hrest := builds_items (fun y hy => hitems y (List.mem_cons_of_mem x hy)) [x.2] frames
      simp only [List.map_cons, separated, if_true, List.append_assoc, List.foldl_append, hx]
        at hrest ⊢
      exact hrest

/-- The tokens of a member: its name, a colon and its value. -/
def memberTokens (name : String) (ts : List Token) : List Token :=
  .string (some name) :: .colon :: ts

theorem builds_member {x : String × List Token × Tree} (hx : Builds x.2.1 x.2.2)
    (before : List (Option String × Tree)) (frames : List Builder.Frame) {p : Builder.Phase}
    (hp : p = .name ∨ p = .firstName) :
    (memberTokens x.1 x.2.1).foldl Builder.step ⟨.object before none :: frames, p, false⟩ =
      ⟨.object ((some x.1, x.2.2) :: before) none :: frames, .separator, false⟩ := by
  have hname : Builder.step ⟨.object before none :: frames, p, false⟩ (.string (some x.1)) =
      ⟨.object before (some (some x.1)) :: frames, .colon, false⟩ := by
    unfold Builder.step
    rcases hp with rfl | rfl <;> rfl
  have hcolon : Builder.step ⟨.object before (some (some x.1)) :: frames, .colon, false⟩ .colon =
      ⟨.object before (some (some x.1)) :: frames, .value, false⟩ := rfl
  rw [memberTokens, List.foldl_cons, hname, List.foldl_cons, hcolon, hx _ ⟨.inl rfl, rfl⟩]
  rfl

/-- The members of an object that follow the first one, and its end. -/
theorem builds_members {members : List (String × List Token × Tree)}
    (hmembers : ∀ x ∈ members, Builds x.2.1 x.2.2) (before : List (Option String × Tree))
    (frames : List Builder.Frame) :
    List.foldl Builder.step ⟨.object before none :: frames, .separator, false⟩
        (separated .comma false (members.map fun x => memberTokens x.1 x.2.1) ++
          [.closeObject]) =
      Builder.complete ⟨frames, .separator, false⟩
        (.object (before.reverse ++ members.map fun x => (some x.1, x.2.2))) := by
  induction members generalizing before with
  | nil => simp [separated, Builder.step, Builder.close]
  | cons x members ih =>
      have hx := builds_member (hmembers x (by simp)) before frames (.inl rfl)
      have hcomma : Builder.step ⟨.object before none :: frames, .separator, false⟩ .comma =
          ⟨.object before none :: frames, .name, false⟩ := rfl
      have hrest := ih (fun y hy => hmembers y (by simp [hy])) ((some x.1, x.2.2) :: before)
      simp only [List.map_cons, separated, Bool.false_eq_true, if_false, List.append_assoc,
        List.cons_append, List.foldl_cons, List.foldl_append, hcomma, hx] at hrest ⊢
      simpa using hrest

/-- **An object is made up of its members.** -/
theorem builds_object (members : List (String × List Token × Tree))
    (hmembers : ∀ x ∈ members, Builds x.2.1 x.2.2) :
    Builds
      (.openObject :: (separated .comma true (members.map fun x => memberTokens x.1 x.2.1) ++
        [.closeObject]))
      (.object (members.map fun x => (some x.1, x.2.2))) := by
  rintro ⟨frames, p, surplus⟩ ⟨hp, hsurplus⟩
  obtain rfl : surplus = false := hsurplus
  have hopen : Builder.step ⟨frames, p, false⟩ .openObject =
      ⟨.object [] none :: frames, .firstName, false⟩ := by
    unfold Builder.step
    rcases hp with rfl | rfl <;> rfl
  rw [List.foldl_cons, hopen, Builder.complete_phase frames p .separator]
  cases members with
  | nil => rfl
  | cons x members =>
      have hx := builds_member (hmembers x (by simp)) [] frames (.inr rfl)
      have hrest := builds_members (fun y hy => hmembers y (List.mem_cons_of_mem x hy))
        [(some x.1, x.2.2)] frames
      simp only [List.map_cons, separated, if_true, List.append_assoc, List.foldl_append, hx]
        at hrest ⊢
      exact hrest

end

/-! ### Texts that are written -/

mutual

theorem emit_eq (v : Json) (reversed : List Token) :
    emit reversed v = v.tokens.reverse ++ reversed := by
  cases v with
  | array items =>
      rw [tokens, List.reverse_reverse, emit, emit, emitItems_eq items true,
        emitItems_eq items true [.openArray], List.cons_append, List.append_assoc,
        List.singleton_append]
  | object members =>
      rw [tokens, List.reverse_reverse, emit, emit, emitMembers_eq members true,
        emitMembers_eq members true [.openObject], List.cons_append, List.append_assoc,
        List.singleton_append]
  | _ => rfl

theorem emitItems_eq (vs : List Json) (first : Bool) (reversed : List Token) :
    emitItems reversed first vs =
      (separated .comma first (vs.map tokens)).reverse ++ reversed := by
  cases vs with
  | nil => rfl
  | cons v vs =>
      rw [emitItems, emitItems_eq vs false, emit_eq v, List.map_cons, separated]
      cases first <;> simp

theorem emitMembers_eq (ms : List (String × Json)) (first : Bool) (reversed : List Token) :
    emitMembers reversed first ms =
      (separated .comma first (ms.map fun m => memberTokens m.1 m.2.tokens)).reverse ++
        reversed := by
  cases ms with
  | nil => rfl
  | cons m ms =>
      obtain ⟨k, v⟩ := m
      simp only [emitMembers]
      rw [emitMembers_eq ms false, emit_eq v, List.map_cons, separated]
      cases first <;> simp [memberTokens]

end

theorem tokens_array (items : List Json) :
    (array items).tokens =
      .openArray :: (separated .comma true (items.map tokens) ++ [.closeArray]) := by
  rw [tokens, emit, emitItems_eq]
  simp

theorem tokens_object (members : List (String × Json)) :
    (object members).tokens =
      .openObject :: (separated .comma true (members.map fun m => memberTokens m.1 m.2.tokens) ++
        [.closeObject]) := by
  rw [tokens, emit, emitMembers_eq]
  simp

theorem flatMap_separated {α β : Type} (f : α → List β) {separator : α} {b : β}
    (hb : f separator = [b]) (first : Bool) (xs : List (List α)) :
    (separated separator first xs).flatMap f = separated b first (xs.map (List.flatMap f)) := by
  induction xs generalizing first with
  | nil => rfl
  | cons x xs ih => cases first <;> simp [separated, ih, hb]

/-- The text of a member: its name, a colon and the text of its value. -/
def memberChars (name : String) (cs : List Char) : List Char :=
  (Token.string (some name)).spell ++ [':'] ++ cs

/-- **The text of an array is put together from those of its items.** -/
theorem chars_array (items : List Json) :
    (array items).chars = '[' :: (separated ',' true (items.map chars) ++ [']']) := by
  rw [chars, tokens_array, List.flatMap_cons, List.flatMap_append,
    flatMap_separated Token.spell (b := ',') rfl, List.map_map]
  rfl

/-- **The text of an object is put together from those of its members.** -/
theorem chars_object (members : List (String × Json)) :
    (object members).chars =
      '\x7b' :: (separated ',' true (members.map fun m => memberChars m.1 m.2.chars) ++
        ['\x7d']) := by
  have hmember (m : String × Json) :
      (memberTokens m.1 m.2.tokens).flatMap Token.spell = memberChars m.1 m.2.chars := by
    simp [memberTokens, memberChars, chars, Token.spell]
  rw [chars, tokens_object, List.flatMap_cons, List.flatMap_append,
    flatMap_separated Token.spell (b := ',') rfl, List.map_map]
  simp only [Function.comp_def, hmember]
  rfl

section

variable {α : Type} {xs : List α} {name : α → String} {value : α → Json} {tree : α → Tree}

/-- The text of an array with the given texts as its items. -/
def arrayChars (items : List (List Char)) : List Char :=
  '[' :: (separated ',' true items ++ [']'])

/-- The text of an object with the given texts as the names and the values of its members. -/
def objectChars (members : List (List Char × List Char)) : List Char :=
  '\x7b' :: (separated ',' true (members.map fun m => m.1 ++ [':'] ++ m.2) ++ ['\x7d'])

/-- **An array stands for its items**, however they are written. -/
theorem stands_arrayChars {chars : α → List Char} (h : ∀ x ∈ xs, Stands (chars x) (tree x)) :
    Stands (arrayChars (xs.map chars)) (.array (xs.map tree)) := by
  unfold Stands at h
  choose! ts hscans hbuilds using h
  have hopen : Token.punctuation? '[' = some .openArray := rfl
  have hclose : Token.punctuation? ']' = some .closeArray := rfl
  have hscan := scansOut_separated hopen hclose (xs.map fun x => (chars x, ts x))
    (List.forall_mem_map.2 hscans)
  have hbuild := builds_array (xs.map fun x => (ts x, tree x)) (List.forall_mem_map.2 hbuilds)
  refine ⟨_, ?_, by simpa [Function.comp_def] using hbuild⟩
  simpa [arrayChars, Function.comp_def] using hscan.scans

/-- **An object stands for its members**, however they and their names are written. -/
theorem stands_objectChars {nameChars chars : α → List Char}
    (hname : ∀ x ∈ xs, Scans (nameChars x) [.string (some (name x))])
    (h : ∀ x ∈ xs, Stands (chars x) (tree x)) :
    Stands (objectChars (xs.map fun x => (nameChars x, chars x)))
      (.object (xs.map fun x => (some (name x), tree x))) := by
  unfold Stands at h
  choose! ts hscans hbuilds using h
  have hmember (x : α) (hx : x ∈ xs) :
      Scans (nameChars x ++ [':'] ++ chars x) (memberTokens (name x) (ts x)) :=
    ((hname x hx).punctuation (c := ':') rfl).append_scans (hscans x hx)
  have hopen : Token.punctuation? '\x7b' = some .openObject := rfl
  have hclose : Token.punctuation? '\x7d' = some .closeObject := rfl
  have hscan := scansOut_separated hopen hclose
    (xs.map fun x => (nameChars x ++ [':'] ++ chars x, memberTokens (name x) (ts x)))
    (List.forall_mem_map.2 hmember)
  have hbuild := builds_object (xs.map fun x => (name x, ts x, tree x))
    (List.forall_mem_map.2 hbuilds)
  refine ⟨_, ?_, by simpa [Function.comp_def] using hbuild⟩
  simpa [objectChars, Function.comp_def] using hscan.scans

/-- An array that is written stands for its items. -/
theorem stands_array (h : ∀ x ∈ xs, Stands (value x).chars (tree x)) :
    Stands (array (xs.map value)).chars (.array (xs.map tree)) := by
  have hstands := stands_arrayChars h
  rw [chars_array]
  simpa [arrayChars, Function.comp_def] using hstands

/-- An object that is written stands for its members. -/
theorem stands_object (h : ∀ x ∈ xs, Stands (value x).chars (tree x)) :
    Stands (object (xs.map fun x => (name x, value x))).chars
      (.object (xs.map fun x => (some (name x), tree x))) := by
  have hname : ∀ x ∈ xs, Scans (Token.string (some (name x))).spell [.string (some (name x))] :=
    fun x _ => (scansOut_string (name x)).scans
  have hstands := stands_objectChars hname h
  rw [chars_object]
  simpa [objectChars, memberChars, Function.comp_def] using hstands

end

end CoachLedger.Json
