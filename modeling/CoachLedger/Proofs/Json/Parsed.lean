/-
**Values of texts.**

What the scanner takes for a number is in range, and the builder and the reader add no numbers of
their own; nor does an array get more items than the text has characters.  A text in which no member
has the reserved name therefore denotes a plain value.  Only through the reserved name does a text
denote a value that is nested deeper than it is itself, or one with a member of that name.

Main definitions:

* `CoachLedger.Json.Scanner.IsInRange`, `CoachLedger.Json.Builder.IsInRange` — the numbers that have
  been met are in range, and no more tokens and items have been met than characters;
* `CoachLedger.Json.Tree.Holds` — what holds of the numbers, names and arrays in a tree;
* `CoachLedger.Json.NamesNoText` — no member of the text has the reserved name;
* `CoachLedger.Json.DenotesPlainly` — a text without the reserved name, and its value.

Main results:

* `CoachLedger.Json.isInRange_outline` — **the numbers of a text are in range**;
* `CoachLedger.Json.isPlain_of_read?` — **texts without the reserved name denote plain values**.
-/

import CoachLedger.Proofs.Json.Rereading

set_option autoImplicit false

namespace CoachLedger.Json

/-! ### Numbers of a text -/

namespace Token

/-- If the token is a number that has a value, this is in range. -/
def IsInRange (t : Token) : Prop :=
  ∀ n, t = .number (some n) → n.IsInRange

theorem isInRange_ofWord (word : List Char) : (ofWord word).IsInRange := by
  rintro n h
  unfold ofWord at h
  split at h
  · cases h
  · split at h
    · cases h
    · split at h
      · cases h
      · split at h
        · rename_i hread
          obtain rfl := Token.number.inj h
          exact Numeral.isInRange_of_read? hread
        · cases h

end Token

namespace Scanner

/-- A word or a string that has been begun is a token to come. -/
def pending : Mode → Nat
  | .between | .dead => 0
  | _ => 1

/-- The numbers that have been collected are in range, and the tokens that have been collected and
begun are no more than the characters. -/
structure IsInRange (n : Nat) (s : Scanner) : Prop where
  tokens : ∀ t ∈ s.tokens, t.IsInRange
  length : s.tokens.length + pending s.mode ≤ n

variable {n : Nat} {s : Scanner}

theorem isInRange_push (h : ∀ t ∈ s.tokens, t.IsInRange) (hlen : s.tokens.length + 1 ≤ n)
    {t : Token} (ht : t.IsInRange) : (s.push t).IsInRange n := by
  refine ⟨List.forall_mem_cons.2 ⟨ht, h⟩, ?_⟩
  unfold push pending
  split_ifs <;> exact hlen

theorem isInRange_open (h : ∀ t ∈ s.tokens, t.IsInRange) (hlen : s.tokens.length ≤ n) (c : Char) :
    (s.open_ c).IsInRange (n + 1) := by
  have hsucc := Nat.succ_le_succ hlen
  unfold Scanner.open_
  split_ifs
  · exact ⟨h, Nat.le_succ_of_le hlen⟩
  · exact ⟨h, hsucc⟩
  · cases hc : Token.punctuation? c with
    | none => exact ⟨h, hsucc⟩
    | some t =>
        refine isInRange_push h hsucc fun n hn => ?_
        rw [hn] at hc
        unfold Token.punctuation? at hc
        split at hc <;> cases hc

/-- **A step collects words as numbers in range**, and everything else is no number.  A character
begins or ends at most one token, or it ends a word and is a token itself. -/
theorem IsInRange.step (h : s.IsInRange n) (c : Char) : (s.step c).IsInRange (n + 1) := by
  obtain ⟨tokens, mode⟩ := s
  have htokens := h.tokens
  have hfault : Token.IsInRange .fault := fun n hn => by cases hn
  have hlen : tokens.length + pending mode ≤ n + 1 := Nat.le_succ_of_le h.length
  cases mode with
  | between => exact isInRange_open htokens h.length c
  | word reversed =>
      rw [step_word]
      have hword : ∀ t ∈ Token.ofWord reversed.reverse :: tokens, t.IsInRange :=
        List.forall_mem_cons.2 ⟨Token.isInRange_ofWord _, htokens⟩
      split_ifs
      · exact ⟨List.forall_mem_cons.2 ⟨hfault, htokens⟩, hlen⟩
      · exact isInRange_open (s := ⟨_, .between⟩) hword h.length c
      · exact ⟨htokens, hlen⟩
  | string reversed high =>
      simp only [Scanner.step]
      split_ifs
      · exact isInRange_push htokens hlen fun n hn => by cases hn
      · exact ⟨htokens, hlen⟩
      · exact isInRange_push htokens hlen hfault
      · exact ⟨htokens, hlen⟩
  | escape reversed high =>
      simp only [Scanner.step]
      split_ifs
      · exact ⟨htokens, hlen⟩
      · cases unescape? c with
        | none => exact isInRange_push htokens hlen hfault
        | some d => exact ⟨htokens, hlen⟩
  | hex reversed high count value =>
      simp only [Scanner.step]
      cases Text.hexValue? c with
      | none => exact isInRange_push htokens hlen hfault
      | some d =>
          dsimp only
          split_ifs
          · unfold afterHex
            split_ifs
            · cases high <;> exact ⟨htokens, hlen⟩
            · exact ⟨htokens, hlen⟩
            · exact ⟨htokens, hlen⟩
          · exact ⟨htokens, hlen⟩
  | dead => exact ⟨htokens, hlen⟩

theorem IsInRange.foldl (h : s.IsInRange n) (cs : List Char) :
    (cs.foldl Scanner.step s).IsInRange (n + cs.length) := by
  induction cs generalizing s n with
  | nil => exact h
  | cons c cs ih =>
      rw [List.foldl_cons, List.length_cons, Nat.add_comm cs.length, ← Nat.add_assoc]
      exact ih (h.step c)

theorem IsInRange.finish (h : s.IsInRange n) : s.finish.IsInRange n := by
  obtain ⟨tokens, mode⟩ := s
  cases mode with
  | between => exact h
  | dead => exact h
  | word reversed => exact isInRange_push h.tokens h.length (Token.isInRange_ofWord _)
  | _ => exact isInRange_push h.tokens h.length fun n hn => by cases hn

end Scanner

/-- **The numbers of a text are in range**, and it has no more tokens than characters. -/
theorem isInRange_scan (cs : List Char) :
    (∀ t ∈ Token.scan cs, t.IsInRange) ∧ (Token.scan cs).length ≤ cs.length := by
  have hinitial : Scanner.initial.IsInRange 0 := ⟨List.forall_mem_nil _, Nat.le_refl 0⟩
  have hend := (hinitial.foldl cs).finish
  refine ⟨fun t ht => hend.tokens t (List.mem_reverse.1 ht), ?_⟩
  have hlen := Nat.le_trans (Nat.le_add_right _ _) hend.length
  rwa [Nat.zero_add, ← List.length_reverse] at hlen

/-! ### What holds of a tree -/

namespace Tree

/-- The numbers in the tree that have a value are allowed ones, and so are the names and the sizes
of the arrays. -/
inductive Holds (number : Numeral → Prop) (named : Option String → Prop) (sized : Nat → Prop) :
    Tree → Prop
  | null : Holds number named sized .null
  | bool (b : Bool) : Holds number named sized (.bool b)
  | number {n : Option Numeral} (h : ∀ m, n = some m → number m) :
      Holds number named sized (.number n)
  | string (s : Option String) : Holds number named sized (.string s)
  | array {items : List Tree} (size : sized items.length)
      (h : ∀ t ∈ items, Holds number named sized t) : Holds number named sized (.array items)
  | object {members : List (Option String × Tree)} (names : ∀ m ∈ members, named m.1)
      (h : ∀ m ∈ members, Holds number named sized m.2) : Holds number named sized (.object members)
  | fault : Holds number named sized .fault

/-- The numbers in the tree are in range, and no array has more items than the bound. -/
abbrev IsInRange (bound : Nat) (t : Tree) : Prop :=
  t.Holds Numeral.IsInRange (fun _ => True) (· ≤ bound)

/-- No member of an object in the tree has the reserved name. -/
abbrev NamesNoText (t : Tree) : Prop :=
  t.Holds (fun _ => True) (· ≠ some embeddingName) fun _ => True

/-- What holds of the numbers and the arrays and what holds of the names holds together. -/
theorem IsInRange.and {bound : Nat} {t : Tree} (h : t.IsInRange bound) (h' : t.NamesNoText) :
    t.Holds Numeral.IsInRange (· ≠ some embeddingName) (· ≤ bound) := by
  induction h with
  | null => exact .null
  | bool b => exact .bool b
  | number h => exact .number h
  | string s => exact .string s
  | array size h ih =>
      cases h' with
      | array _ h' => exact .array size fun t ht => ih t ht (h' t ht)
  | object _ h ih =>
      cases h' with
      | object names h' => exact .object names fun m hm => ih m hm (h' m hm)
  | fault => exact .fault

end Tree

namespace Builder

/-- The numbers in an array or object that is not closed yet are in range, and it has no more items
than tokens have been met. -/
def Frame.IsInRange (bound met : Nat) : Frame → Prop
  | .array items => items.length ≤ met ∧ ∀ t ∈ items, t.IsInRange bound
  | .object members _ => ∀ m ∈ members, m.2.IsInRange bound

/-- The numbers of the text so far are in range, and no array has more items than tokens have been
met. -/
structure IsInRange (bound met : Nat) (b : Builder) : Prop where
  frames : ∀ f ∈ b.frames, f.IsInRange bound met
  root : ∀ t, b.phase = .done t → t.IsInRange bound

variable {bound met : Nat} {b : Builder}

theorem Frame.IsInRange.succ {f : Frame} (h : f.IsInRange bound met) :
    f.IsInRange bound (met + 1) := by
  cases f with
  | array items => exact ⟨Nat.le_succ_of_le h.1, h.2⟩
  | object members name => exact h

/-- A phase in which the text is not complete adds nothing. -/
theorem isInRange_of_frames {frames : List Frame} (h : ∀ f ∈ frames, f.IsInRange bound met)
    {p : Phase} (hp : ∀ t, p ≠ .done t) (surplus : Bool) :
    IsInRange bound met ⟨frames, p, surplus⟩ :=
  ⟨h, fun t ht => absurd ht (hp t)⟩

/-- The token that completes a tree pays for the item. -/
theorem isInRange_complete {frames : List Frame} (h : ∀ f ∈ frames, f.IsInRange bound met)
    (p : Phase) (surplus : Bool) {t : Tree} (ht : t.IsInRange bound) :
    (Builder.complete ⟨frames, p, surplus⟩ t).IsInRange bound (met + 1) := by
  have hsucc : ∀ f ∈ frames, f.IsInRange bound (met + 1) := fun f hf => (h f hf).succ
  cases frames with
  | nil =>
      refine ⟨hsucc, fun root hroot => ?_⟩
      obtain rfl := Phase.done.inj hroot
      exact ht
  | cons frame frames =>
      obtain ⟨hframe, -⟩ := List.forall_mem_cons.1 h
      obtain ⟨-, hframes⟩ := List.forall_mem_cons.1 hsucc
      cases frame with
      | array items =>
          have harray : Frame.IsInRange bound (met + 1) (.array (t :: items)) :=
            ⟨Nat.succ_le_succ hframe.1, List.forall_mem_cons.2 ⟨ht, hframe.2⟩⟩
          exact isInRange_of_frames (List.forall_mem_cons.2 ⟨harray, hframes⟩) (by simp) surplus
      | object members name =>
          cases name with
          | none => exact isInRange_of_frames hsucc (by simp) surplus
          | some name =>
              have hobject : Frame.IsInRange bound (met + 1) (.object ((name, t) :: members) none) :=
                List.forall_mem_cons.2 ⟨ht, hframe⟩
              exact isInRange_of_frames (List.forall_mem_cons.2 ⟨hobject, hframes⟩) (by simp) surplus

theorem IsInRange.succ_frames (h : b.IsInRange bound met) :
    ∀ f ∈ b.frames, f.IsInRange bound (met + 1) :=
  fun f hf => (h.frames f hf).succ

theorem IsInRange.startValue (h : b.IsInRange bound met) {t : Token} (ht : t.IsInRange) :
    (b.startValue t).IsInRange bound (met + 1) := by
  have hopen {f : Frame} (hf : f.IsInRange bound (met + 1)) {p : Phase} (hp : ∀ t, p ≠ .done t) :
      IsInRange bound (met + 1) ⟨f :: b.frames, p, b.surplus⟩ :=
    isInRange_of_frames (List.forall_mem_cons.2 ⟨hf, h.succ_frames⟩) hp b.surplus
  cases t with
  | null => exact isInRange_complete h.frames _ _ .null
  | bool v => exact isInRange_complete h.frames _ _ (.bool v)
  | number n =>
      exact isInRange_complete h.frames _ _ (.number fun m hm => ht m (by rw [hm]))
  | string s => exact isInRange_complete h.frames _ _ (.string s)
  | openArray =>
      exact hopen (f := .array []) ⟨Nat.zero_le _, List.forall_mem_nil _⟩ (by simp)
  | openObject => exact hopen (f := .object [] none) (List.forall_mem_nil _) (by simp)
  | _ => exact isInRange_of_frames h.succ_frames (by simp) b.surplus

theorem IsInRange.close (h : b.IsInRange bound met) (hmet : met ≤ bound) (t : Token) :
    (b.close t).IsInRange bound (met + 1) := by
  obtain ⟨frames, p, surplus⟩ := b
  have hframes := h.frames
  unfold Builder.close
  split
  · rename_i items rest heq
    obtain rfl : frames = .array items :: rest := heq
    obtain ⟨⟨hlen, hitems⟩, hrest⟩ := List.forall_mem_cons.1 hframes
    refine isInRange_complete hrest _ _ (.array ?_ fun t ht => hitems t (List.mem_reverse.1 ht))
    rw [List.length_reverse]
    exact Nat.le_trans hlen hmet
  · rename_i members rest heq
    obtain rfl : frames = .object members none :: rest := heq
    obtain ⟨hmembers, hrest⟩ := List.forall_mem_cons.1 hframes
    exact isInRange_complete hrest _ _ (.object (fun _ _ => trivial) fun m hm =>
      hmembers m (List.mem_reverse.1 hm))
  · exact isInRange_of_frames h.succ_frames (by simp) surplus

theorem IsInRange.startName (h : b.IsInRange bound met) (t : Token) :
    (b.startName t).IsInRange bound (met + 1) := by
  obtain ⟨frames, p, surplus⟩ := b
  have hframes := h.succ_frames
  unfold Builder.startName
  split
  · rename_i members rest s heq
    obtain rfl : frames = .object members none :: rest := heq
    obtain ⟨hmembers, hrest⟩ := List.forall_mem_cons.1 hframes
    have hobject : Frame.IsInRange bound (met + 1) (.object members (some s)) := hmembers
    exact isInRange_of_frames (List.forall_mem_cons.2 ⟨hobject, hrest⟩) (by simp) surplus
  · exact isInRange_of_frames hframes (by simp) surplus

/-- **A step keeps the numbers in range**, and counts. -/
theorem IsInRange.step (h : b.IsInRange bound met) (hmet : met ≤ bound) {t : Token}
    (ht : t.IsInRange) : (b.step t).IsInRange bound (met + 1) := by
  have hopen {p : Phase} (hp : ∀ t, p ≠ .done t) :
      IsInRange bound (met + 1) ⟨b.frames, p, b.surplus⟩ :=
    isInRange_of_frames h.succ_frames hp b.surplus
  unfold Builder.step
  split
  · exact h.startValue ht
  · split_ifs
    · exact h.close hmet t
    · exact h.startValue ht
  · split_ifs
    · exact h.close hmet t
    · exact h.startName t
  · exact h.startName t
  · split_ifs
    · exact hopen (by simp)
    · exact hopen (by simp)
  · split_ifs
    · unfold separate
      split
      all_goals exact hopen (by simp)
    · exact h.close hmet t
  · exact ⟨h.succ_frames, h.root⟩
  · exact ⟨h.succ_frames, h.root⟩

theorem IsInRange.foldl (h : b.IsInRange bound met) {ts : List Token}
    (hts : ∀ t ∈ ts, t.IsInRange) (hmet : met + ts.length ≤ bound) :
    (ts.foldl Builder.step b).IsInRange bound (met + ts.length) := by
  induction ts generalizing b met with
  | nil => exact h
  | cons t ts ih =>
      obtain ⟨ht, hts⟩ := List.forall_mem_cons.1 hts
      rw [List.length_cons] at hmet
      rw [List.foldl_cons, List.length_cons, Nat.add_comm ts.length, ← Nat.add_assoc]
      exact ih (h.step (by omega) ht) hts (by omega)

end Builder

/-- **The numbers of a complete text are in range**, and no array has more items than the text has
characters. -/
theorem isInRange_outline {text : String} {t : Tree} (h : outline text = ⟨t, true⟩) :
    t.IsInRange text.toList.length := by
  have hinitial : Builder.initial.IsInRange text.toList.length 0 :=
    ⟨List.forall_mem_nil _, fun t ht => by cases ht⟩
  obtain ⟨htokens, hlen⟩ := isInRange_scan text.toList
  have hend := hinitial.foldl htokens ((Nat.zero_add _).symm ▸ hlen)
  rw [outline, Outline.ofTokens, Builder.finish] at h
  split at h
  · rename_i root hdone
    obtain ⟨rfl, -⟩ := Outline.mk.inj h
    exact hend.root root hdone
  · cases h

/-! ### Values of a tree -/

theorem nodup_assign {members : List (String × Json)} {name : String} {v : Json}
    (h : (members.map Prod.fst).Nodup) : ((assign members name v).map Prod.fst).Nodup := by
  by_cases hmem : name ∈ members.map Prod.fst
  · rwa [assign_keys_of_mem members name v hmem]
  · rw [assign_keys_of_not_mem members name v hmem, List.nodup_append]
    refine ⟨h, List.nodup_singleton name, fun a ha b hb => ?_⟩
    obtain rfl := List.mem_singleton.1 hb
    rintro rfl
    exact hmem ha

theorem mem_assign {members : List (String × Json)} {name : String} {v : Json}
    {m : String × Json} (h : m ∈ assign members name v) : m = (name, v) ∨ m ∈ members := by
  induction members with
  | nil => exact .inl (List.mem_singleton.1 h)
  | cons n members ih =>
      obtain ⟨k, w⟩ := n
      by_cases hk : k = name
      · rw [assign, if_pos hk] at h
        rcases List.mem_cons.1 h with rfl | h
        · exact .inl (by rw [hk])
        · exact .inr (List.mem_cons_of_mem _ h)
      · rw [assign, if_neg hk] at h
        rcases List.mem_cons.1 h with rfl | h
        · exact .inr (List.mem_cons_self ..)
        · exact (ih h).imp_right (List.mem_cons_of_mem _)

namespace Tree

variable {embedded : String → Option Json} {depth : Nat}

/-- There are as many items as trees, and each item is the value of one. -/
theorem mem_of_items? {reversed vs : List Json} {ts : List Tree}
    (h : items? embedded depth reversed ts = some vs) :
    vs.length = reversed.length + ts.length ∧
      ∀ v ∈ vs, v ∈ reversed ∨ ∃ t ∈ ts, value? embedded depth t = some v := by
  induction ts generalizing reversed with
  | nil =>
      obtain rfl := Option.some.inj h
      exact ⟨List.length_reverse, fun v hv => .inl (List.mem_reverse.1 hv)⟩
  | cons t ts ih =>
      rw [items?] at h
      split at h
      · rename_i w hw
        obtain ⟨hlen, hmem⟩ := ih h
        rw [List.length_cons] at hlen
        refine ⟨by rw [hlen, List.length_cons]; omega, fun v hv => ?_⟩
        rcases hmem v hv with hv | ⟨t', ht', hv⟩
        · rcases List.mem_cons.1 hv with rfl | hv
          · exact .inr ⟨t, List.mem_cons_self .., hw⟩
          · exact .inl hv
        · exact .inr ⟨t', List.mem_cons_of_mem t ht', hv⟩
      · cases h

/-- The names of the members that are read differ, and each member is one of the text. -/
theorem mem_of_members? {assigned ms : List (String × Json)} {ts : List (Option String × Tree)}
    (h : members? embedded depth assigned ts = some ms) (hnodup : (assigned.map Prod.fst).Nodup) :
    (ms.map Prod.fst).Nodup ∧ ∀ m ∈ ms, m ∈ assigned ∨
      ∃ t, (some m.1, t) ∈ ts ∧ value? embedded depth t = some m.2 := by
  induction ts generalizing assigned with
  | nil =>
      obtain rfl := Option.some.inj h
      exact ⟨hnodup, fun m hm => .inl hm⟩
  | cons p ts ih =>
      obtain ⟨name, t⟩ := p
      unfold members? at h
      split at h
      · rename_i name v hv
        obtain ⟨hnames, hmem⟩ := ih h (nodup_assign hnodup)
        refine ⟨hnames, fun m hm => ?_⟩
        rcases hmem m hm with hm | ⟨t', ht', hm⟩
        · rcases mem_assign hm with rfl | hm
          · exact .inr ⟨t, List.mem_cons_self .., hv⟩
          · exact .inl hm
        · exact .inr ⟨t', List.mem_cons_of_mem _ ht', hm⟩
      · cases h

/-- **A tree without the reserved name has a plain value.** -/
theorem isPlain_of_value? {sized : Nat → Prop} {t : Tree} {v : Json}
    (ht : t.Holds Numeral.IsInRange (· ≠ some embeddingName) sized)
    (h : value? embedded depth t = some v) : v.IsPlain sized depth := by
  induction ht generalizing depth v with
  | null =>
      obtain rfl := Option.some.inj h
      exact .null
  | bool b =>
      obtain rfl := Option.some.inj h
      exact .bool b
  | number hn =>
      obtain ⟨m, hm, rfl⟩ := Option.map_eq_some_iff.1 h
      exact .number (hn m hm)
  | string s =>
      obtain ⟨s, -, rfl⟩ := Option.map_eq_some_iff.1 h
      exact .string s
  | array size _ ih =>
      cases depth with
      | zero => cases h
      | succ depth =>
          obtain ⟨vs, hvs, rfl⟩ := Option.map_eq_some_iff.1 h
          obtain ⟨hlen, hmem⟩ := mem_of_items? hvs
          rw [List.length_nil, Nat.zero_add] at hlen
          refine .array (hlen ▸ size) fun v hv => ?_
          obtain ⟨t, ht, hv⟩ := (hmem v hv).resolve_left List.not_mem_nil
          exact ih t ht hv
  | @object members names _ ih =>
      cases depth with
      | zero => cases h
      | succ depth =>
          have hembedding : isEmbedding members = false := by
            unfold isEmbedding
            split
            · rename_i name t rest
              have hname := names _ (List.mem_cons_self ..)
              exact beq_eq_false_iff_ne.2 fun heq => hname (congrArg some heq)
            · rfl
          rw [value?, hembedding, if_neg Bool.false_ne_true] at h
          obtain ⟨ms, hms, rfl⟩ := Option.map_eq_some_iff.1 h
          obtain ⟨hnodup, hmem⟩ := mem_of_members? hms List.nodup_nil
          have htree (m : String × Json) (hm : m ∈ ms) :
              ∃ t, (some m.1, t) ∈ members ∧ value? embedded depth t = some m.2 :=
            (hmem m hm).resolve_left List.not_mem_nil
          refine .object hnodup (fun m hm hname => ?_) fun m hm => ?_
          · obtain ⟨t, ht, -⟩ := htree m hm
            exact names _ ht (congrArg some hname)
          · obtain ⟨t, ht, hv⟩ := htree m hm
            exact ih _ ht hv
  | fault => cases h

end Tree

/-- No member of an object in the text has the reserved name. -/
def NamesNoText (text : String) : Prop :=
  (outline text).root.NamesNoText

/-- **Texts without the reserved name denote plain values.** -/
theorem isPlain_of_read? {text : String} {v : Json} (hnames : NamesNoText text)
    (h : read? text = some v) : v.IsPlain (· ≤ text.toList.length) maxDepth := by
  rw [read?, readWithin] at h
  split at h
  · rename_i hcomplete
    have houtline : outline text = ⟨(outline text).root, true⟩ := by rw [← hcomplete]
    exact Tree.isPlain_of_value? ((isInRange_outline houtline).and hnames) h
  · cases h

/-- The text denotes the value, no member in it has the reserved name, and 64 bits count its
characters. -/
structure DenotesPlainly (text : String) (v : Json) : Prop where
  read : read? text = some v
  names : NamesNoText text
  length : text.toList.length ≤ Numeral.maxNatural

theorem DenotesPlainly.isCounted {text : String} {v : Json} (h : DenotesPlainly text v) :
    v.IsCounted maxDepth :=
  (isPlain_of_read? h.names h.read).resize fun _ hle => Nat.le_trans hle h.length

end CoachLedger.Json
