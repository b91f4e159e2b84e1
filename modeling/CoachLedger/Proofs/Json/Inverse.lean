/-
**Reading what was written.**

A value that is written is read back as it was if the numbers in it are, if the names in each of its
objects differ and none of them embeds a text, and if it is not nested too deeply.  Integers that
fit 64 bits are always read back; of the other numbers this has to be asked, since reading rounds
twice.

Main definitions:

* `CoachLedger.Json.readNested` — the value of a text within a depth;
* `CoachLedger.Json.Survives` — what makes a value be read back;
* `CoachLedger.Json.ComesBackAs` — the text of a value stands for a tree that has another value;
* `CoachLedger.Json.ComesBack` — the value is the one of a tree that its text stands for.

Main results:

* `CoachLedger.Json.Numeral.endsWord_of_read?` — a number is one word;
* `CoachLedger.Json.Numeral.read?_integer` — **integers are read back**;
* `CoachLedger.Json.readNested_text` — **what survives is read back as it was written**.
-/

import CoachLedger.Proofs.Json.Building
import CoachLedger.Json.Reader

set_option autoImplicit false

namespace CoachLedger.Json

/-- The value of a text that may have the given number of levels of arrays and objects. -/
def readNested (depth : Nat) (text : String) : Option Json :=
  let o := outline text
  if o.complete then o.root.value? read? depth else none

theorem readNested_eq_some {depth : Nat} {text : String} {v : Json} :
    readNested depth text = some v ↔
      ∃ t, outline text = ⟨t, true⟩ ∧ t.value? read? depth = some v := by
  unfold readNested
  obtain ⟨root, complete⟩ := outline text
  cases complete <;> simp

/-! ### Words -/

section

variable {cs : List Char}

/-- The rest of a word is collected. -/
theorem foldl_step_word (base : List Token) (reversed : List Char)
    (h : ∀ c ∈ cs, Scanner.endsWord c = false) :
    cs.foldl Scanner.step ⟨base, .word reversed⟩ = ⟨base, .word (cs.reverse ++ reversed)⟩ := by
  induction cs generalizing reversed with
  | nil => rfl
  | cons c cs ih =>
      rw [List.foldl_cons, Scanner.step_word, h c (by simp), if_neg Bool.false_ne_true,
        ih _ fun d hd => h d (by simp [hd])]
      simp

/-- **A word is one token.** -/
theorem scans_word (hne : cs ≠ []) (h : ∀ c ∈ cs, Scanner.endsWord c = false)
    (hword : Token.ofWord cs ≠ .fault) : Scans cs [Token.ofWord cs] := by
  intro base
  obtain ⟨c, rest, rfl⟩ := List.exists_cons_of_ne_nil hne
  have hc := h c (by simp)
  simp only [Scanner.endsWord, Bool.or_eq_false_iff, beq_eq_false_iff_ne,
    Option.isSome_eq_false_iff, Option.isNone_iff_eq_none] at hc
  have hopen : Scanner.step ⟨base, .between⟩ c = ⟨base, .word [c]⟩ := by
    simp [Scanner.step, Scanner.open_, hc.1.1, hc.1.2, hc.2]
  rw [List.foldl_cons, hopen, foldl_step_word _ _ fun d hd => h d (by simp [hd])]
  simp [Scanner.finish, Scanner.push, hword]

end

/-! ### Numbers -/

namespace Numeral

/-- The characters of numbers. -/
def IsNumeric (c : Char) : Prop :=
  c.isDigit = true ∨ c ∈ ['-', '+', '.', 'e', 'E']

/-- Words end before eleven characters. -/
theorem mem_of_endsWord {c : Char} (h : Scanner.endsWord c = true) :
    c ∈ [' ', '\t', '\n', '\r', '"', '[', ']', '\x7b', '\x7d', ':', ','] := by
  unfold Scanner.endsWord at h
  simp only [Bool.or_eq_true, beq_iff_eq, isGap] at h
  rcases h with (h | h) | h
  · simp only [List.mem_cons]
    tauto
  · simp [h]
  · unfold Token.punctuation? at h
    split at h
    all_goals first
      | exact absurd h Bool.false_ne_true
      | simp

theorem endsWord_of_isNumeric {c : Char} (h : IsNumeric c) : Scanner.endsWord c = false := by
  rw [← Bool.not_eq_true]
  intro hends
  have hmem := mem_of_endsWord hends
  simp only [List.mem_cons, List.not_mem_nil, or_false] at hmem
  unfold IsNumeric at h
  rcases hmem with rfl | rfl | rfl | rfl | rfl | rfl | rfl | rfl | rfl | rfl | rfl
  all_goals revert h; decide

/-- The characters of a text are digits or stand after its digits. -/
theorem mem_splitDigits {cs : List Char} {c : Char} (h : c ∈ cs) :
    c.isDigit = true ∨ c ∈ (Decimal.splitDigits cs).2 := by
  rw [← List.takeWhile_append_dropWhile (p := Char.isDigit) (l := cs)] at h
  rcases List.mem_append.1 h with h | h
  · exact .inl (List.all_eq_true.1 List.all_takeWhile c h)
  · exact .inr h

/-- After a sign there is what was read after it. -/
theorem isNumeric_of_splitSign {cs : List Char}
    (h : ∀ c ∈ (Decimal.splitSign cs).2, c.isDigit = true) : ∀ c ∈ cs, IsNumeric c := by
  unfold Decimal.splitSign at h
  split at h
  · exact List.forall_mem_cons.2 ⟨.inr (by decide), fun c hc => .inl (h c hc)⟩
  · exact List.forall_mem_cons.2 ⟨.inr (by decide), fun c hc => .inl (h c hc)⟩
  · exact fun c hc => .inl (h c hc)

theorem isNumeric_of_readExponent? {cs : List Char} {e : Int}
    (h : Decimal.readExponent? cs = some e) : ∀ c ∈ cs, IsNumeric c := by
  cases cs with
  | nil => simp
  | cons c cs =>
      by_cases hc : c = 'e' ∨ c = 'E'
      · simp only [Decimal.readExponent?, if_pos hc] at h
        have hdigits : ∀ d ∈ (Decimal.splitSign cs).2, d.isDigit = true := by
          split at h
          · rename_i hall
            exact List.all_eq_true.1 hall.2
          · cases h
        refine List.forall_mem_cons.2 ⟨?_, isNumeric_of_splitSign hdigits⟩
        rcases hc with rfl | rfl
        · exact .inr (by decide)
        · exact .inr (by decide)
      · simp only [Decimal.readExponent?, if_neg hc] at h
        cases h

/-- After the fraction there is what was read after it. -/
theorem isNumeric_of_splitFraction? {cs rest : List Char} {fraction : Option (List Char)}
    (h : splitFraction? cs = some (fraction, rest)) (hrest : ∀ c ∈ rest, IsNumeric c) :
    ∀ c ∈ cs, IsNumeric c := by
  unfold splitFraction? at h
  split at h
  · rename_i cs
    dsimp only at h
    split at h
    · cases h
    · obtain ⟨-, rfl⟩ := Prod.mk.inj (Option.some.inj h)
      refine List.forall_mem_cons.2 ⟨.inr (by decide), fun c hc => ?_⟩
      exact (mem_splitDigits hc).elim .inl (hrest c)
  · obtain ⟨-, rfl⟩ := Prod.mk.inj (Option.some.inj h)
    exact hrest

/-- **A number is one word.** -/
theorem endsWord_of_read? {word : List Char} {n : Option Numeral} (h : read? word = some n) :
    ∀ c ∈ word, Scanner.endsWord c = false := by
  -- After the minus, the digits and the fraction there is only an exponent.
  have hrest : ∀ c ∈ (Decimal.splitDigits (splitMinus word).2).2, IsNumeric c := by
    unfold read? at h
    dsimp only at h
    split at h
    · cases hf : splitFraction? (Decimal.splitDigits (splitMinus word).2).2 with
      | none =>
          rw [hf] at h
          cases h
      | some p =>
          rw [hf] at h
          obtain ⟨e, he, -⟩ := Option.map_eq_some_iff.1 h
          exact isNumeric_of_splitFraction? hf (isNumeric_of_readExponent? he)
    · cases h
  intro c hc
  refine endsWord_of_isNumeric ?_
  have hminus : c = '-' ∨ c ∈ (splitMinus word).2 := by
    unfold splitMinus
    split
    · simpa using hc
    · exact .inr hc
  rcases hminus with rfl | hc
  · exact .inr (by decide)
  · rcases mem_splitDigits hc with hdigit | hc
    · exact .inl hdigit
    · exact hrest c hc

/-- The digits of a number have no zero in front, unless they are that zero. -/
theorem plainWhole_digits (n : Nat) : plainWhole (Decimal.digits n) = true := by
  cases h : Decimal.digits n with
  | nil => exact absurd h (Decimal.digits_ne_nil n)
  | cons c cs =>
      by_cases hc : c = '0'
      · cases cs with
        | nil =>
            rw [hc]
            rfl
        | cons d ds =>
            have hne := Decimal.digits_head_ne (n := n) (by simp [h])
            rw [h] at hne
            exact absurd (congrArg some hc) hne
      · simp [plainWhole, hc]

theorem splitDigits_digits (n : Nat) :
    Decimal.splitDigits (Decimal.digits n) = (Decimal.digits n, []) := by
  have hall : ∀ c ∈ Decimal.digits n, c.isDigit = true := fun c hc =>
    Decimal.isDigit_of_mem_digits hc
  have h := Decimal.splitDigits_append hall Date.noDigitFirst_nil
  rwa [List.append_nil] at h

/-- The minus of a text that starts with a digit otherwise. -/
theorem splitMinus_signed (negative : Bool) {cs : List Char}
    (h : ∃ c, cs.head? = some c ∧ c.isDigit = true) :
    splitMinus (signed negative cs) = (negative, cs) := by
  cases negative with
  | true => rfl
  | false =>
      obtain ⟨c, hc, hdigit⟩ := h
      change splitMinus cs = _
      unfold splitMinus
      split
      · obtain rfl := Option.some.inj hc
        cases hdigit
      · rfl

/-- **Integers that fit 64 bits are read back.** -/
theorem read?_integer {i : Int} (hlow : -(maxNegated : Int) ≤ i) (hhigh : i ≤ maxNatural) :
    read? (integer i).text = some (some (integer i)) := by
  have hread (negative : Bool) (n : Nat) :
      read? (signed negative (Decimal.digits n)) = some (integer? negative (Decimal.digits n)) := by
    unfold read?
    simp [splitMinus_signed negative (head?_digits n), splitDigits_digits, plainWhole_digits,
      splitFraction?, Decimal.readExponent?]
  rw [text_integer, hread]
  unfold integer?
  rw [Decimal.ofDigits_digits]
  by_cases hneg : i < 0
  · have hne : i.natAbs ≠ 0 := by omega
    have hle : i.natAbs ≤ maxNegated := by omega
    have hi : -(i.natAbs : Int) = i := by omega
    rw [decide_eq_true hneg]
    simp only [if_true, if_neg hne, if_pos hle, hi]
  · have hle : i.natAbs ≤ maxNatural := by omega
    have hi : (i.natAbs : Int) = i := by omega
    rw [decide_eq_false hneg]
    simp only [Bool.false_eq_true, if_false, if_pos hle, hi]

end Numeral

/-! ### Values -/

/-- **The value is read back where that many levels of arrays and objects are left**: it has no more
of them, each number in it is read back, and the names in an object differ and embed no text. -/
def Survives : Nat → Json → Prop
  | _, number n => Numeral.read? n.text = some (some n)
  | 0, array _ | 0, object _ => False
  | depth + 1, array items => ∀ v ∈ items, Survives depth v
  | depth + 1, object members =>
      (members.map Prod.fst).Nodup ∧ members.head?.map Prod.fst ≠ some embeddingName ∧
        ∀ m ∈ members, Survives depth m.2
  | _, _ => True

/-- A word stands for what its token stands for. -/
theorem stands_word {word : List Char} {token : Token} {root : Tree}
    (hword : Token.ofWord word = token) (hne : word ≠ [])
    (hends : ∀ c ∈ word, Scanner.endsWord c = false) (hfault : token ≠ .fault)
    (hclose : token ≠ .closeArray)
    (hvalue : ∀ b : Builder, b.startValue token = b.complete root) : Stands word root := by
  refine ⟨[token], ?_, builds_token token root hclose hvalue⟩
  rw [← hword] at hfault ⊢
  exact scans_word hne hends hfault

theorem endsWord_eq_false_of_all {word : List Char}
    (h : (word.all fun c => !Scanner.endsWord c) = true) :
    ∀ c ∈ word, Scanner.endsWord c = false := by
  simpa using h

theorem stands_null : Stands null.chars .null :=
  stands_word rfl (by decide) (endsWord_eq_false_of_all rfl) (by decide) (by decide)
    fun _ => rfl

theorem stands_bool (b : Bool) : Stands (bool b).chars (.bool b) := by
  cases b with
  | false =>
      exact stands_word rfl (by decide) (endsWord_eq_false_of_all rfl) (by decide) (by decide)
        fun _ => rfl
  | true =>
      exact stands_word rfl (by decide) (endsWord_eq_false_of_all rfl) (by decide) (by decide)
        fun _ => rfl

/-- A number stands for what it is read as. -/
theorem stands_number {n m : Numeral} (h : Numeral.read? n.text = some (some m)) :
    Stands (number n).chars (.number (some m)) := by
  have hne {word : List Char} (hw : Numeral.read? word = none) : n.text ≠ word := by
    rintro rfl
    rw [h] at hw
    cases hw
  have hword : Token.ofWord n.text = .number (some m) := by
    rw [Token.ofWord, if_neg (hne (by decide)), if_neg (hne (by decide)), if_neg (hne (by decide)),
      h]
  have hchars : (number n).chars = n.text := by simp [chars, tokens, emit, Token.spell]
  rw [hchars]
  exact stands_word hword (hne (by decide)) (Numeral.endsWord_of_read? h) (by simp) (by simp)
    fun _ => rfl

theorem assign_of_not_mem {members : List (String × Json)} {name : String} (v : Json)
    (h : name ∉ members.map Prod.fst) : assign members name v = members ++ [(name, v)] := by
  induction members with
  | nil => rfl
  | cons m members ih =>
      obtain ⟨k, w⟩ := m
      have hk : k ≠ name := fun e => h (by simp [e])
      have hrest : name ∉ members.map Prod.fst := fun e => h (by simp [e])
      simp [assign, hk, ih hrest]

/-- The value is an array or an object. -/
def IsComposite : Json → Prop
  | array _ | object _ => True
  | _ => False

namespace Tree

variable {embedded : String → Option Json} {depth : Nat} {α : Type} {xs : List α}
  {name : α → String} {value : α → Json} {tree : α → Tree}

/-- Items that have values are read as these. -/
theorem items?_eq (h : ∀ x ∈ xs, value? embedded depth (tree x) = some (value x))
    (reversed : List Json) :
    items? embedded depth reversed (xs.map tree) = some (reversed.reverse ++ xs.map value) := by
  induction xs generalizing reversed with
  | nil => simp [items?]
  | cons x xs ih =>
      have hx := h x (by simp)
      have hrest := ih (fun y hy => h y (by simp [hy])) (value x :: reversed)
      rw [List.map_cons, items?, hx]
      simpa using hrest

/-- Members that have values and different names are read as these. -/
theorem members?_eq (h : ∀ x ∈ xs, value? embedded depth (tree x) = some (value x))
    (assigned : List (String × Json)) (hnodup : (assigned.map Prod.fst ++ xs.map name).Nodup) :
    members? embedded depth assigned (xs.map fun x => (some (name x), tree x)) =
      some (assigned ++ xs.map fun x => (name x, value x)) := by
  induction xs generalizing assigned with
  | nil => simp [members?]
  | cons x xs ih =>
      have hx := h x (by simp)
      have hnew : name x ∉ assigned.map Prod.fst := by
        intro hmem
        exact List.disjoint_of_nodup_append hnodup hmem (by simp)
      have hrest := ih (fun y hy => h y (by simp [hy])) (assigned ++ [(name x, value x)])
        (by simpa using hnodup)
      rw [List.map_cons, members?, assign_of_not_mem (value x) hnew, hrest]
      · simp
      · exact hx

/-- The tree is an array or an object. -/
def IsComposite : Tree → Prop
  | array _ | object _ => True
  | _ => False

theorem embeddedText?_eq_some {members : List (Option String × Tree)} {s : String} :
    embeddedText? members = some s ↔ ∃ name, members = [(name, .string (some s))] := by
  unfold embeddedText?
  split <;> simp_all

/-- **Only an object that embeds a text may stand for a value that has no parts itself.** -/
theorem value?_eq_some_iff_of_isComposite {t : Tree} {v : Json} (ht : t.IsComposite)
    (hv : ¬ v.IsComposite) :
    value? embedded (depth + 1) t = some v ↔
      ∃ s, t = .object [(some embeddingName, .string (some s))] ∧ embedded s = some v := by
  constructor
  · intro hvalue
    cases t with
    | array items =>
        obtain ⟨vs, -, rfl⟩ := Option.map_eq_some_iff.1 hvalue
        exact absurd trivial hv
    | object members =>
        rw [value?] at hvalue
        split at hvalue
        · rename_i hembedding
          obtain ⟨s, hs, hread⟩ := Option.bind_eq_some_iff.1 hvalue
          obtain ⟨name, rfl⟩ := embeddedText?_eq_some.1 hs
          cases name with
          | none => cases hembedding
          | some name =>
              obtain rfl := beq_iff_eq.1 hembedding
              exact ⟨s, rfl, hread⟩
        · obtain ⟨ms, -, rfl⟩ := Option.map_eq_some_iff.1 hvalue
          exact absurd trivial hv
    | _ => exact ht.elim
  · rintro ⟨s, rfl, hs⟩
    exact (value?_embedding embedded depth s).trans hs

end Tree

/-- The text of the value stands for a tree that has another value. -/
def ComesBackAs (depth : Nat) (v w : Json) : Prop :=
  ∃ t, Stands v.chars t ∧ ∀ embedded, Tree.value? embedded depth t = some w

/-- The text of the value stands for a tree that has it as its value. -/
def ComesBack (depth : Nat) (v : Json) : Prop :=
  ComesBackAs depth v v

section

variable {depth : Nat} {f : Json → Json}

/-- An array comes back if its items do. -/
theorem comesBackAs_array {items : List Json} (h : ∀ v ∈ items, ComesBackAs depth v (f v)) :
    ComesBackAs (depth + 1) (array items) (array (items.map f)) := by
  unfold ComesBackAs at h
  choose! tree hstands hvalue using h
  have harray := stands_array hstands
  rw [List.map_id'] at harray
  refine ⟨_, harray, fun embedded => ?_⟩
  have hread := Tree.items?_eq (fun v hv => hvalue v hv embedded) []
  simp [Tree.value?, hread]

/-- An object comes back if the values of its members do, its names differ and the first one is not
reserved. -/
theorem comesBackAs_object {members : List (String × Json)}
    (hnodup : (members.map Prod.fst).Nodup)
    (hhead : members.head?.map Prod.fst ≠ some embeddingName)
    (h : ∀ m ∈ members, ComesBackAs depth m.2 (f m.2)) :
    ComesBackAs (depth + 1) (object members) (object (members.map fun m => (m.1, f m.2))) := by
  unfold ComesBackAs at h
  choose! tree hstands hvalue using h
  have hobject : Stands (object (members.map fun m => (m.1, m.2))).chars _ :=
    stands_object hstands
  rw [List.map_id'] at hobject
  refine ⟨_, hobject, fun embedded => ?_⟩
  have hread := Tree.members?_eq (fun m hm => hvalue m hm embedded) [] hnodup
  have hplain : Tree.isEmbedding (members.map fun m => (some m.1, tree m)) = false := by
    cases members with
    | nil => rfl
    | cons m members => simpa [Tree.isEmbedding] using hhead
  simp [Tree.value?, hplain, hread]

/-- **What survives comes back.** -/
theorem Survives.comesBack {v : Json} (h : v.Survives depth) : v.ComesBack depth := by
  induction depth, v using Survives.induct with
  | case1 depth n =>
      rw [Survives] at h
      exact ⟨_, stands_number h, fun _ => rfl⟩
  | case2 items => exact h.elim
  | case3 members => exact h.elim
  | case4 depth items ih =>
      rw [Survives] at h
      have harray := comesBackAs_array (f := id) fun v hv => ih v (h v hv)
      rwa [List.map_id] at harray
  | case5 depth members ih =>
      rw [Survives] at h
      obtain ⟨hnodup, hhead, hmembers⟩ := h
      have hobject := comesBackAs_object (f := id) hnodup hhead fun m hm => ih m (hmembers m hm)
      have hself : (members.map fun m => (m.1, id m.2)) = members := List.map_id' members
      rwa [hself] at hobject
  | case6 depth v hnumber harray hobject harray' hobject' =>
      cases v with
      | null => exact ⟨_, stands_null, fun _ => rfl⟩
      | bool b => exact ⟨_, stands_bool b, fun _ => rfl⟩
      | number n => exact (hnumber n rfl).elim
      | string s => exact ⟨_, stands_string s, fun _ => rfl⟩
      | array items =>
          cases depth with
          | zero => exact (harray items rfl rfl).elim
          | succ depth => exact (harray' depth items rfl rfl).elim
      | object members =>
          cases depth with
          | zero => exact (hobject members rfl rfl).elim
          | succ depth => exact (hobject' depth members rfl rfl).elim

end

/-- The characters of a text that is written. -/
theorem toList_text (v : Json) : v.text.toList = v.chars :=
  String.toList_ofList

/-- **What survives is read back as it was written.** -/
theorem readNested_text {depth : Nat} {v : Json} (h : v.Survives depth) :
    readNested depth v.text = some v := by
  obtain ⟨t, hstands, hvalue⟩ := h.comesBack
  rw [← toList_text] at hstands
  exact readNested_eq_some.2 ⟨t, outline_eq_iff.2 hstands, hvalue read?⟩

end CoachLedger.Json
