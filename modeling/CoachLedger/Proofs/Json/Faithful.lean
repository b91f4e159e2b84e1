/-
**Canonical texts as keys.**

A value is written so that its text ends where the value does: the first character tells its kind,
a string ends at the first quote that is not escaped, a number at the first character that no number
has, and an array or object at its bracket.  So no text is the beginning of another one, and
different values are written differently.  Sorting the members drops nothing of a value but their
order, so that two values have the same canonical text if they are equal up to the order of members,
and only then.

Main definitions:

* `CoachLedger.Json.IsBoundary` — what may follow a number in a text;
* `CoachLedger.Json.kindOf?` — the kind of a value by the first character of its text;
* `CoachLedger.Json.SameUpToOrder` — equality up to the order of members.

Main results:

* `CoachLedger.Json.escaped_append_inj` — a string ends at the quote that follows it;
* `CoachLedger.Json.pieces_append_inj` — a list of texts is told apart by its pieces;
* `CoachLedger.Json.chars_append_inj` — **no text of a value is the beginning of another one**;
* `CoachLedger.Json.canonical_eq_iff` — values have the same canonical text if they are equal up to
  the order of members, and only then;
* `CoachLedger.Json.canonical_inj` — scalars with the same canonical text are the same;
* `CoachLedger.Json.canonical_isFaithful` — **canonical texts are faithful keys**, and reading one
  leads back to it.
-/

import CoachLedger.Proofs.Json.Equality
import CoachLedger.Proofs.Json.Inverse

set_option autoImplicit false

namespace CoachLedger.Json

/-! ### Texts one after the other -/

instance (c : Char) : Decidable (Numeral.IsNumeric c) :=
  inferInstanceAs (Decidable (_ ∨ _))

section

variable {r s : List Char}

/-- What follows a number in a text: nothing, or a character that no number has. -/
def IsBoundary (r : List Char) : Prop :=
  ∀ c ∈ r.head?, ¬Numeral.IsNumeric c

theorem isBoundary_nil : IsBoundary [] := by
  rintro c ⟨⟩

theorem isBoundary_cons {c : Char} (h : ¬Numeral.IsNumeric c) (r : List Char) :
    IsBoundary (c :: r) := by
  rintro d hd
  obtain rfl := Option.some.inj hd
  exact h

/-- Texts of numeric characters end where another character follows. -/
theorem numeric_append_inj {cs ds : List Char} (hcs : ∀ c ∈ cs, Numeral.IsNumeric c)
    (hds : ∀ c ∈ ds, Numeral.IsNumeric c) (hr : IsBoundary r) (hs : IsBoundary s)
    (h : cs ++ r = ds ++ s) : cs = ds ∧ r = s := by
  induction cs generalizing ds with
  | nil =>
      cases ds with
      | nil => exact ⟨rfl, h⟩
      | cons d ds =>
          rw [List.nil_append, List.cons_append] at h
          exact absurd (hds d (List.mem_cons_self ..)) (hr d (by rw [h]; rfl))
  | cons c cs ih =>
      cases ds with
      | nil =>
          rw [List.nil_append, List.cons_append] at h
          exact absurd (hcs c (List.mem_cons_self ..)) (hs c (by rw [← h]; rfl))
      | cons d ds =>
          obtain ⟨rfl, htail⟩ := List.cons.inj h
          obtain ⟨rfl, hrest⟩ := ih (fun a ha => hcs a (List.mem_cons_of_mem c ha))
            (fun a ha => hds a (List.mem_cons_of_mem c ha)) htail
          exact ⟨rfl, hrest⟩

/-- **Escaped texts end at the quote that follows.** -/
theorem escaped_append_inj {cs ds : List Char}
    (h : cs.flatMap Token.escapeChar ++ '"' :: r = ds.flatMap Token.escapeChar ++ '"' :: s) :
    cs = ds ∧ r = s := by
  -- A quote in the text is escaped, so that it starts with a backslash.
  have hquote (d : Char) (es t : List Char) : '"' :: t ≠ Token.escapeChar d ++ es := by
    intro heq
    have hread := Token.readEscaped?_escapeChar d es
    rw [← heq, Token.readEscaped?_plain (by decide), Option.some.injEq, Prod.mk.injEq] at hread
    obtain ⟨rfl, rfl⟩ := hread
    cases heq
  induction cs generalizing ds with
  | nil =>
      cases ds with
      | nil => exact ⟨rfl, (List.cons.inj h).2⟩
      | cons d ds =>
          rw [List.flatMap_cons, List.append_assoc] at h
          exact absurd h (hquote d _ _)
  | cons c cs ih =>
      cases ds with
      | nil =>
          rw [List.flatMap_cons, List.append_assoc] at h
          exact absurd h.symm (hquote c _ _)
      | cons d ds =>
          rw [List.flatMap_cons, List.flatMap_cons, List.append_assoc, List.append_assoc] at h
          have hread := Token.readEscaped?_escapeChar c (cs.flatMap Token.escapeChar ++ '"' :: r)
          rw [h, Token.readEscaped?_escapeChar, Option.some.injEq, Prod.mk.injEq] at hread
          obtain ⟨rfl, hrest⟩ := ih hread.2.symm
          exact ⟨by rw [hread.1], hrest⟩

end

/-! ### Numbers -/

namespace Numeral

/-- What reads as a decimal has the characters of numbers. -/
theorem isNumeric_of_decimalRead? {cs : List Char} {d : Bool × Decimal}
    (h : Decimal.read? cs = some d) : ∀ c ∈ cs, IsNumeric c := by
  -- After the sign, the digits and the fraction there is only an exponent.
  have hrest : ∀ c ∈ (Decimal.splitFraction (Decimal.splitDigits (Decimal.splitSign cs).2).2).2,
      IsNumeric c := by
    unfold Decimal.read? at h
    dsimp only at h
    split at h
    · cases h
    · obtain ⟨e, he, -⟩ := Option.map_eq_some_iff.1 h
      exact isNumeric_of_readExponent? he
  have hfraction : ∀ c ∈ (Decimal.splitDigits (Decimal.splitSign cs).2).2, IsNumeric c := by
    unfold Decimal.splitFraction at hrest
    split at hrest
    · rename_i ds heq
      rw [heq]
      refine List.forall_mem_cons.2 ⟨.inr (by decide), fun c hc => ?_⟩
      exact (mem_splitDigits hc).elim .inl (hrest c)
    · exact fun c hc => hrest c hc
  have hsign : ∀ c ∈ (Decimal.splitSign cs).2, IsNumeric c := fun c hc =>
    (mem_splitDigits hc).elim .inl (hfraction c)
  unfold Decimal.splitSign at hsign
  split at hsign
  · exact List.forall_mem_cons.2 ⟨.inr (by decide), hsign⟩
  · exact List.forall_mem_cons.2 ⟨.inr (by decide), hsign⟩
  · exact hsign

theorem isNumeric_text {n : Numeral} (h : n.IsProper) : ∀ c ∈ n.text, IsNumeric c := by
  have hsigned (negative : Bool) {cs : List Char} (hcs : ∀ c ∈ cs, IsNumeric c) :
      ∀ c ∈ signed negative cs, IsNumeric c := by
    cases negative with
    | true => exact List.forall_mem_cons.2 ⟨.inr (by decide), hcs⟩
    | false => exact hcs
  cases n with
  | integer i =>
      rw [text_integer]
      exact hsigned _ fun c hc => .inl (Decimal.isDigit_of_mem_digits hc)
  | float x =>
      cases x with
      | nan => cases h
      | signed negative rank le =>
          obtain ⟨d, hd, -⟩ := read?_magnitude rank
          rw [text_float]
          exact hsigned _ (isNumeric_of_decimalRead? hd)

end Numeral

/-! ### Lists of texts -/

section

variable {α : Type} {f : α → List Char} {P : α → Prop} {xs ys : List α} {r s : List Char}

/-- The text of `x` is told apart from all others, whatever follows. -/
def IsToldApart (f : α → List Char) (P : α → Prop) (x : α) : Prop :=
  ∀ y r s, P y → IsBoundary r → IsBoundary s → f x ++ r = f y ++ s → x = y ∧ r = s

/-- After a piece of a list there is a comma or the end. -/
theorem isBoundary_separated {close : Char} (hclose : ¬Numeral.IsNumeric close)
    (pieces : List (List Char)) (r : List Char) :
    IsBoundary (separated ',' false pieces ++ close :: r) := by
  cases pieces with
  | nil => exact isBoundary_cons hclose r
  | cons p pieces => exact isBoundary_cons (by decide) _

/-- The pieces after the first one are told apart, each at the comma or bracket that follows it. -/
theorem separated_append_inj {close : Char} (hclose : ¬Numeral.IsNumeric close)
    (hcomma : close ≠ ',') (hxs : ∀ x ∈ xs, IsToldApart f P x) (hys : ∀ y ∈ ys, P y)
    (h : separated ',' false (xs.map f) ++ close :: r =
      separated ',' false (ys.map f) ++ close :: s) : xs = ys ∧ r = s := by
  induction xs generalizing ys with
  | nil =>
      cases ys with
      | nil => exact ⟨rfl, (List.cons.inj h).2⟩
      | cons y ys => exact absurd (List.cons.inj h).1 hcomma
  | cons x xs ih =>
      cases ys with
      | nil => exact absurd (List.cons.inj h).1.symm hcomma
      | cons y ys =>
          obtain ⟨hx, hxs'⟩ := List.forall_mem_cons.1 hxs
          obtain ⟨hy, hys'⟩ := List.forall_mem_cons.1 hys
          simp only [List.map_cons, separated, Bool.false_eq_true, if_false, List.cons_append,
            List.append_assoc] at h
          obtain ⟨rfl, hrest⟩ := hx y _ _ hy (isBoundary_separated hclose _ _)
            (isBoundary_separated hclose _ _) (List.cons.inj h).2
          obtain ⟨rfl, hend⟩ := ih hxs' hys' hrest
          exact ⟨rfl, hend⟩

/-- **Lists are told apart if their pieces are.** -/
theorem pieces_append_inj {close : Char} (hclose : ¬Numeral.IsNumeric close) (hcomma : close ≠ ',')
    (hfirst : ∀ x, P x → ∃ c cs, f x = c :: cs ∧ c ≠ close) (hpxs : ∀ x ∈ xs, P x)
    (hxs : ∀ x ∈ xs, IsToldApart f P x) (hys : ∀ y ∈ ys, P y)
    (h : separated ',' true (xs.map f) ++ close :: r =
      separated ',' true (ys.map f) ++ close :: s) : xs = ys ∧ r = s := by
  -- An empty list has the closing bracket where another one has its first piece.
  have hempty {x : α} (hx : P x) (t u : List Char) : close :: t ≠ f x ++ u := by
    intro heq
    obtain ⟨c, cs, hc, hne⟩ := hfirst x hx
    rw [hc, List.cons_append] at heq
    exact hne (List.cons.inj heq).1.symm
  cases xs with
  | nil =>
      cases ys with
      | nil => exact ⟨rfl, (List.cons.inj h).2⟩
      | cons y ys =>
          simp only [List.map_cons, List.map_nil, separated, if_true, List.append_assoc] at h
          exact absurd h (hempty (hys y (List.mem_cons_self ..)) _ _)
  | cons x xs =>
      cases ys with
      | nil =>
          simp only [List.map_cons, List.map_nil, separated, if_true, List.append_assoc] at h
          exact absurd h.symm (hempty (hpxs x (List.mem_cons_self ..)) _ _)
      | cons y ys =>
          obtain ⟨hx, hxs'⟩ := List.forall_mem_cons.1 hxs
          obtain ⟨hy, hys'⟩ := List.forall_mem_cons.1 hys
          simp only [List.map_cons, separated, if_true, List.append_assoc] at h
          obtain ⟨rfl, hrest⟩ := hx y _ _ hy (isBoundary_separated hclose _ _)
            (isBoundary_separated hclose _ _) h
          obtain ⟨rfl, hend⟩ := separated_append_inj hclose hcomma hxs' hys' hrest
          exact ⟨rfl, hend⟩

end

/-! ### Values -/

/-- The kind of the values whose texts start with the character. -/
def kindOf? (c : Char) : Option Nat :=
  if c = '-' ∨ c.isDigit = true then some (number (.integer 0)).ctorIdx
  else
    match c with
    | 'n' => some null.ctorIdx
    | 't' | 'f' => some (bool true).ctorIdx
    | '"' => some (string "").ctorIdx
    | '[' => some (array []).ctorIdx
    | '\x7b' => some (object []).ctorIdx
    | _ => none

theorem chars_bool (b : Bool) : (bool b).chars = (Token.bool b).spell := by
  cases b <;> rfl

theorem chars_number (n : Numeral) : (number n).chars = n.text := by
  simp [chars, tokens, emit, Token.spell]

theorem chars_string (s : String) : (string s).chars = (Token.string (some s)).spell := by
  simp [chars, tokens, emit]

variable {v w : Json} {r s : List Char}

/-- **The first character of a text tells what kind of value it is.** -/
theorem exists_kindOf? (h : v.IsProper) :
    ∃ c cs, v.chars = c :: cs ∧ kindOf? c = some v.ctorIdx := by
  cases h with
  | null => exact ⟨'n', _, rfl, rfl⟩
  | bool b => cases b <;> exact ⟨_, _, chars_bool _, rfl⟩
  | number hn =>
      obtain ⟨c, hc, hdigit⟩ := Numeral.head?_text hn
      obtain ⟨cs, hcs⟩ := List.head?_eq_some_iff.1 hc
      exact ⟨c, cs, by rw [chars_number, hcs], if_pos hdigit⟩
  | string s => exact ⟨'"', _, chars_string s, rfl⟩
  | array _ => exact ⟨'[', _, chars_array _, rfl⟩
  | object _ _ => exact ⟨'\x7b', _, chars_object _, rfl⟩

/-- Texts of different kinds of values start in different ways. -/
theorem ctorIdx_eq_of_chars (hv : v.IsProper) (hw : w.IsProper)
    (h : v.chars ++ r = w.chars ++ s) : v.ctorIdx = w.ctorIdx := by
  obtain ⟨c, cs, hcs, hc⟩ := exists_kindOf? hv
  obtain ⟨d, ds, hds, hd⟩ := exists_kindOf? hw
  rw [hcs, hds] at h
  rw [(List.cons.inj h).1, hd] at hc
  exact (Option.some.inj hc).symm

/-- The text of a name or string ends at its second quote. -/
theorem spell_append_inj {a b : String}
    (h : (Token.string (some a)).spell ++ r = (Token.string (some b)).spell ++ s) :
    a = b ∧ r = s := by
  rw [Token.spell, Token.spell, List.cons_append, List.cons_append, List.append_assoc,
    List.append_assoc] at h
  obtain ⟨hchars, hrest⟩ := escaped_append_inj (List.cons.inj h).2
  exact ⟨String.toList_inj.1 hchars, hrest⟩

/-- **No text of a value is the beginning of another one.** -/
theorem chars_append_inj (hv : v.IsProper) (hw : w.IsProper) (hr : IsBoundary r)
    (hs : IsBoundary s) (h : v.chars ++ r = w.chars ++ s) : v = w ∧ r = s := by
  have hkind := ctorIdx_eq_of_chars hv hw h
  induction hv generalizing w r s with
  | null =>
      cases hw with
      | null => exact ⟨rfl, List.append_cancel_left h⟩
      | _ => cases hkind
  | bool b =>
      cases hw with
      | bool c =>
          rw [chars_bool, chars_bool] at h
          cases b with
          | true =>
              cases c with
              | true => exact ⟨rfl, List.append_cancel_left h⟩
              | false => cases h
          | false =>
              cases c with
              | true => cases h
              | false => exact ⟨rfl, List.append_cancel_left h⟩
      | _ => cases hkind
  | number hm =>
      cases hw with
      | number hn =>
          rw [chars_number, chars_number] at h
          obtain ⟨htext, hrest⟩ := numeric_append_inj (Numeral.isNumeric_text hm)
            (Numeral.isNumeric_text hn) hr hs h
          rw [Numeral.text_inj hm hn htext]
          exact ⟨rfl, hrest⟩
      | _ => cases hkind
  | string a =>
      cases hw with
      | string b =>
          rw [chars_string, chars_string] at h
          obtain ⟨rfl, hrest⟩ := spell_append_inj h
          exact ⟨rfl, hrest⟩
      | _ => cases hkind
  | array hxs ih =>
      cases hw with
      | array hys =>
          rw [chars_array, chars_array, List.cons_append, List.cons_append, List.append_assoc,
            List.append_assoc] at h
          have hfirst (x : Json) (hx : x.IsProper) : ∃ c cs, x.chars = c :: cs ∧ c ≠ ']' := by
            obtain ⟨c, cs, hc, hkind⟩ := exists_kindOf? hx
            refine ⟨c, cs, hc, ?_⟩
            rintro rfl
            cases hkind
          obtain ⟨rfl, hrest⟩ := pieces_append_inj (by decide) (by decide) hfirst hxs
            (fun x hx y _ _ hy hr hs h => ih x hx hy hr hs h (ctorIdx_eq_of_chars (hxs x hx) hy h))
            hys (List.cons.inj h).2
          exact ⟨rfl, hrest⟩
      | _ => cases hkind
  | @object ms hms hmembers ih =>
      cases hw with
      | object hns hmembers' =>
          rw [chars_object, chars_object, List.cons_append, List.cons_append, List.append_assoc,
            List.append_assoc] at h
          -- The name of a member ends at its quote, and the value is told apart by induction.
          have hmember (m : String × Json) (hm : m ∈ ms) :
              IsToldApart (fun m => memberChars m.1 m.2.chars) (fun m => m.2.IsProper) m := by
            intro n r s hn hr hs h
            dsimp only [memberChars] at h
            rw [List.append_assoc, List.append_assoc, List.append_assoc, List.append_assoc] at h
            obtain ⟨hname, hcolon⟩ := spell_append_inj h
            have hvalue := (List.cons.inj hcolon).2
            obtain ⟨hv, hrest⟩ := ih m hm hn hr hs hvalue
              (ctorIdx_eq_of_chars (hmembers m hm) hn hvalue)
            exact ⟨Prod.ext hname hv, hrest⟩
          obtain ⟨rfl, hrest⟩ := pieces_append_inj (by decide) (by decide)
            (fun m _ => ⟨'"', _, rfl, by decide⟩) hmembers hmember hmembers' (List.cons.inj h).2
          exact ⟨rfl, hrest⟩
      | _ => cases hkind

/-- **Values are written differently.** -/
theorem text_inj (hv : v.IsProper) (hw : w.IsProper) (h : v.text = w.text) : v = w := by
  have hchars := String.ofList_inj.1 h
  refine (chars_append_inj hv hw isBoundary_nil isBoundary_nil ?_).1
  rw [hchars]

/-! ### The order of members -/

/-- The numerals are of the same kind, both integers or both not, and are spelled alike. -/
def Numeral.IsSpelledAs (m n : Numeral) : Prop :=
  m.ctorIdx = n.ctorIdx ∧ m.text = n.text

/-- The values are equal up to the order of the members of objects, at every depth. -/
inductive SameUpToOrder : Json → Json → Prop
  | null : SameUpToOrder .null .null
  | bool (b : Bool) : SameUpToOrder (.bool b) (.bool b)
  | number {m n : Numeral} (h : m.IsSpelledAs n) : SameUpToOrder (.number m) (.number n)
  | string (s : String) : SameUpToOrder (.string s) (.string s)
  | array {xs ys : List Json} (length : xs.length = ys.length)
      (h : ∀ p ∈ xs.zip ys, SameUpToOrder p.1 p.2) : SameUpToOrder (.array xs) (.array ys)
  /-- The members of the first object can be put into an order in which they are, one by one, those
  of the second one. -/
  | object {ms ns ps : List (String × Json)} (perm : ps.Perm ms)
      (names : ps.map Prod.fst = ns.map Prod.fst)
      (h : ∀ p ∈ ps.zip ns, SameUpToOrder p.1.2 p.2.2) : SameUpToOrder (.object ms) (.object ns)

theorem WellFormed.sorted {allowed : Numeral → Prop} (h : WellFormed allowed v) :
    WellFormed allowed v.sorted := by
  induction h with
  | null => exact .null
  | bool b => exact .bool b
  | number hn => exact .number hn
  | string s => exact .string s
  | @array xs _ ih =>
      rw [Json.sorted, sortedItems_eq]
      exact .array (List.forall_mem_map.2 ih)
  | @object ms hnames _ ih =>
      rw [Json.sorted]
      have hperm := List.mergeSort_perm (sortedMembers ms) nameLE
      refine .object ?_ fun m hm => ?_
      · rw [(hperm.map Prod.fst).nodup_iff, names_sortedMembers]
        exact hnames
      · rw [hperm.mem_iff, sortedMembers_eq] at hm
        obtain ⟨n, hn, rfl⟩ := List.mem_map.1 hm
        exact ih n hn

/-- Sorted members are sorted already. -/
theorem sorted_sorted (h : v.IsProper) : v.sorted.sorted = v.sorted := by
  induction h with
  | array _ ih =>
      rw [sorted, sorted, sortedItems_eq, sortedItems_eq, List.map_map]
      exact congrArg array (List.map_congr_left ih)
  | @object ms hnames _ ih =>
      have hagain : sortedMembers (sortedMembers ms) = sortedMembers ms := by
        rw [sortedMembers_eq, sortedMembers_eq, List.map_map]
        exact List.map_congr_left fun m hm => Prod.ext rfl (ih m hm)
      have hperm :
          (sortedMembers ((sortedMembers ms).mergeSort nameLE)).Perm (sortedMembers ms) := by
        rw [sortedMembers_eq]
        refine ((List.mergeSort_perm _ _).map _).trans (List.Perm.of_eq ?_)
        rw [← sortedMembers_eq, hagain]
      rw [sorted, sorted]
      refine congrArg object (mergeSort_eq_of_perm ?_ hperm)
      rw [(hperm.map Prod.fst).nodup_iff, names_sortedMembers]
      exact hnames
  | _ => rfl

/-- **Values that are equal up to the order of members have the same sorted members.** -/
theorem SameUpToOrder.sorted_eq (h : v.SameUpToOrder w) (hv : v.IsProper) (hw : w.IsProper) :
    v.sorted = w.sorted := by
  induction h with
  | null => rfl
  | bool b => rfl
  | number h =>
      cases hv with
      | number hm =>
          cases hw with
          | number hn => rw [Numeral.text_inj hm hn h.2]
  | string s => rfl
  | array length _ ih =>
      have hxs := wellFormed_array_iff.1 hv
      have hys := wellFormed_array_iff.1 hw
      rw [sorted_array_iff, List.forall₂_iff_zip]
      refine ⟨length, fun {x y} hmem => ?_⟩
      obtain ⟨hx, hy⟩ := List.of_mem_zip hmem
      exact ih _ hmem (hxs x hx) (hys y hy)
  | @object ms ns ps perm names _ ih =>
      obtain ⟨hnames, hms⟩ := wellFormed_object_iff.1 hv
      obtain ⟨-, hns⟩ := wellFormed_object_iff.1 hw
      have hmembers : sortedMembers ps = sortedMembers ns := by
        rw [← List.forall₂_eq_eq_eq, List.forall₂_map_left_iff, List.forall₂_map_right_iff,
          List.forall₂_iff_zip] at names
        rw [sortedMembers_eq, sortedMembers_eq, ← List.forall₂_eq_eq_eq, List.forall₂_map_left_iff,
          List.forall₂_map_right_iff, List.forall₂_iff_zip]
        refine ⟨names.1, fun {m n} hmem => ?_⟩
        obtain ⟨hm, hn⟩ := List.of_mem_zip hmem
        have hname : m.1 = n.1 := names.2 hmem
        exact Prod.ext hname (ih _ hmem (hms m (perm.subset hm)) (hns n hn))
      rw [sorted_object_iff_perm hnames, ← hmembers, sortedMembers_eq, sortedMembers_eq]
      exact perm.symm.map _

/-- **Values with the same sorted members are equal up to the order of members.** -/
theorem sameUpToOrder_of_sorted_eq (hv : v.IsProper) (hw : w.IsProper)
    (h : v.sorted = w.sorted) : v.SameUpToOrder w := by
  induction hv generalizing w with
  | null => cases hw <;> first | exact .null | cases h
  | bool b =>
      cases hw with
      | bool c =>
          obtain rfl := Json.bool.inj h
          exact .bool b
      | _ => cases h
  | number _ =>
      cases hw with
      | number _ =>
          obtain rfl := Json.number.inj h
          exact .number ⟨rfl, rfl⟩
      | _ => cases h
  | string s =>
      cases hw with
      | string t =>
          obtain rfl := Json.string.inj h
          exact .string s
      | _ => cases h
  | array _ ih =>
      cases hw with
      | array hys =>
          rw [sorted_array_iff, List.forall₂_iff_zip] at h
          refine .array h.1 fun p hp => ?_
          obtain ⟨hx, hy⟩ := List.of_mem_zip hp
          exact ih _ hx (hys _ hy) (h.2 hp)
      | _ => cases h
  | @object ms hms _ ih =>
      cases hw with
      | @object ns _ hmembers =>
          rw [sorted_object_iff_perm hms, sortedMembers_eq, sortedMembers_eq] at h
          -- The members of the first object in the order of the second one.
          have hself : List.Forall₂ (fun (a : String × Json) m => a = (m.1, m.2.sorted))
              (ms.map fun m => (m.1, m.2.sorted)) ms := by
            rw [List.forall₂_map_left_iff, List.forall₂_same]
            exact fun m _ => rfl
          obtain ⟨ps, hps, hperm⟩ := List.perm_comp_forall₂ h.symm hself
          have hpairs := (List.forall₂_map_left_iff.1 hps).flip
          refine .object hperm ?_ fun p hp => ?_
          · rw [← List.forall₂_eq_eq_eq, List.forall₂_map_left_iff, List.forall₂_map_right_iff]
            exact hpairs.imp fun m n hmn => (Prod.mk.inj hmn).1.symm
          · obtain ⟨hm, hn⟩ := List.of_mem_zip hp
            obtain ⟨-, hsorted⟩ := Prod.mk.inj ((List.forall₂_iff_zip.1 hpairs).2 hp)
            exact ih _ (hperm.subset hm) (hmembers _ hn) hsorted.symm
      | _ => cases h

/-- **Canonical texts are the same for values that are equal up to the order of members, and for no
others.** -/
theorem canonical_eq_iff (hv : v.IsProper) (hw : w.IsProper) :
    v.canonical = w.canonical ↔ v.SameUpToOrder w :=
  ⟨fun h => sameUpToOrder_of_sorted_eq hv hw (text_inj hv.sorted hw.sorted h),
    fun h => congrArg text (h.sorted_eq hv hw)⟩

/-- Numbers of different kinds or signs are not the same. -/
example : (zero false).canonical ≠ (zero true).canonical ∧
    (zero false).canonical ≠ (ofInt 0).canonical := by decide

/-! ### Scalars -/

theorem IsScalar.isProper (h : v.IsScalar) : v.IsProper := by
  cases v with
  | null => exact .null
  | bool b => exact .bool b
  | number n => exact .number h
  | string s => exact .string s
  | array items => cases h
  | object members => cases h

theorem IsScalar.sorted_eq (h : v.IsScalar) : v.sorted = v := by
  cases v with
  | array items => cases h
  | object members => cases h
  | _ => rfl

/-- **Scalars with the same canonical text are the same.** -/
theorem canonical_inj (hv : v.IsScalar) (hw : w.IsScalar) (h : v.canonical = w.canonical) :
    v = w := by
  rw [canonical, canonical, hv.sorted_eq, hw.sorted_eq] at h
  exact text_inj hv.isProper hw.isProper h

/-! ### Reading canonical texts -/

/-- What comes back as another value is read as this value. -/
theorem ComesBackAs.read?_text (h : ComesBackAs maxDepth v w) : read? v.text = some w := by
  obtain ⟨t, hstands, hvalue⟩ := h
  rw [← toList_text] at hstands
  rw [read?, readWithin, outline_eq_iff.2 hstands]
  exact hvalue _

/-- What survives is read back from a text of its own. -/
theorem read?_text (h : v.Survives maxDepth) : read? v.text = some v :=
  h.comesBack.read?_text

/-- **A canonical text is a faithful key.**  Two values share it if they are equal up to the order
of members, and only then; and what it is read as has it again, be it by any reader that gives back
the value it was written from, or by `read?` if that value survives. -/
theorem canonical_isFaithful (hv : v.IsProper) (hw : w.IsProper) :
    (v.canonical = w.canonical ↔ v.SameUpToOrder w) ∧
    (∀ reader : String → Option Json, reader v.sorted.text = some v.sorted →
      (reader v.canonical).map canonical = some v.canonical) ∧
    (v.sorted.Survives maxDepth → (read? v.canonical).map canonical = some v.canonical) := by
  have hagain (reader : String → Option Json) (h : reader v.sorted.text = some v.sorted) :
      (reader v.canonical).map canonical = some v.canonical := by
    rw [canonical, h, Option.map_some, canonical, sorted_sorted hv]
  exact ⟨canonical_eq_iff hv hw, hagain, fun h => hagain read? (read?_text h)⟩

/-- An object with an object in a list in it, the members of both in one of two orders. -/
def nested (inOrder : Bool) : Json :=
  let ordered (ms : List (String × Json)) := if inOrder then ms else ms.reverse
  let inner := object (ordered [("p", .ofInt 1), ("q", bool true)])
  object (ordered [("a", array [inner, .ofInt (-2)]), ("b", null)])

theorem canonical_isFaithful_nested :
    ((nested false).IsProper ∧ (nested true).IsProper ∧
      (nested false).sorted.Survives maxDepth) ∧
    (nested false).SameUpToOrder (nested true) ∧
    (read? (nested false).canonical).map canonical = some (nested false).canonical := by
  have hint (i : Int) : (ofInt i).IsProper := .number trivial
  have hproper (inOrder : Bool) : (nested inOrder).IsProper := by
    cases inOrder <;>
      simp [nested, wellFormed_object_iff, wellFormed_array_iff, WellFormed.null, WellFormed.bool,
        hint]
  have hsorted (inOrder : Bool) : (nested inOrder).sorted = nested true := by
    have hab : (Text.order "a" "b").isLE = true ∧ (Text.order "b" "a").isLE = false := by decide
    have hpq : (Text.order "p" "q").isLE = true ∧ (Text.order "q" "p").isLE = false := by decide
    cases inOrder <;>
      simp [nested, sorted, sortedMembers, sortedItems, ofInt, List.mergeSort, nameLE, hab, hpq]
  have hsurvives : (nested false).sorted.Survives maxDepth := by
    rw [hsorted]
    have hone : (ofInt 1).Survives 124 := Numeral.read?_integer (by decide) (by decide)
    have htwo : (ofInt (-2)).Survives 125 := Numeral.read?_integer (by decide) (by decide)
    simp [nested, maxDepth, Survives, embeddingName, hone, htwo]
  obtain ⟨hsame, -, hread⟩ := canonical_isFaithful (hproper false) (hproper true)
  refine ⟨⟨hproper false, hproper true, hsurvives⟩, hsame.1 ?_, hread hsurvives⟩
  rw [canonical, canonical, hsorted, hsorted]

end CoachLedger.Json
