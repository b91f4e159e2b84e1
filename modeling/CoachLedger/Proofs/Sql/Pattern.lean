/-
**What the patterns of text filters match.**

A needle is escaped, put between `%` signs, folded to lower case and cut at its first NUL before it
is matched, and so is the text, the signs apart.  None of these steps touches the escapes, so that
what is left is a search for the needle itself.

A needle with a NUL loses the `%` after it.  Then the text has to end where the needle ends.

Main definitions:

* `CoachLedger.Sql.folded` — a text as patterns look at it;
* `CoachLedger.Sql.IsReadable` — a text that the engine reads as it is;
* `CoachLedger.Sql.found` — the search that a text comparison comes down to.

Main results:

* `CoachLedger.Sql.accepts_literal` — an escaped text matches itself only;
* `CoachLedger.Sql.matchesPattern_containing`, `CoachLedger.Sql.matchesPattern_startingWith`,
  `CoachLedger.Sql.matchesPattern_endingWith` — what the three kinds of patterns match;
* `CoachLedger.Sql.found_of_isReadable` — on readable texts that is the search of the program.
-/

import CoachLedger.Predicate.Basic
import CoachLedger.Sql.Truth
import Mathlib.Data.List.Infix

set_option autoImplicit false

namespace CoachLedger.Sql

/-! ### Characters -/

theorem toNat_toLower (c : Char) :
    c.toLower.toNat = if 65 ≤ c.toNat ∧ c.toNat ≤ 90 then c.toNat + 32 else c.toNat := by
  unfold Char.toLower
  split
  · rename_i h
    have hlow : 65 ≤ c.toNat := UInt32.le_iff_toNat_le.1 h.1
    have hhigh : c.toNat ≤ 90 := UInt32.le_iff_toNat_le.1 h.2
    have hsum : (c.val + 32).toNat = (c.toNat + 32) % 2 ^ 32 := UInt32.toNat_add ..
    rw [if_pos ⟨hlow, hhigh⟩]
    exact hsum.trans (Nat.mod_eq_of_lt (by omega))
  · rename_i h
    rw [if_neg]
    exact fun hn => h ⟨UInt32.le_iff_toNat_le.2 hn.1, UInt32.le_iff_toNat_le.2 hn.2⟩

theorem toLower_toLower (c : Char) : c.toLower.toLower = c.toLower := by
  refine Char.toNat_inj.1 ?_
  rw [toNat_toLower, if_neg]
  rw [toNat_toLower]
  split <;> omega

theorem isSpecial_iff (c : Char) :
    isSpecial c = true ↔ c.toNat = 37 ∨ c.toNat = 95 ∨ c.toNat = 92 := by
  simp only [isSpecial, escapeMark, Bool.or_eq_true, beq_iff_eq, ← Char.toNat_inj, or_assoc]
  rfl

@[simp] theorem isSpecial_toLower (c : Char) : isSpecial c.toLower = isSpecial c := by
  rw [Bool.eq_iff_iff, isSpecial_iff, isSpecial_iff, toNat_toLower]
  split <;> omega

theorem toLower_of_isSpecial {c : Char} (h : isSpecial c = true) : c.toLower = c := by
  refine Char.toNat_inj.1 ?_
  rw [isSpecial_iff] at h
  rw [toNat_toLower, if_neg (by omega)]

theorem toNat_readChar (c : Char) :
    (readChar c).toNat = if c.toNat = 0xFFFE ∨ c.toNat = 0xFFFF then 0xFFFD else c.toNat := by
  unfold readChar
  split <;> rfl

@[simp] theorem isSpecial_readChar (c : Char) : isSpecial (readChar c) = isSpecial c := by
  rw [Bool.eq_iff_iff, isSpecial_iff, isSpecial_iff, toNat_readChar]
  split <;> omega

theorem readChar_of_isSpecial {c : Char} (h : isSpecial c = true) : readChar c = c := by
  rw [isSpecial_iff] at h
  rw [readChar, if_neg (by omega)]

/-- A folded character stays as it is when it is folded again after it was read. -/
theorem toLower_readChar (c : Char) : (readChar c.toLower).toLower = readChar c.toLower := by
  rw [readChar]
  split
  · rfl
  · exact toLower_toLower c

/-! ### Escaped texts -/

@[simp] theorem escape_nil : escape [] = [] := rfl

theorem escape_cons (c : Char) (cs : List Char) :
    escape (c :: cs) = (if isSpecial c then [escapeMark, c] else [c]) ++ escape cs := by
  simp [escape]

/-- A map that keeps the special characters passes through the escapes. -/
theorem map_escape (f : Char → Char) (hs : ∀ c, isSpecial (f c) = isSpecial c)
    (hf : ∀ c, isSpecial c = true → f c = c) (cs : List Char) :
    (escape cs).map f = escape (cs.map f) := by
  induction cs with
  | nil => rfl
  | cons c cs ih =>
      rw [List.map_cons, escape_cons, escape_cons, List.map_append, ih, hs]
      by_cases h : isSpecial c = true
      · rw [if_pos h, if_pos h, List.map_cons, hf escapeMark rfl]
        rfl
      · rw [if_neg h, if_neg h]
        rfl

/-- The characters before the first NUL. -/
def cut (cs : List Char) : List Char :=
  cs.takeWhile fun c => c.toNat != 0

theorem beforeNul_eq (s : String) : beforeNul s = (cut s.toList).map readChar := rfl

theorem cut_cons {c : Char} (h : c.toNat ≠ 0) (cs : List Char) : cut (c :: cs) = c :: cut cs := by
  simp [cut, h]

theorem cut_cons_of_eq {c : Char} (h : c.toNat = 0) (cs : List Char) : cut (c :: cs) = [] := by
  simp [cut, h]

/-- The text has a NUL. -/
def hasNul (cs : List Char) : Bool :=
  cs.any fun c => c.toNat == 0

theorem cut_of_hasNul {cs : List Char} (h : hasNul cs = false) : cut cs = cs := by
  have hall : ∀ c ∈ cs, (c.toNat != 0) = true := by
    intro c hc
    simpa using List.any_eq_false.1 h c hc
  have happend : cut (cs ++ []) = cs ++ [] := List.takeWhile_append_of_pos hall
  rwa [List.append_nil] at happend

/-- What follows a needle goes if the needle has a NUL. -/
theorem cut_escape_append (cs rest : List Char) :
    cut (escape cs ++ rest) = escape (cut cs) ++ if hasNul cs then [] else cut rest := by
  induction cs with
  | nil => rfl
  | cons c cs ih =>
      -- A NUL is not special, so no escape is cut in two.
      by_cases h0 : c.toNat = 0
      · have hs : isSpecial c = false := by
          rw [Bool.eq_false_iff, Ne, isSpecial_iff]
          omega
        simp [escape_cons, hs, cut_cons_of_eq h0, hasNul, h0]
      · have hnul : hasNul (c :: cs) = hasNul cs := by simp [hasNul, h0]
        rw [escape_cons, cut_cons h0, escape_cons, hnul, List.append_assoc, List.append_assoc, ← ih]
        by_cases hs : isSpecial c = true
        · simp [hs, cut_cons h0, cut_cons (c := escapeMark) (by decide)]
        · simp [hs, cut_cons h0]

theorem hasNul_map_toLower (cs : List Char) : hasNul (cs.map Char.toLower) = hasNul cs := by
  have h (c : Char) : (c.toLower.toNat == 0) = (c.toNat == 0) := by
    rw [Bool.eq_iff_iff, beq_iff_eq, beq_iff_eq, toNat_toLower]
    split <;> omega
  simp [hasNul, List.any_map, Function.comp_def, h]

/-! ### Literal patterns -/

theorem pattern_nil : pattern [] = [] := rfl

theorem pattern_mark (c : Char) (cs : List Char) :
    pattern (escapeMark :: c :: cs) = .char c :: pattern cs := by
  rw [pattern.eq_def]
  simp

theorem pattern_percent (cs : List Char) : pattern ('%' :: cs) = .anyText :: pattern cs := by
  rw [pattern.eq_def]
  simp [escapeMark]

theorem pattern_plain {c : Char} (h : isSpecial c = false) (cs : List Char) :
    pattern (c :: cs) = .char c :: pattern cs := by
  simp only [isSpecial, Bool.or_eq_false_iff, beq_eq_false_iff_ne] at h
  obtain ⟨⟨hpercent, hunderscore⟩, hmark⟩ := h
  rw [pattern.eq_def]
  simp [hmark, hpercent, hunderscore]

/-- An escaped text is a pattern of characters that stand for themselves. -/
theorem pattern_escape_append (cs rest : List Char) :
    pattern (escape cs ++ rest) = cs.map .char ++ pattern rest := by
  induction cs with
  | nil => rfl
  | cons c cs ih =>
      rw [escape_cons, List.append_assoc]
      by_cases hs : isSpecial c = true
      · rw [if_pos hs, List.cons_append, List.cons_append, List.nil_append, pattern_mark, ih]
        rfl
      · rw [if_neg hs, List.cons_append, List.nil_append, pattern_plain (by simpa using hs), ih]
        rfl

/-- The characters are in lower case. -/
def IsLower (cs : List Char) : Prop :=
  ∀ c ∈ cs, c.toLower = c

/-- **An escaped text matches itself only**, in either case. -/
theorem accepts_chars (needle : List Char) (ps : List Pattern) (cs : List Char) :
    accepts (needle.map .char ++ ps) cs =
      ((needle.map Char.toLower).isPrefixOf (cs.map Char.toLower) &&
        accepts ps (cs.drop needle.length)) := by
  induction needle generalizing cs with
  | nil => simp
  | cons n ns ih =>
      cases cs with
      | nil => rfl
      | cons c cs =>
          rw [List.map_cons, List.cons_append, accepts, ih, sameFolded, List.map_cons,
            List.map_cons, List.isPrefixOf_cons_cons, Bool.and_assoc]
          rfl

theorem IsLower.map_toLower {cs : List Char} (h : IsLower cs) : cs.map Char.toLower = cs :=
  (List.map_congr_left h).trans (List.map_id cs)

/-- In lower case it matches nothing else at all. -/
theorem accepts_literal {needle : List Char} (hn : IsLower needle) (ps : List Pattern)
    {cs : List Char} (hc : IsLower cs) :
    accepts (needle.map .char ++ ps) cs =
      (needle.isPrefixOf cs && accepts ps (cs.drop needle.length)) := by
  rw [accepts_chars, hn.map_toLower, hc.map_toLower]

/-- `%` at the end matches everything. -/
theorem accepts_anyText (cs : List Char) : accepts [.anyText] cs = true := by
  rw [accepts, someEnd_iff]
  exact ⟨cs, [], by simp, rfl⟩

/-- Only the ends of the text are asked. -/
theorem someEnd_congr {p q : List Char → Bool} {cs : List Char}
    (h : ∀ back, back <:+ cs → p back = q back) : someEnd p cs = someEnd q cs := by
  induction cs with
  | nil => exact h [] List.suffix_rfl
  | cons c cs ih =>
      rw [someEnd, someEnd, h _ List.suffix_rfl,
        ih fun back hb => h back (hb.trans (List.suffix_cons c cs))]

theorem someEnd_isPrefixOf (needle cs : List Char) :
    someEnd (fun back => needle.isPrefixOf back) cs = Text.occursIn needle cs := by
  induction cs with
  | nil => cases needle <;> rfl
  | cons c cs ih => rw [someEnd, ih, Text.occursIn]

theorem someEnd_beq (needle cs : List Char) :
    someEnd (fun back => needle == back) cs = needle.isSuffixOf cs := by
  rw [Bool.eq_iff_iff, someEnd_iff, List.isSuffixOf_iff_suffix]
  constructor
  · rintro ⟨front, back, rfl, h⟩
    exact ⟨front, by rw [beq_iff_eq.1 h]⟩
  · rintro ⟨front, rfl⟩
    exact ⟨front, needle, rfl, beq_self_eq_true needle⟩

theorem isPrefixOf_and_isEmpty (needle cs : List Char) :
    (needle.isPrefixOf cs && (cs.drop needle.length).isEmpty) = (needle == cs) := by
  rw [Bool.eq_iff_iff, Bool.and_eq_true, List.isPrefixOf_iff_prefix, List.isEmpty_iff, beq_iff_eq]
  constructor
  · rintro ⟨⟨rest, rfl⟩, h⟩
    rw [List.drop_left] at h
    rw [h, List.append_nil]
  · rintro rfl
    exact ⟨List.prefix_refl _, List.drop_length⟩

/-! ### The three kinds of patterns -/

/-- A text as patterns look at it: in lower case, and cut at its first NUL. -/
def folded (s : String) : List Char :=
  beforeNul (Text.fold s)

theorem isLower_folded (s : String) : IsLower (folded s) := by
  intro c hc
  rw [folded, beforeNul_eq, Text.toList_fold] at hc
  obtain ⟨d, hd, rfl⟩ := List.mem_map.1 hc
  obtain ⟨x, -, rfl⟩ := List.mem_map.1 ((List.takeWhile_sublist _).subset hd)
  exact toLower_readChar x

/-- A needle with whatever follows it, cut and read. -/
theorem read_escape_append (cs : List Char) {rest : List Char}
    (hrest : (cut rest).map readChar = rest) :
    (cut (escape cs ++ rest)).map readChar =
      escape ((cut cs).map readChar) ++ if hasNul cs then [] else rest := by
  rw [cut_escape_append, List.map_append,
    map_escape _ isSpecial_readChar fun c => readChar_of_isSpecial]
  split
  · rfl
  · rw [hrest]

/-- A needle with whatever follows it, folded and cut. -/
theorem beforeNul_escape (s : String) (rest : List Char) (hr : rest = [] ∨ rest = ['%']) :
    (cut ((escape s.toList ++ rest).map Char.toLower)).map readChar =
      escape (folded s) ++ if hasNul s.toList then [] else rest := by
  have hlower : rest.map Char.toLower = rest := by
    rcases hr with rfl | rfl <;> rfl
  have hrest : (cut rest).map readChar = rest := by
    rcases hr with rfl | rfl <;> rfl
  rw [List.map_append, map_escape _ isSpecial_toLower fun c => toLower_of_isSpecial, hlower,
    read_escape_append _ hrest, hasNul_map_toLower, folded, beforeNul_eq, Text.toList_fold]

theorem beforeNul_percent (cs : List Char) :
    (cut (('%' :: cs).map Char.toLower)).map readChar =
      '%' :: (cut (cs.map Char.toLower)).map readChar := rfl

theorem toList_containing (s : String) :
    (Condition.containing s).toList = '%' :: (escape s.toList ++ ['%']) := by
  simp [Condition.containing, escapeText]

theorem toList_startingWith (s : String) :
    (Condition.startingWith s).toList = escape s.toList ++ ['%'] := by
  simp [Condition.startingWith, escapeText]

theorem toList_endingWith (s : String) :
    (Condition.endingWith s).toList = '%' :: (escape s.toList ++ []) := by
  simp [Condition.endingWith, escapeText]

/-- **What `%needle%` matches.** -/
theorem matchesPattern_containing (needle s : String) :
    matchesPattern (Text.fold (Condition.containing needle)) (Text.fold s) =
      if hasNul needle.toList then (folded needle).isSuffixOf (folded s)
      else Text.occursIn (folded needle) (folded s) := by
  have hlit (ps : List Pattern) : someEnd (accepts ((folded needle).map .char ++ ps)) (folded s) =
      someEnd (fun back => (folded needle).isPrefixOf back &&
        accepts ps (back.drop (folded needle).length)) (folded s) :=
    someEnd_congr fun back hb => accepts_literal (isLower_folded needle) ps
      fun c hc => isLower_folded s c (hb.subset hc)
  rw [matchesPattern, beforeNul_eq, Text.toList_fold, toList_containing, beforeNul_percent,
    beforeNul_escape needle _ (.inr rfl), pattern_percent, pattern_escape_append, accepts]
  -- With a NUL in the needle the last wildcard is cut off, and the match must reach the end.
  refine (hlit _).trans ?_
  split
  · simp only [pattern_nil, accepts, isPrefixOf_and_isEmpty]
    exact someEnd_beq _ _
  · simp only [pattern_percent, pattern_nil, accepts_anyText, Bool.and_true]
    exact someEnd_isPrefixOf _ _

/-- **What `needle%` matches.** -/
theorem matchesPattern_startingWith (needle s : String) :
    matchesPattern (Text.fold (Condition.startingWith needle)) (Text.fold s) =
      if hasNul needle.toList then folded needle == folded s
      else (folded needle).isPrefixOf (folded s) := by
  rw [matchesPattern, beforeNul_eq, Text.toList_fold, toList_startingWith,
    beforeNul_escape needle _ (.inr rfl), pattern_escape_append]
  refine (accepts_literal (isLower_folded needle) _ (isLower_folded s)).trans ?_
  split
  · simp only [pattern_nil, accepts, isPrefixOf_and_isEmpty]
  · simp only [pattern_percent, pattern_nil, accepts_anyText, Bool.and_true]

/-- **What `%needle` matches.** -/
theorem matchesPattern_endingWith (needle s : String) :
    matchesPattern (Text.fold (Condition.endingWith needle)) (Text.fold s) =
      (folded needle).isSuffixOf (folded s) := by
  rw [matchesPattern, beforeNul_eq, Text.toList_fold, toList_endingWith, beforeNul_percent,
    beforeNul_escape needle _ (.inl rfl), pattern_percent, pattern_escape_append, accepts, ite_self]
  refine (someEnd_congr fun back hb => accepts_literal (isLower_folded needle) _
    fun c hc => isLower_folded s c (hb.subset hc)).trans ?_
  simp only [pattern_nil, accepts, isPrefixOf_and_isEmpty]
  exact someEnd_beq _ _

/-! ### Text comparisons as searches -/

/-- The search that a text comparison of a text comes down to. -/
def found (s : String) : Comparison → Bool
  | .contains needle =>
      if hasNul needle.toList then (folded needle).isSuffixOf (folded s)
      else Text.occursIn (folded needle) (folded s)
  | .startsWith needle =>
      if hasNul needle.toList then folded needle == folded s
      else (folded needle).isPrefixOf (folded s)
  | .endsWith needle => (folded needle).isSuffixOf (folded s)
  | _ => false

/-- The text has no NUL, and none of the characters that the engine reads as another one. -/
def IsReadable (s : String) : Prop :=
  ∀ c ∈ s.toList, c.toNat ≠ 0 ∧ c.toNat ≠ 0xFFFE ∧ c.toNat ≠ 0xFFFF

instance (s : String) : Decidable (IsReadable s) :=
  List.decidableBAll (fun c : Char => c.toNat ≠ 0 ∧ c.toNat ≠ 0xFFFE ∧ c.toNat ≠ 0xFFFF) s.toList

theorem hasNul_of_isReadable {s : String} (h : IsReadable s) : hasNul s.toList = false := by
  refine List.any_eq_false.2 ?_
  intro c hc
  simpa using (h c hc).1

theorem folded_of_isReadable {s : String} (h : IsReadable s) :
    folded s = (Text.fold s).toList := by
  have hnul : hasNul (Text.fold s).toList = false := by
    rw [Text.toList_fold, hasNul_map_toLower, hasNul_of_isReadable h]
  have hread : ∀ c ∈ (Text.fold s).toList, readChar c = id c := by
    intro c hc
    rw [Text.toList_fold] at hc
    obtain ⟨d, hd, rfl⟩ := List.mem_map.1 hc
    have hn := h d hd
    rw [readChar, if_neg, id]
    rw [toNat_toLower]
    split <;> omega
  rw [folded, beforeNul_eq, cut_of_hasNul hnul, List.map_congr_left hread, List.map_id]

/-- **On readable texts the engine searches like the program.** -/
theorem found_of_isReadable {needle s : String} (hn : IsReadable needle) (hs : IsReadable s) :
    found s (.contains needle) = Text.contains (Text.fold needle) (Text.fold s) ∧
      found s (.startsWith needle) = Text.startsWith (Text.fold needle) (Text.fold s) ∧
      found s (.endsWith needle) = Text.endsWith (Text.fold needle) (Text.fold s) := by
  simp only [found, hasNul_of_isReadable hn, folded_of_isReadable hn, folded_of_isReadable hs,
    Bool.false_eq_true, if_false, Text.contains, Text.startsWith, Text.endsWith, and_self]

end CoachLedger.Sql
