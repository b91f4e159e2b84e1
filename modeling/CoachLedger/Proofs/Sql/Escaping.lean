/-
**Escaped needles in patterns.**

A pattern is matched by rules: `%` stands for any text and `_` for any character, a backslash takes
the meaning from the character after it, and every other character stands for itself, in either
case.  A needle that was escaped stands for itself by these rules, so that it is searched for
anywhere in a text, at its start, at its end or as the whole of it, depending on where a `%` stands
beside it.

The engine follows the rules with two exceptions.  It reads two noncharacters as the replacement
character, in the pattern and in the text, and it gives up on a pattern that is too long.  What it
does with NUL is another matter (`CoachLedger.Sql.matchesPattern_containing`).

Main definitions:

* `CoachLedger.Sql.Likes` — the rules of patterns;
* `CoachLedger.Sql.escapeInTurn` — escaping by three replacements, one after the other;
* `CoachLedger.Sql.Search` — where a needle is searched for, with the pattern and what it asks;
* `CoachLedger.Sql.like?` — what the engine answers.

Main results:

* `CoachLedger.Sql.accepts_pattern_iff` — matching is by the rules;
* `CoachLedger.Sql.escapeInTurn_eq` — **the three replacements are one escaping**;
* `CoachLedger.Sql.escape_injective` — different needles are escaped differently;
* `CoachLedger.Sql.likes_iff` — **escaped needles are found by the rules**;
* `CoachLedger.Sql.like?_eq` — when the engine finds them;
* `CoachLedger.Sql.like?_eq_truth` — that is what conditions on a text come to;
* `CoachLedger.Sql.escaping_isExact` — all of this in one statement.
-/

import CoachLedger.Proofs.Sql.Pattern
import Mathlib.Data.String.Basic

set_option autoImplicit false

namespace CoachLedger.Sql

/-! ### The rules of patterns -/

/-- **The rules of patterns**: the text is one that the pattern stands for. -/
inductive Likes : List Char → List Char → Prop
  | nil : Likes [] []
  /-- `%` stands for any text. -/
  | anyText {p back : List Char} (front : List Char) : Likes p back →
      Likes ('%' :: p) (front ++ back)
  /-- `_` stands for any character. -/
  | anyChar {p cs : List Char} (c : Char) : Likes p cs → Likes ('_' :: p) (c :: cs)
  /-- An escaped character stands for itself, in either case. -/
  | escaped {c d : Char} {p cs : List Char} : c.toLower = d.toLower → Likes p cs →
      Likes (escapeMark :: c :: p) (d :: cs)
  /-- So does a character without a meaning of its own. -/
  | plain {c d : Char} {p cs : List Char} : isSpecial c = false → c.toLower = d.toLower →
      Likes p cs → Likes (c :: p) (d :: cs)

theorem pattern_underscore (cs : List Char) : pattern ('_' :: cs) = .anyChar :: pattern cs := by
  rw [pattern.eq_def]
  simp [escapeMark]

theorem accepts_of_likes {p cs : List Char} (h : Likes p cs) : accepts (pattern p) cs = true := by
  induction h with
  | nil => rfl
  | @anyText p back front _ ih =>
      rw [pattern_percent, accepts, someEnd_iff]
      exact ⟨front, back, rfl, ih⟩
  | anyChar c _ ih =>
      rw [pattern_underscore, accepts]
      exact ih
  | escaped hc _ ih =>
      rw [pattern_mark, accepts, ih, sameFolded, hc]
      simp
  | plain hs hc _ ih =>
      rw [pattern_plain hs, accepts, ih, sameFolded, hc]
      simp

theorem likes_of_accepts {p cs : List Char} (h : accepts (pattern p) cs = true) : Likes p cs := by
  induction p using pattern.induct generalizing cs with
  | case1 =>
      have hnil : cs = [] := List.isEmpty_iff.1 h
      exact hnil ▸ .nil
  | case2 =>
      -- An escape mark at the end stands for nothing.
      cases cs <;> cases h
  | case3 d ds ih =>
      rw [pattern_mark] at h
      cases cs with
      | nil => cases h
      | cons c cs =>
          rw [accepts, Bool.and_eq_true, sameFolded, beq_iff_eq] at h
          exact .escaped h.1 (ih h.2)
  | case4 ps hmark ih =>
      rw [pattern_percent, accepts, someEnd_iff] at h
      obtain ⟨front, back, rfl, hback⟩ := h
      exact .anyText front (ih hback)
  | case5 ps hmark hpercent ih =>
      rw [pattern_underscore] at h
      cases cs with
      | nil => cases h
      | cons c cs => exact .anyChar c (ih h)
  | case6 c ps hmark hpercent hunderscore ih =>
      have hs : isSpecial c = false := by
        simp [isSpecial, hmark, hpercent, hunderscore]
      rw [pattern_plain hs] at h
      cases cs with
      | nil => cases h
      | cons d cs =>
          rw [accepts, Bool.and_eq_true, sameFolded, beq_iff_eq] at h
          exact .plain hs h.1 (ih h.2)

/-- **Matching is by the rules.** -/
theorem accepts_pattern_iff {p cs : List Char} : accepts (pattern p) cs = true ↔ Likes p cs :=
  ⟨likes_of_accepts, accepts_of_likes⟩

/-- The characters in lower case. -/
def lower (cs : List Char) : List Char := cs.map Char.toLower

@[simp] theorem lower_cons (c : Char) (cs : List Char) :
    lower (c :: cs) = c.toLower :: lower cs := rfl

theorem someEnd_lower (q : List Char → Bool) (cs : List Char) :
    someEnd q (lower cs) = someEnd (fun back => q (lower back)) cs := by
  induction cs with
  | nil => rfl
  | cons c cs ih => rw [lower_cons, someEnd, ih, someEnd, lower_cons]

theorem accepts_char_lower {ps qs : List Pattern}
    (h : ∀ cs, accepts qs (lower cs) = accepts ps cs) (c : Char) (cs : List Char) :
    accepts (.char c.toLower :: qs) (lower cs) = accepts (.char c :: ps) cs := by
  cases cs with
  | nil => rfl
  | cons d cs =>
      rw [lower_cons, accepts, accepts, h, sameFolded, sameFolded, toLower_toLower,
        toLower_toLower]

theorem accepts_lower (p cs : List Char) :
    accepts (pattern (lower p)) (lower cs) = accepts (pattern p) cs := by
  induction p using pattern.induct generalizing cs with
  | case1 => cases cs <;> rfl
  | case2 => cases cs <;> rfl
  | case3 d ds ih =>
      have hmark : escapeMark.toLower = escapeMark := rfl
      rw [lower_cons, lower_cons, hmark, pattern_mark, pattern_mark]
      exact accepts_char_lower ih d cs
  | case4 ps hmark ih =>
      have hpercent : '%'.toLower = '%' := rfl
      rw [lower_cons, hpercent, pattern_percent, pattern_percent, accepts, accepts, someEnd_lower]
      exact congrFun (congrArg someEnd (funext ih)) cs
  | case5 ps hmark hpercent ih =>
      have hunderscore : '_'.toLower = '_' := rfl
      rw [lower_cons, hunderscore, pattern_underscore, pattern_underscore]
      cases cs with
      | nil => rfl
      | cons c cs => exact ih cs
  | case6 c ps hmark hpercent hunderscore ih =>
      have hs : isSpecial c = false := by
        simp [isSpecial, hmark, hpercent, hunderscore]
      rw [lower_cons, pattern_plain hs, pattern_plain ((isSpecial_toLower c).trans hs)]
      exact accepts_char_lower ih c cs

/-! ### Escaping -/

/-- The characters with each occurrence of one of them replaced. -/
def replaceEach (c : Char) (replacement : List Char) (cs : List Char) : List Char :=
  cs.flatMap fun d => if d = c then replacement else [d]

/-- Escaping by three replacements, one after the other.  The marks are replaced first, so that
those that come in with the escapes are not replaced in turn. -/
def escapeInTurn (cs : List Char) : List Char :=
  replaceEach '_' [escapeMark, '_']
    (replaceEach '%' [escapeMark, '%'] (replaceEach escapeMark [escapeMark, escapeMark] cs))

theorem replaceEach_cons_self (c : Char) (replacement cs : List Char) :
    replaceEach c replacement (c :: cs) = replacement ++ replaceEach c replacement cs := by
  simp [replaceEach]

theorem replaceEach_cons_of_ne {c d : Char} (h : d ≠ c) (replacement cs : List Char) :
    replaceEach c replacement (d :: cs) = d :: replaceEach c replacement cs := by
  simp [replaceEach, h]

/-- **The three replacements are one escaping.** -/
theorem escapeInTurn_eq (cs : List Char) : escapeInTurn cs = escape cs := by
  induction cs with
  | nil => rfl
  | cons c cs ih =>
      unfold escapeInTurn at ih ⊢
      rw [escape_cons, ← ih]
      by_cases hmark : c = escapeMark
      · subst hmark
        simp [replaceEach_cons_self, replaceEach_cons_of_ne, escapeMark, isSpecial]
      · rw [replaceEach_cons_of_ne hmark]
        by_cases hpercent : c = '%'
        · subst hpercent
          simp [replaceEach_cons_self, replaceEach_cons_of_ne, escapeMark, isSpecial]
        · rw [replaceEach_cons_of_ne hpercent]
          by_cases hunderscore : c = '_'
          · subst hunderscore
            simp [replaceEach_cons_self, escapeMark, isSpecial]
          · rw [replaceEach_cons_of_ne hunderscore]
            simp [isSpecial, hmark, hpercent, hunderscore]

/-- The elements of an escaped text are its characters. -/
theorem pattern_escape (cs : List Char) : pattern (escape cs) = cs.map .char := by
  have h := pattern_escape_append cs []
  rwa [List.append_nil, pattern_nil, List.append_nil] at h

/-- **Different needles are escaped differently.** -/
theorem escape_injective : Function.Injective escape := by
  intro cs ds h
  have hchar : Function.Injective Pattern.char := fun _ _ => Pattern.char.inj
  have hmap : cs.map Pattern.char = ds.map Pattern.char := by
    rw [← pattern_escape, ← pattern_escape, h]
  exact List.map_injective_iff.2 hchar hmap

theorem escapeText_injective : Function.Injective escapeText := by
  intro s t h
  exact String.toList_injective (escape_injective (String.ofList_injective h))

/-- Each special character of a text takes another byte for its mark. -/
theorem utf8ByteSize_escapeText (s : String) :
    (escapeText s).utf8ByteSize = s.utf8ByteSize + s.toList.countP isSpecial := by
  have h (cs : List Char) :
      String.utf8Len (escape cs) = String.utf8Len cs + cs.countP isSpecial := by
    induction cs with
    | nil => rfl
    | cons c cs ih =>
        rw [escape_cons]
        by_cases hs : isSpecial c = true
        · have hmark : escapeMark.utf8Size = 1 := rfl
          simp [hs, ih, hmark]
          omega
        · simp [hs, ih]
          omega
  rw [escapeText, String.utf8ByteSize_ofList, h, ← String.utf8ByteSize_ofList,
    String.ofList_toList]

/-! ### Where a needle is searched for -/

/-- Where a needle is searched for in a text. -/
inductive Search
  | anywhere
  | start
  | finish
  | whole
deriving DecidableEq, Repr

namespace Search

/-- The characters before the needle in a pattern. -/
def before : Search → List Char
  | anywhere | finish => ['%']
  | start | whole => []

/-- The characters after the needle in a pattern. -/
def after : Search → List Char
  | anywhere | start => ['%']
  | finish | whole => []

/-- The pattern that searches for a needle. -/
def pattern (search : Search) (needle : String) : String :=
  String.ofList search.before ++ escapeText needle ++ String.ofList search.after

/-- The needle is there in the text. -/
def Finds (search : Search) (needle cs : List Char) : Prop :=
  match search with
  | anywhere => needle <:+: cs
  | start => needle <+: cs
  | finish => needle <:+ cs
  | whole => needle = cs

instance (search : Search) (needle cs : List Char) : Decidable (search.Finds needle cs) := by
  unfold Finds
  cases search <;> infer_instance

/-- These are the patterns of the text comparisons. -/
theorem pattern_eq (needle : String) :
    anywhere.pattern needle = Condition.containing needle ∧
      start.pattern needle = Condition.startingWith needle ∧
      finish.pattern needle = Condition.endingWith needle ∧
      whole.pattern needle = escapeText needle := by
  simp [pattern, before, after, Condition.containing, Condition.startingWith,
    Condition.endingWith]

theorem toList_pattern (search : Search) (needle : String) :
    (search.pattern needle).toList = search.before ++ (escape needle.toList ++ search.after) := by
  simp [pattern, escapeText]

end Search

/-! ### Escaped needles by the rules -/

theorem accepts_escape_iff {needle after cs : List Char} :
    accepts (pattern (escape needle ++ after)) cs = true ↔
      lower needle <+: lower cs ∧ accepts (pattern after) (cs.drop needle.length) = true := by
  rw [pattern_escape_append, accepts_chars, Bool.and_eq_true, List.isPrefixOf_iff_prefix]
  rfl

theorem accepts_percent_iff {p cs : List Char} :
    accepts (pattern ('%' :: p)) cs = true ↔
      ∃ back, back <:+ cs ∧ accepts (pattern p) back = true := by
  rw [pattern_percent, accepts, someEnd_iff]
  constructor
  · rintro ⟨front, back, rfl, h⟩
    exact ⟨back, List.suffix_append front back, h⟩
  · rintro ⟨back, ⟨front, rfl⟩, h⟩
    exact ⟨front, back, rfl, h⟩

/-- A needle with a `%` after it is searched for at the start. -/
theorem accepts_start_iff {needle cs : List Char} :
    accepts (pattern (escape needle ++ ['%'])) cs = true ↔ lower needle <+: lower cs := by
  rw [accepts_escape_iff]
  exact and_iff_left (accepts_anyText _)

/-- A needle on its own is searched for as the whole text. -/
theorem accepts_whole_iff {needle cs : List Char} :
    accepts (pattern (escape needle ++ [])) cs = true ↔ lower needle = lower cs := by
  rw [accepts_escape_iff, pattern_nil]
  constructor
  · rintro ⟨hstart, hempty⟩
    have hdrop : cs.drop needle.length = [] := List.isEmpty_iff.1 hempty
    refine hstart.eq_of_length_le ?_
    simpa [lower] using hdrop
  · intro h
    have hlength : needle.length = cs.length := by simpa [lower] using congrArg List.length h
    refine ⟨h ▸ List.prefix_refl _, ?_⟩
    rw [hlength, List.drop_length]
    rfl

/-- **The matcher finds escaped needles.** -/
theorem accepts_search_iff (search : Search) {needle cs : List Char} :
    accepts (pattern (search.before ++ (escape needle ++ search.after))) cs = true ↔
      search.Finds (lower needle) (lower cs) := by
  cases search with
  | start => exact accepts_start_iff
  | whole => exact accepts_whole_iff
  | anywhere =>
      refine accepts_percent_iff.trans ?_
      constructor
      · rintro ⟨back, hback, h⟩
        exact (accepts_start_iff.1 h).isInfix.trans (hback.map Char.toLower).isInfix
      · rintro ⟨front, rest, h⟩
        obtain ⟨x, y, hcs, -, hy⟩ := List.map_eq_append_iff.1 (List.append_assoc .. ▸ h).symm
        refine ⟨y, ⟨x, hcs.symm⟩, accepts_start_iff.2 ⟨rest, hy.symm⟩⟩
  | finish =>
      refine accepts_percent_iff.trans ?_
      constructor
      · rintro ⟨back, hback, h⟩
        have hwhole : lower needle = lower back := accepts_whole_iff.1 h
        exact hwhole ▸ hback.map Char.toLower
      · intro h
        obtain ⟨back, hback, hlower⟩ := List.suffix_map_iff.1 h
        exact ⟨back, hback, accepts_whole_iff.2 hlower⟩

/-- **Escaped needles are found by the rules.** -/
theorem likes_iff (search : Search) (needle s : String) :
    Likes (search.pattern needle).toList s.toList ↔
      search.Finds (Text.fold needle).toList (Text.fold s).toList := by
  rw [← accepts_pattern_iff, Search.toList_pattern, accepts_search_iff, Text.toList_fold,
    Text.toList_fold]
  rfl

/-! ### Escaped needles in the engine -/

/-- What the engine answers when it matches a text with a pattern: nothing if it gives up. -/
def like? (pattern_ s : String) : Option Bool :=
  if Condition.maxPatternBytes < pattern_.utf8ByteSize then none
  else some (matchesPattern pattern_ s)

theorem readChar_toLower (c : Char) : readChar c.toLower = (readChar c).toLower := by
  refine Char.toNat_inj.1 ?_
  rw [toNat_readChar, toNat_toLower, toNat_toLower, toNat_readChar]
  split_ifs <;> omega

theorem beforeNul_fold (s : String) : beforeNul (Text.fold s) = lower (beforeNul s) := by
  have hnul : (fun c : Char => c.toNat != 0) ∘ Char.toLower = fun c => c.toNat != 0 := by
    funext c
    rw [Function.comp_apply, Bool.eq_iff_iff, bne_iff_ne, bne_iff_ne, toNat_toLower]
    split <;> omega
  rw [beforeNul_eq, Text.toList_fold, cut, List.takeWhile_map, hnul, beforeNul_eq, cut, lower,
    List.map_map, List.map_map]
  exact List.map_congr_left fun c _ => readChar_toLower c

theorem matchesPattern_fold (p s : String) :
    matchesPattern (Text.fold p) (Text.fold s) = matchesPattern p s := by
  rw [matchesPattern, beforeNul_fold, beforeNul_fold, accepts_lower, matchesPattern]

/-- That is what a condition on a column with this text comes to, which folds both of them. -/
theorem like?_eq_truth {row : Row} {column s : String} (h : (row.cell column).text? = some s)
    (p : String) (unknownIs : Bool) :
    like? p s = if (Condition.like column p).overruns row unknownIs then none
      else (Condition.like column p).truth row := by
  have htruth : (Condition.like column p).truth row = some (matchesPattern p s) := by
    rw [Condition.truth, Condition.foldedText, h, Option.map_some, Option.map_some,
      matchesPattern_fold]
  rw [htruth, Condition.overruns, like?]
  simp only [decide_eq_true_eq]

/-- A text as the engine reads it. -/
def asRead (s : String) : String :=
  String.ofList (s.toList.map readChar)

/-- A text without noncharacters is read as it is. -/
theorem asRead_of_isReadable {s : String} (h : IsReadable s) : asRead s = s := by
  have hmap : s.toList.map readChar = s.toList := by
    refine (List.map_congr_left fun c hc => ?_).trans (List.map_id _)
    obtain ⟨-, hfffe, hffff⟩ := h c hc
    rw [readChar, if_neg (by omega), id]
  rw [asRead, hmap, String.ofList_toList]

/-- The size of a pattern. -/
theorem utf8ByteSize_pattern (search : Search) (needle : String) :
    (search.pattern needle).utf8ByteSize = needle.utf8ByteSize +
      needle.toList.countP isSpecial + (search.before.length + search.after.length) := by
  have hsign : (String.ofList ['%']).utf8ByteSize = 1 := rfl
  have hnone : (String.ofList []).utf8ByteSize = 0 := rfl
  rw [Search.pattern, String.utf8ByteSize_append, String.utf8ByteSize_append,
    utf8ByteSize_escapeText]
  cases search <;>
    simp only [Search.before, Search.after, hsign, hnone, List.length_cons, List.length_nil] <;>
    omega

/-- The elements of a pattern as the engine reads it. -/
theorem beforeNul_pattern (search : Search) {needle : String}
    (hn : hasNul needle.toList = false) : beforeNul (search.pattern needle) =
      search.before ++ (escape (asRead needle).toList ++ search.after) := by
  have hbefore (cs : List Char) : (cut (search.before ++ cs)).map readChar =
      search.before ++ (cut cs).map readChar := by
    cases search <;> rfl
  have hafter : (cut search.after).map readChar = search.after := by
    cases search <;> rfl
  rw [beforeNul_eq, Search.toList_pattern, hbefore, read_escape_append _ hafter,
    cut_of_hasNul hn, hn, asRead, String.toList_ofList]
  rfl

/-- **When the engine finds an escaped needle.** -/
theorem like?_eq (search : Search) {needle s : String} (hn : hasNul needle.toList = false)
    (hs : hasNul s.toList = false) :
    like? (search.pattern needle) s =
      if Condition.maxPatternBytes < needle.utf8ByteSize + needle.toList.countP isSpecial +
          (search.before.length + search.after.length) then none
      else some (decide (search.Finds (Text.fold (asRead needle)).toList
        (Text.fold (asRead s)).toList)) := by
  rw [like?, utf8ByteSize_pattern]
  split
  · rfl
  · refine congrArg some ?_
    rw [Bool.eq_iff_iff, decide_eq_true_eq, matchesPattern, beforeNul_pattern search hn,
      accepts_search_iff, beforeNul_eq, cut_of_hasNul hs, Text.toList_fold, Text.toList_fold]
    simp [lower, asRead]

/-! ### Exactness -/

/-- **Escaping is exact.**  By the rules of patterns an escaped needle is found where it is
searched for, whatever its characters and those of the text are, and the engine finds it there as
well if neither has a NUL.  But two noncharacters are to the engine what the replacement character
is, and it gives up on a pattern of more than 50000 bytes.  These are the patterns and the answers
of the text comparisons.  Different needles are escaped differently, by three replacements that come
to one escaping. -/
theorem escaping_isExact :
    (∀ (search : Search) (needle s : String), Likes (search.pattern needle).toList s.toList ↔
      search.Finds (Text.fold needle).toList (Text.fold s).toList) ∧
    (∀ (search : Search) (needle s : String), hasNul needle.toList = false →
      hasNul s.toList = false → like? (search.pattern needle) s =
        if Condition.maxPatternBytes < (search.pattern needle).utf8ByteSize then none
        else some (decide (search.Finds (Text.fold (asRead needle)).toList
          (Text.fold (asRead s)).toList))) ∧
    (∀ s : String, IsReadable s → asRead s = s) ∧
    (∀ (row : Row) (column s p : String) (unknownIs : Bool), (row.cell column).text? = some s →
      like? p s = if (Condition.like column p).overruns row unknownIs then none
        else (Condition.like column p).truth row) ∧
    (∀ needle : String, Search.anywhere.pattern needle = Condition.containing needle ∧
      Search.start.pattern needle = Condition.startingWith needle ∧
      Search.finish.pattern needle = Condition.endingWith needle ∧
      Search.whole.pattern needle = escapeText needle) ∧
    (∀ s : String, (escapeText s).toList = escapeInTurn s.toList) ∧
    Function.Injective escapeText := by
  refine ⟨likes_iff, ?_, fun s => asRead_of_isReadable, ?_, Search.pattern_eq, ?_,
    escapeText_injective⟩
  · intro search needle s hn hs
    rw [like?_eq search hn hs, utf8ByteSize_pattern]
  · intro row column s p unknownIs h
    exact like?_eq_truth h p unknownIs
  · intro s
    rw [escapeInTurn_eq, escapeText, String.toList_ofList]

/-- A needle of nothing but special characters, the last one a mark, is found at the end of a
text, and the same needle without its mark is not. -/
theorem escaping_isExact_specials :
    like? (Search.finish.pattern "50%_\\") "Up 50%_\\" = some true ∧
      like? (Search.finish.pattern "50%_") "Up 50%_\\" = some false := by
  obtain ⟨-, hlike, hread, -⟩ := escaping_isExact
  have hneedle : asRead "50%_\\" = "50%_\\" := hread _ (by decide)
  have hshorter : asRead "50%_" = "50%_" := hread _ (by decide)
  have htext : asRead "Up 50%_\\" = "Up 50%_\\" := hread _ (by decide)
  constructor
  · rw [hlike .finish _ _ (by decide) (by decide), hneedle, htext]
    decide
  · rw [hlike .finish _ _ (by decide) (by decide), hshorter, htext]
    decide

/-- A noncharacter is found in a text that does not have it, and a needle that is too long is not
found in itself. -/
theorem not_escaping_isExact :
    (hasNul "\uFFFE".toList = false ∧ hasNul "\uFFFD".toList = false ∧
      like? (Search.anywhere.pattern "\uFFFE") "\uFFFD" = some true ∧
      ¬ Search.anywhere.Finds (Text.fold "\uFFFE").toList (Text.fold "\uFFFD").toList) ∧
    like? (Search.whole.pattern (String.ofList (List.replicate 50001 'a')))
      (String.ofList (List.replicate 50001 'a')) = none := by
  refine ⟨⟨by decide, by decide, by decide, by decide⟩, ?_⟩
  have hsize (n : Nat) : (String.ofList (List.replicate n 'a')).utf8ByteSize = n := by
    rw [String.utf8ByteSize_ofList]
    induction n with
    | zero => rfl
    | succ n ih =>
        rw [List.replicate_succ, String.utf8Len_cons, ih]
        rfl
  have hmax : Condition.maxPatternBytes = 50000 := rfl
  rw [like?, utf8ByteSize_pattern, hsize, if_pos (by omega)]

end CoachLedger.Sql
