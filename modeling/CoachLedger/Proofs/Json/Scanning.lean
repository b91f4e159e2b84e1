/-
**Scanning a text within a text.**

The scanner looks at one character after the other, and what it has collected before does not
matter to it.  A text whose tokens have no fault therefore has the same tokens wherever it stands
in another text, as long as it begins between two tokens and is followed by punctuation: a word at
its end is only complete there.  Strings are scanned as the texts that were escaped.

Main definitions:

* `CoachLedger.Json.Scans` — a text has the given tokens wherever it stands;
* `CoachLedger.Json.ScansOut` — and it ends between two tokens;
* `CoachLedger.Json.separated` — lists one after the other, with a separator between them.

Main results:

* `CoachLedger.Json.Scanner.step_atop` — the scanner does not look at what it has collected;
* `CoachLedger.Json.scans_of_scan` — **a text without a fault has its tokens wherever it stands**;
* `CoachLedger.Json.scansOut_string` — a string is scanned as the text that was escaped;
* `CoachLedger.Json.scansOut_separated` — texts with commas between them.
-/

import CoachLedger.Json.Tree
import CoachLedger.Proofs.Json.Scalar

set_option autoImplicit false

namespace CoachLedger.Json

/-! ### What has been collected -/

namespace Scanner

variable {s : Scanner} {c : Char}

/-- The scanner, with tokens that it has collected before. -/
def atop (s : Scanner) (base : List Token) : Scanner :=
  ⟨s.tokens ++ base, s.mode⟩

theorem open_atop (s : Scanner) (base : List Token) (c : Char) :
    (s.atop base).open_ c = (s.open_ c).atop base := by
  unfold open_
  split_ifs
  · rfl
  · rfl
  · cases Token.punctuation? c <;> rfl

/-- A word ends before a blank, a quote or punctuation. -/
def endsWord (c : Char) : Bool :=
  isGap c || c == '"' || (Token.punctuation? c).isSome

/-- The end of a word is the end of a token, unless the word is a fault. -/
theorem step_word (tokens : List Token) (reversed : List Char) (c : Char) :
    step ⟨tokens, .word reversed⟩ c =
      if endsWord c = true then
        if Token.ofWord reversed.reverse = .fault then ⟨.fault :: tokens, .dead⟩
        else open_ ⟨.ofWord reversed.reverse :: tokens, .between⟩ c
      else ⟨tokens, .word (c :: reversed)⟩ := by
  unfold step push endsWord
  by_cases h : Token.ofWord reversed.reverse = .fault <;> simp [h]

/-- **The scanner does not look at what it has collected.** -/
theorem step_atop (s : Scanner) (base : List Token) (c : Char) :
    (s.atop base).step c = (s.step c).atop base := by
  obtain ⟨tokens, mode⟩ := s
  cases mode with
  | between => exact open_atop ⟨tokens, .between⟩ base c
  | word reversed =>
      rw [atop, step_word, step_word]
      split_ifs
      · rfl
      · exact open_atop ⟨.ofWord reversed.reverse :: tokens, .between⟩ base c
      · rfl
  | string reversed high =>
      simp only [atop, step]
      split_ifs <;> rfl
  | escape reversed high =>
      simp only [atop, step]
      split_ifs
      · rfl
      · cases unescape? c <;> rfl
  | hex reversed high count value =>
      simp only [atop, step]
      cases Text.hexValue? c with
      | none => rfl
      | some d =>
          dsimp only
          split_ifs <;> rfl
  | dead => rfl

theorem foldl_step_atop (s : Scanner) (base : List Token) (cs : List Char) :
    cs.foldl step (s.atop base) = (cs.foldl step s).atop base := by
  induction cs generalizing s with
  | nil => rfl
  | cons c cs ih => rw [List.foldl_cons, List.foldl_cons, step_atop, ih]

theorem finish_atop (s : Scanner) (base : List Token) :
    (s.atop base).finish = s.finish.atop base := by
  obtain ⟨tokens, mode⟩ := s
  cases mode <;> rfl

/-! ### Faults -/

/-- After a fault the fault is the last token. -/
def Marked (s : Scanner) : Prop :=
  s.mode = .dead → s.tokens.head? = some .fault

theorem marked_push (s : Scanner) (t : Token) : (s.push t).Marked := by
  intro h
  unfold push at h ⊢
  by_cases ht : t = .fault
  · rw [ht]
    rfl
  · simp [ht] at h

theorem marked_open (s : Scanner) (c : Char) : (s.open_ c).Marked := by
  unfold open_
  split_ifs
  · rintro ⟨⟩
  · rintro ⟨⟩
  · cases Token.punctuation? c with
    | none => rintro ⟨⟩
    | some t => exact marked_push s t

theorem marked_step (h : s.Marked) (c : Char) : (s.step c).Marked := by
  obtain ⟨tokens, mode⟩ := s
  cases mode with
  | between => exact marked_open _ _
  | word reversed =>
      rw [step_word]
      split_ifs
      · exact fun _ => rfl
      · exact marked_open _ _
      · rintro ⟨⟩
  | string reversed high =>
      simp only [step]
      split_ifs
      · exact marked_push _ _
      · rintro ⟨⟩
      · exact marked_push _ _
      · rintro ⟨⟩
  | escape reversed high =>
      simp only [step]
      split_ifs
      · rintro ⟨⟩
      · cases unescape? c with
        | none => exact marked_push _ _
        | some d => rintro ⟨⟩
  | hex reversed high count value =>
      simp only [step]
      cases Text.hexValue? c with
      | none => exact marked_push _ _
      | some d =>
          dsimp only
          split_ifs
          · unfold afterHex
            split_ifs
            · cases high <;> rintro ⟨⟩
            · rintro ⟨⟩
            · rintro ⟨⟩
          · rintro ⟨⟩
  | dead => exact h

theorem marked_finish (h : s.Marked) : s.finish.Marked := by
  obtain ⟨tokens, mode⟩ := s
  cases mode <;> first | exact h | exact marked_push _ _

theorem marked_foldl (h : s.Marked) (cs : List Char) : (cs.foldl step s).Marked := by
  induction cs generalizing s with
  | nil => exact h
  | cons c cs ih => exact ih (marked_step h c)

/-- At the end the scanner is between two tokens, unless there was a fault. -/
theorem mode_finish (s : Scanner) : s.finish.mode = .between ∨ s.finish.mode = .dead := by
  have hpush (s : Scanner) (t : Token) : (s.push t).mode = .between ∨ (s.push t).mode = .dead := by
    unfold push
    dsimp only
    split_ifs
    · exact .inr rfl
    · exact .inl rfl
  obtain ⟨tokens, mode⟩ := s
  cases mode with
  | between => exact .inl rfl
  | dead => exact .inr rfl
  | _ => exact hpush _ _

/-! ### Ends of words -/

/-- What follows the end of a word is looked at as if the word had been complete before. -/
theorem step_of_endsWord (hs : s.finish.mode = .between) (hc : endsWord c = true) :
    s.step c = s.finish.open_ c := by
  obtain ⟨tokens, mode⟩ := s
  cases mode with
  | between => rfl
  | word reversed =>
      have hword : Token.ofWord reversed.reverse ≠ .fault := by
        intro h
        simp [finish, push, h] at hs
      rw [step_word, if_pos hc, if_neg hword]
      simp [finish, push, hword]
  | dead => cases hs
  | _ => cases hs

theorem open_of_punctuation {t : Token} (h : Token.punctuation? c = some t) (s : Scanner) :
    s.open_ c = ⟨t :: s.tokens, .between⟩ := by
  unfold Token.punctuation? at h
  split at h
  all_goals first
    | (obtain rfl := Option.some.inj h; rfl)
    | cases h

end Scanner

/-! ### Tokens wherever a text stands -/

/-- The text has the given tokens wherever it stands, once it is known that its last word ends
there. -/
def Scans (cs : List Char) (ts : List Token) : Prop :=
  ∀ base, (cs.foldl Scanner.step ⟨base, .between⟩).finish = ⟨ts.reverse ++ base, .between⟩

/-- The text has the given tokens wherever it stands. -/
def ScansOut (cs : List Char) (ts : List Token) : Prop :=
  ∀ base, cs.foldl Scanner.step ⟨base, .between⟩ = ⟨ts.reverse ++ base, .between⟩

section

variable {cs ds : List Char} {ts us : List Token} {c : Char} {t : Token}

theorem ScansOut.scans (h : ScansOut cs ts) : Scans cs ts := by
  intro base
  rw [h base]
  rfl

theorem ScansOut.append (h : ScansOut cs ts) (h' : ScansOut ds us) :
    ScansOut (cs ++ ds) (ts ++ us) := by
  intro base
  rw [List.foldl_append, h base, h' _, List.reverse_append, List.append_assoc]

theorem ScansOut.append_scans (h : ScansOut cs ts) (h' : Scans ds us) :
    Scans (cs ++ ds) (ts ++ us) := by
  intro base
  rw [List.foldl_append, h base, h' _, List.reverse_append, List.append_assoc]

/-- Punctuation ends the last word of a text. -/
theorem Scans.punctuation (h : Scans cs ts) (hc : Token.punctuation? c = some t) :
    ScansOut (cs ++ [c]) (ts ++ [t]) := by
  intro base
  have hends : Scanner.endsWord c = true := by simp [Scanner.endsWord, hc]
  rw [List.foldl_append, List.foldl_cons, List.foldl_nil,
    Scanner.step_of_endsWord (by rw [h base]) hends, h base, Scanner.open_of_punctuation hc,
    List.reverse_append, List.reverse_singleton, List.singleton_append, List.cons_append]

theorem scansOut_nil : ScansOut [] [] := fun _ => rfl

theorem scansOut_punctuation (hc : Token.punctuation? c = some t) : ScansOut [c] [t] :=
  scansOut_nil.scans.punctuation hc

/-- **A text without a fault has its tokens wherever it stands.** -/
theorem scans_of_scan (h : ∀ t ∈ (Token.scan cs).getLast?, t ≠ .fault) :
    Scans cs (Token.scan cs) := by
  intro base
  have hmarked : ((cs.foldl Scanner.step .initial).finish).Marked :=
    Scanner.marked_finish (Scanner.marked_foldl (by rintro ⟨⟩) cs)
  have hmode : (cs.foldl Scanner.step .initial).finish.mode = .between := by
    refine (Scanner.mode_finish _).resolve_right fun hdead => ?_
    refine h .fault ?_ rfl
    rw [Token.scan, List.getLast?_reverse]
    exact hmarked hdead
  have hatop := Scanner.foldl_step_atop .initial base cs
  have hinitial : Scanner.initial.atop base = ⟨base, .between⟩ := rfl
  rw [hinitial] at hatop
  rw [hatop, Scanner.finish_atop, Token.scan, List.reverse_reverse, Scanner.atop, hmode]

/-! ### Strings -/

/-- One character of a string is read as it was before it was escaped. -/
theorem foldl_step_escapeChar (base : List Token) (reversed : List Char) (c : Char) :
    (Token.escapeChar c).foldl Scanner.step ⟨base, .string (some reversed) none⟩ =
      ⟨base, .string (some (c :: reversed)) none⟩ := by
  unfold Token.escapeChar
  -- Two letters after a backslash stand for one of seven characters.
  iterate 7
    split
    · rename_i h
      rw [h]
      rfl
  rename_i hquote hbackslash _ _ _ _ _
  split
  · rename_i h
    obtain ⟨hhigh, hlow, hsum⟩ := Text.hexValue?_hexDigits (n := c.toNat) (by omega)
    have hzero : Text.hexValue? '0' = some 0 := by decide
    have hafter : Scanner.afterHex (some reversed) none c.toNat =
        .string (some (c :: reversed)) none := by
      have hplain : ¬ (0xDC00 ≤ c.toNat ∧ c.toNat ≤ 0xDFFF) := by omega
      have hplain' : ¬ (0xD800 ≤ c.toNat ∧ c.toNat ≤ 0xDBFF) := by omega
      simp [Scanner.afterHex, hplain, hplain', Scanner.settle, Scanner.extend, Char.ofNat_toNat]
    simp [Scanner.step, hhigh, hlow, hzero, hsum, hafter]
  · rename_i hcontrol
    simp [Scanner.step, hquote, hbackslash, hcontrol, Scanner.settle, Scanner.extend]

theorem foldl_step_flatMap_escapeChar (base : List Token) (reversed cs : List Char) :
    (cs.flatMap Token.escapeChar).foldl Scanner.step ⟨base, .string (some reversed) none⟩ =
      ⟨base, .string (some (cs.reverse ++ reversed)) none⟩ := by
  induction cs generalizing reversed with
  | nil => rfl
  | cons c cs ih =>
      rw [List.flatMap_cons, List.foldl_append, foldl_step_escapeChar, ih, List.reverse_cons,
        List.append_assoc, List.singleton_append]

/-- **A string is scanned as the text that was escaped.** -/
theorem scansOut_string (s : String) :
    ScansOut (Token.string (some s)).spell [.string (some s)] := by
  intro base
  rw [Token.spell, List.foldl_cons, List.foldl_append]
  have hopen : Scanner.step ⟨base, .between⟩ '"' = ⟨base, .string (some []) none⟩ := rfl
  rw [hopen, foldl_step_flatMap_escapeChar, List.append_nil]
  simp [Scanner.step, Scanner.settle, Scanner.push]

/-! ### Lists of texts -/

/-- Lists one after the other, with a separator before each of them but for the first one. -/
def separated {α : Type} (separator : α) (first : Bool) : List (List α) → List α
  | [] => []
  | x :: xs => (if first then x else separator :: x) ++ separated separator false xs

/-- Texts with commas between them, up to a closing bracket. -/
theorem Scans.separated {close : Char} {t : Token} (hclose : Token.punctuation? close = some t)
    {pieces : List (List Char × List Token)} (hpieces : ∀ p ∈ pieces, Scans p.1 p.2)
    (h : Scans cs ts) :
    ScansOut (cs ++ Json.separated ',' false (pieces.map Prod.fst) ++ [close])
      (ts ++ Json.separated .comma false (pieces.map Prod.snd) ++ [t]) := by
  induction pieces generalizing cs ts with
  | nil => simpa [Json.separated] using h.punctuation hclose
  | cons p pieces ih =>
      have hp := (h.punctuation (c := ',') rfl).append_scans (hpieces p (by simp))
      have hrest := ih (fun q hq => hpieces q (by simp [hq])) hp
      simpa [Json.separated, List.append_assoc] using hrest

/-- **Texts with commas between them and brackets around them.** -/
theorem scansOut_separated {start close : Char} {s t : Token}
    (hopen : Token.punctuation? start = some s) (hclose : Token.punctuation? close = some t)
    (pieces : List (List Char × List Token)) (hpieces : ∀ p ∈ pieces, Scans p.1 p.2) :
    ScansOut (start :: (Json.separated ',' true (pieces.map Prod.fst) ++ [close]))
      (s :: (Json.separated .comma true (pieces.map Prod.snd) ++ [t])) := by
  have hstart := scansOut_punctuation hopen
  cases pieces with
  | nil => exact hstart.append (scansOut_punctuation hclose)
  | cons p pieces =>
      have hp := hstart.append_scans (hpieces p (by simp))
      have hrest := hp.separated hclose fun q hq => hpieces q (List.mem_cons_of_mem p hq)
      simpa [Json.separated, List.append_assoc] using hrest

end

end CoachLedger.Json
