/-
**The formats of dates do not overlap.**

The characters of a text that are no digits, blanks, signs or points are its marks: colons, slashes,
and the letters of a time.  A piece of a format has its marks whatever the numbers are, so that a
text in a format has one of the few rows of marks of this format, and no two formats share one.  The
marks tell the only format in which a text may be; which one is tried first makes no difference.

All formats start with a date, the longest that the text starts with.  It denotes the same date when
it stands alone, whatever time of day and offset follow.

Main definitions:

* `CoachLedger.Date.marks` — the marks of a text;
* `CoachLedger.Date.formatOf` — the format that a text may be in, by its marks;
* `CoachLedger.Date.Format.datePieces`, `CoachLedger.Date.Format.timePieces` — the two parts of a
  format;
* `CoachLedger.Date.Format.IsTime` — the texts of a time in a format.

Main results:

* `CoachLedger.Date.formatOf_eq_of_read?` — **a text is at most in the format of its marks**;
* `CoachLedger.Date.exists_date_of_read?` — a text in a format is a date and a time;
* `CoachLedger.Date.Format.read?_append` — **a time may be put behind a date**;
* `CoachLedger.Date.eq_of_read?_append` — what follows a date does not change it;
* `CoachLedger.Date.formats_areDisjoint` — **the formats do not overlap**.
-/

import CoachLedger.Proofs.Calendar.Pieces

set_option autoImplicit false

namespace CoachLedger.Text

/-! ### Trimming -/

theorem exists_trimEnd (cs : List Char) :
    ∃ bs, cs = trimEnd cs ++ bs ∧ ∀ c ∈ bs, isBlank c = true := by
  refine ⟨(cs.reverse.takeWhile isBlank).reverse, ?_, fun c hc => ?_⟩
  · rw [trimEnd, ← List.reverse_append, List.takeWhile_append_dropWhile, List.reverse_reverse]
  · exact List.mem_takeWhile_imp (List.mem_reverse.1 hc)

/-- A text without the blanks at its end ends with another character. -/
theorem exists_last_of_trimEnd {cs : List Char} (h : trimEnd cs ≠ []) :
    ∃ front c, trimEnd cs = front ++ [c] ∧ isBlank c = false := by
  cases hrev : cs.reverse.dropWhile isBlank with
  | nil =>
      rw [trimEnd, hrev] at h
      exact absurd rfl h
  | cons c tail =>
      have hfirst := List.head?_dropWhile_not isBlank cs.reverse
      rw [hrev] at hfirst
      refine ⟨tail.reverse, c, ?_, by simpa using hfirst⟩
      rw [trimEnd, hrev, List.reverse_cons]

/-- The blanks at the end come after the last other character. -/
theorem trimEnd_append_cons (front : List Char) {c : Char} (hc : isBlank c = false)
    (more : List Char) : trimEnd (front ++ c :: more) = front ++ c :: trimEnd more := by
  have hrev : (front ++ c :: more).reverse = more.reverse ++ c :: front.reverse := by simp
  rw [trimEnd, trimEnd, hrev, List.dropWhile_append]
  split
  · rename_i hempty
    rw [List.isEmpty_iff.1 hempty, List.dropWhile_cons_of_neg (by simp [hc])]
    simp
  · simp

end CoachLedger.Text

namespace CoachLedger.Date

variable {cs rest more taken : List Char} {d e : Draft} {f g : Format} {x y : Date}

/-! ### Marks -/

/-- The character is a mark. -/
def isMark (c : Char) : Bool :=
  c ∈ ['/', ':', 'T', 't', 'Z', 'z']

/-- The marks of a text. -/
def marks (cs : List Char) : List Char :=
  cs.filter isMark

theorem marks_append (cs rest : List Char) : marks (cs ++ rest) = marks cs ++ marks rest :=
  List.filter_append ..

theorem isDigit_and_isBlank_of_isMark {c : Char} (h : isMark c = true) :
    c.isDigit = false ∧ Text.isBlank c = false := by
  simp only [isMark, decide_eq_true_eq, List.mem_cons, List.not_mem_nil, or_false] at h
  rcases h with rfl | rfl | rfl | rfl | rfl | rfl <;> decide

theorem AreDigits.marks_eq {ds : List Char} (h : AreDigits ds) : marks ds = [] := by
  refine List.filter_eq_nil_iff.2 fun c hc hmark => ?_
  have := (isDigit_and_isBlank_of_isMark hmark).1
  rw [h c hc] at this
  cases this

theorem AreBlanks.marks_eq {bs : List Char} (h : AreBlanks bs) : marks bs = [] := by
  refine List.filter_eq_nil_iff.2 fun c hc hmark => ?_
  have := (isDigit_and_isBlank_of_isMark hmark).2
  rw [h c hc] at this
  cases this

theorem IsWord.marks_eq {part : Part} {word : List Char} {n : Int} (h : IsWord part word rest n) :
    marks word = [] := by
  cases h with
  | unsigned digits => exact digits.marks_eq
  | plus digits => exact digits.marks_eq
  | minus digits => exact digits.marks_eq

/-- The rows of marks that a piece may have. -/
def Piece.rows : Piece → List (List Char)
  | oneOf options => options.map fun c => marks [c]
  | offset => [['Z'], ['z'], [':']]
  | _ => [[]]

theorem IsOffset.marks_mem (h : IsOffset cs) : marks cs ∈ Piece.offset.rows := by
  cases h with
  | universal h => rcases h with rfl | rfl <;> decide
  | @shifted sign hours minutes hsign hh hm =>
      have hmarks : marks (hours ++ ':' :: minutes) = [':'] := by
        rw [marks_append, hh.marks_eq, List.nil_append, ← List.singleton_append, marks_append,
          hm.marks_eq]
        rfl
      have hnone : isMark sign = false := by
        simp only [offsetSigns, List.mem_cons, List.not_mem_nil, or_false] at hsign
        rcases hsign with rfl | rfl | rfl <;> decide
      rw [marks, List.filter_cons_of_neg (by simp [hnone])]
      change marks (hours ++ ':' :: minutes) ∈ _
      rw [hmarks]
      decide

/-- What a piece takes has the marks of the piece. -/
theorem Piece.Takes.marks_mem {p : Piece} (h : p.Takes d taken rest e) :
    marks taken ∈ p.rows := by
  cases h with
  | loose hbs hword filled =>
      rw [marks_append, hbs.marks_eq, hword.marks_eq]
      exact List.mem_singleton.2 rfl
  | fixed digits length_eq filled => exact List.mem_singleton.2 digits.marks_eq
  | oneOf mem => exact List.mem_map_of_mem mem
  | blanks hbs ends => exact List.mem_singleton.2 hbs.marks_eq
  | noFraction ends => exact List.mem_singleton.2 rfl
  | fraction digits least ends => exact List.mem_singleton.2 digits.marks_eq
  | offset h => exact h.marks_mem

/-- The rows of marks that pieces one after the other may have. -/
def rowsOf : List Piece → List (List Char)
  | [] => [[]]
  | p :: ps => p.rows.flatMap fun row => (rowsOf ps).map fun more => row ++ more

/-- What pieces take has one of their rows of marks. -/
theorem Take.marks_mem {ps : List Piece} (h : Take ps d taken rest e) :
    marks taken ∈ rowsOf ps := by
  induction h with
  | nil => exact List.mem_singleton.2 rfl
  | cons head tail ih =>
      rw [marks_append]
      exact List.mem_flatMap.2 ⟨_, head.marks_mem, List.mem_map_of_mem ih⟩

/-- The format that a text with given marks may be in. -/
def Format.ofMarks : List Char → Format
  | [] => dashed
  | ['/', '/'] => slashed
  | ['T', ':'] => short
  | ['T', ':', ':'] => joined
  | [':', ':'] => spaced
  | _ => internet

/-- No two formats share a row of marks. -/
theorem Format.ofMarks_eq (f : Format) : ∀ row ∈ rowsOf f.pieces, ofMarks row = f := by
  cases f <;> decide

/-- The format that a text may be in, by its marks. -/
def formatOf (cs : List Char) : Format :=
  .ofMarks (marks cs)

/-- The draft of a date, all parts filled in. -/
def draft (x : Date) : Draft :=
  ⟨x.year, x.month, x.day⟩

theorem ofParts?_draft_eq_some_iff {r : Option Draft} :
    (match r with
      | some d => ofParts? d.year d.month d.day
      | none => none) = some x ↔ r = some x.draft := by
  cases r with
  | none => simp
  | some d =>
      obtain ⟨year, month, day⟩ := d
      rw [ofParts?_eq_some_iff, Option.some.injEq, draft, Draft.mk.injEq]
      simp [eq_comm]

theorem Format.read?_eq_some_iff :
    f.read? cs = some x ↔ Take f.pieces ⟨0, 0, 0⟩ cs [] x.draft :=
  ofParts?_draft_eq_some_iff.trans readPieces?_eq_some_iff

/-- **A text is at most in the format of its marks.** -/
theorem formatOf_eq_of_read? (h : f.read? cs = some x) : formatOf cs = f :=
  f.ofMarks_eq _ (Format.read?_eq_some_iff.1 h).marks_mem

/-- In whatever order the formats are tried, the text is read in the format of its marks. -/
theorem findSome?_eq {order : List Format} (h : ∀ f, f ∈ order) (cs : List Char) :
    (order.findSome? fun f => f.read? cs) = (formatOf cs).read? cs := by
  cases hread : (formatOf cs).read? cs with
  | none =>
      refine List.findSome?_eq_none_iff.2 fun f _ => ?_
      cases hf : f.read? cs with
      | none => rfl
      | some x =>
          rw [formatOf_eq_of_read? hf, hf] at hread
          cases hread
  | some x =>
      have hsome : (order.findSome? fun f => f.read? cs).isSome = true :=
        List.findSome?_isSome_iff.2 ⟨formatOf cs, h _, by rw [hread]; rfl⟩
      obtain ⟨y, hy⟩ := Option.isSome_iff_exists.1 hsome
      obtain ⟨f, -, hf⟩ := List.exists_of_findSome?_eq_some hy
      rw [← formatOf_eq_of_read? hf, hread] at hf
      rw [hy, ← hf]

/-! ### The date and the time of a format -/

namespace Format

/-- The character between the parts of a date. -/
def separator : Format → Char
  | slashed => '/'
  | _ => '-'

/-- The pieces of the date. -/
def datePieces : Format → List Piece
  | internet => [.fixed .year 4, .oneOf ['-'], .fixed .month 2, .oneOf ['-'], .fixed .day 2]
  | f => looseDate f.separator

/-- The pieces of the time. -/
def timePieces : Format → List Piece
  | dashed | slashed => []
  | internet =>
      [.oneOf ['T', 't', ' '], .fixed .hour 2, .oneOf [':'], .fixed .minute 2, .oneOf [':'],
        .fixed .second 2, .fraction, .offset]
  | joined => .oneOf ['T'] :: (looseTime ++ looseSeconds)
  | spaced => .blanks :: (looseTime ++ looseSeconds)
  | short => .oneOf ['T'] :: looseTime

theorem pieces_eq (f : Format) : f.pieces = f.datePieces ++ f.timePieces := by
  cases f <;> rfl

/-- The format with the same separator and without a time. -/
def withoutTime : Format → Format
  | slashed => slashed
  | _ => dashed

/-- The date that a text denotes as the first part of a format. -/
def readDate? (f : Format) (cs : List Char) : Option Date :=
  match readPieces? f.datePieces ⟨0, 0, 0⟩ cs with
  | some d => ofParts? d.year d.month d.day
  | none => none

/-- The text is a time as the second part of a format. -/
def IsTime (f : Format) (cs : List Char) : Prop :=
  (readPieces? f.timePieces ⟨0, 0, 0⟩ cs).isSome = true

end Format

theorem Format.readDate?_eq_some_iff :
    f.readDate? cs = some x ↔ Take f.datePieces ⟨0, 0, 0⟩ cs [] x.draft :=
  ofParts?_draft_eq_some_iff.trans readPieces?_eq_some_iff

/-! ### Pieces of a date -/

/-- The piece ends before any character that is no digit. -/
def Piece.IsOfDate (p : Piece) : Prop :=
  p ≠ .blanks ∧ p ≠ .fraction

theorem Piece.Takes.of_noDigitFirst {p : Piece} (hp : p.IsOfDate) (h : p.Takes d taken rest e)
    (hmore : NoDigitFirst more) : p.Takes d taken more e := by
  cases h with
  | loose hbs hword filled =>
      refine .loose hbs ?_ filled
      cases hword with
      | unsigned digits least most ends => exact .unsigned digits least most (.inr hmore)
      | plus digits least ends => exact .plus digits least hmore
      | minus digits least ends => exact .minus digits least hmore
  | fixed digits length_eq filled => exact .fixed digits length_eq filled
  | oneOf mem => exact .oneOf mem
  | blanks => exact absurd rfl hp.1
  | noFraction => exact absurd rfl hp.2
  | fraction => exact absurd rfl hp.2
  | offset h => exact .offset h

/-- A date may be followed by anything that does not start with a digit. -/
theorem Take.of_noDigitFirst {ps : List Piece} (hps : ∀ p ∈ ps, p.IsOfDate)
    (h : Take ps d taken rest e) (hmore : NoDigitFirst more) : Take ps d taken more e := by
  induction h with
  | nil => exact .nil
  | @cons p ps d e f first second rest head tail ih =>
      obtain ⟨hp, hps⟩ := List.forall_mem_cons.1 hps
      refine .cons ?_ (ih hps)
      cases second with
      | nil => exact head.of_noDigitFirst hp hmore
      | cons c second => exact head.congr rfl

theorem isOfDate_datePieces (f : Format) : ∀ p ∈ f.datePieces, p.IsOfDate := by
  cases f <;> simp [Format.datePieces, Format.looseDate, Piece.IsOfDate]

/-- The piece without a fixed number of digits. -/
def Piece.loosened : Piece → Piece
  | fixed part _ => loose part
  | p => p

/-- The digits of a piece are no more than are read without a fixed number. -/
def Piece.IsFull (p : Piece) : Prop :=
  ∀ part width, p = .fixed part width → width = part.width

theorem Piece.Takes.loosened {p : Piece} (hp : p.IsFull) (h : p.Takes d taken rest e) :
    p.loosened.Takes d taken rest e := by
  cases h with
  | @fixed part width _ _ _ _ digits length_eq filled =>
      have hwidth : taken.length = part.width := length_eq.trans (hp part width rfl)
      have hpos : 1 ≤ part.width := by
        unfold Part.width
        split <;> omega
      have hword : IsWord part taken rest (Decimal.ofDigits taken) :=
        .unsigned digits (by omega) hwidth.le (.inl hwidth)
      have hnone : AreBlanks [] := by simp [AreBlanks]
      exact .loose hnone hword filled
  | loose hbs hword filled => exact .loose hbs hword filled
  | oneOf mem => exact .oneOf mem
  | blanks hbs ends => exact .blanks hbs ends
  | noFraction ends => exact .noFraction ends
  | fraction digits least ends => exact .fraction digits least ends
  | offset h => exact .offset h

theorem Take.loosened {ps : List Piece} (hps : ∀ p ∈ ps, p.IsFull)
    (h : Take ps d taken rest e) : Take (ps.map Piece.loosened) d taken rest e := by
  induction h with
  | nil => exact .nil
  | cons head tail ih =>
      obtain ⟨hp, hps⟩ := List.forall_mem_cons.1 hps
      exact .cons (head.loosened hp) (ih hps)

theorem isFull_datePieces (f : Format) : ∀ p ∈ f.datePieces, p.IsFull := by
  cases f <;> simp [Format.datePieces, Format.looseDate, Piece.IsFull, Part.width]

/-- Every date of a format is one of the format without a time. -/
theorem Take.withoutTime (h : Take f.datePieces d taken rest e) :
    Take f.withoutTime.pieces d taken rest e := by
  have hpieces : f.datePieces.map Piece.loosened = f.withoutTime.pieces := by
    cases f <;> rfl
  exact hpieces ▸ h.loosened (isFull_datePieces f)

/-! ### Pieces of a time -/

/-- The piece fills in no part of the date. -/
def Piece.IsOfTime : Piece → Prop
  | loose part | fixed part _ => part.limit?.isSome = true
  | _ => True

theorem Draft.fill?_of_limit? {part : Part} (hp : part.limit?.isSome = true) {n : Int}
    (h : d.fill? part n = some e) (d' : Draft) : d = e ∧ d'.fill? part n = some d' := by
  have hset (d : Draft) : d.set part n = d := by
    cases part <;> first | rfl | cases hp
  unfold Draft.fill? at h ⊢
  rw [hset] at h ⊢
  obtain ⟨hlimit, heq⟩ := Option.ite_none_right_eq_some.1 h
  exact ⟨Option.some.inj heq, if_pos hlimit⟩

/-- A piece of a time leaves every draft as it is. -/
theorem Piece.Takes.of_isOfTime {p : Piece} (hp : p.IsOfTime) (h : p.Takes d taken rest e)
    (d' : Draft) : d = e ∧ p.Takes d' taken rest d' := by
  cases h with
  | loose hbs hword filled =>
      obtain ⟨heq, filled'⟩ := Draft.fill?_of_limit? hp filled d'
      exact ⟨heq, .loose hbs hword filled'⟩
  | fixed digits length_eq filled =>
      obtain ⟨heq, filled'⟩ := Draft.fill?_of_limit? hp filled d'
      exact ⟨heq, .fixed digits length_eq filled'⟩
  | oneOf mem => exact ⟨rfl, .oneOf mem⟩
  | blanks hbs ends => exact ⟨rfl, .blanks hbs ends⟩
  | noFraction ends => exact ⟨rfl, .noFraction ends⟩
  | fraction digits least ends => exact ⟨rfl, .fraction digits least ends⟩
  | offset h => exact ⟨rfl, .offset h⟩

/-- **A time leaves every draft as it is.** -/
theorem Take.of_isOfTime {ps : List Piece} (hps : ∀ p ∈ ps, p.IsOfTime)
    (h : Take ps d taken rest e) (d' : Draft) : d = e ∧ Take ps d' taken rest d' := by
  induction h with
  | nil => exact ⟨rfl, .nil⟩
  | cons head tail ih =>
      obtain ⟨hp, hps⟩ := List.forall_mem_cons.1 hps
      obtain ⟨rfl, head'⟩ := head.of_isOfTime hp d'
      obtain ⟨rfl, tail'⟩ := ih hps
      exact ⟨rfl, .cons head' tail'⟩

theorem isOfTime_timePieces (f : Format) : ∀ p ∈ f.timePieces, p.IsOfTime := by
  cases f <;>
    simp [Format.timePieces, Format.looseTime, Format.looseSeconds, Piece.IsOfTime, Part.limit?]

theorem Format.isTime_iff : f.IsTime cs ↔ Take f.timePieces d cs [] d := by
  unfold Format.IsTime
  rw [Option.isSome_iff_exists]
  constructor
  · rintro ⟨e, h⟩
    exact ((readPieces?_eq_some_iff.1 h).of_isOfTime (isOfTime_timePieces f) d).2
  · intro h
    exact ⟨_, readPieces?_eq_some_iff.2 (h.of_isOfTime (isOfTime_timePieces f) _).2⟩

/-! ### Dates with times -/

theorem draft_inj : x.draft = y.draft ↔ x = y := by
  obtain ⟨year, month, day, h⟩ := x
  obtain ⟨year', month', day', h'⟩ := y
  simp [draft]

/-- **A text in a format is a date and a time.** -/
theorem exists_date_of_read? (h : f.read? cs = some x) :
    ∃ date time, cs = date ++ time ∧ Take f.datePieces ⟨0, 0, 0⟩ date time x.draft ∧
      f.IsTime time := by
  have htake := Format.read?_eq_some_iff.1 h
  rw [f.pieces_eq] at htake
  obtain ⟨date, time, e, rfl, hdate, htime⟩ := take_append_iff.1 htake
  obtain ⟨rfl, -⟩ := htime.of_isOfTime (isOfTime_timePieces f) ⟨0, 0, 0⟩
  rw [List.append_nil] at hdate
  exact ⟨date, time, rfl, hdate, Format.isTime_iff.2 htime⟩

/-- The date at the front of a text is that of the date alone. -/
theorem readDate?_of_take (h : Take f.datePieces ⟨0, 0, 0⟩ cs rest x.draft) :
    f.readDate? cs = some x ∧ f.withoutTime.read? cs = some x := by
  have halone := h.of_noDigitFirst (isOfDate_datePieces f) noDigitFirst_nil
  exact ⟨Format.readDate?_eq_some_iff.2 halone, Format.read?_eq_some_iff.2 halone.withoutTime⟩

/-- **A time may be put behind a date.** -/
theorem Format.read?_append {date time : List Char} (hdate : f.readDate? date = some x)
    (htime : f.IsTime time) (hfirst : NoDigitFirst time) : f.read? (date ++ time) = some x := by
  have htake := Format.readDate?_eq_some_iff.1 hdate
  rw [Format.read?_eq_some_iff, f.pieces_eq]
  refine take_append_iff.2 ⟨date, time, x.draft, rfl, ?_, Format.isTime_iff.1 htime⟩
  rw [List.append_nil]
  exact htake.of_noDigitFirst (isOfDate_datePieces f) hfirst

theorem pieces_withoutTime (f : Format) : f.withoutTime.pieces = Format.looseDate f.separator := by
  cases f <;> rfl

theorem Take.eq_cons_of_oneOf {a : Char} {ps : List Piece}
    (h : Take (.oneOf [a] :: ps) d taken rest e) : ∃ tail, taken = a :: tail := by
  obtain ⟨first, tail, f, rfl, head, -⟩ := take_cons_iff.1 h
  cases head with
  | oneOf mem =>
      obtain rfl := List.mem_singleton.1 mem
      exact ⟨tail, rfl⟩

/-- A text starts with one date at most: the separator behind the year tells which characters are
between the parts. -/
theorem eq_of_take_looseDate {a b : Char} {other left : List Char} {e' : Draft}
    (h : Take (Format.looseDate a) d taken rest e)
    (h' : Take (Format.looseDate b) d other left e') (htext : taken ++ rest = other ++ left) :
    e = e' := by
  have hab : a = b := by
    obtain ⟨year, more, g, rfl, hyear, hmore⟩ := take_cons_iff.1 h
    obtain ⟨year', more', g', rfl, hyear', hmore'⟩ := take_cons_iff.1 h'
    obtain ⟨tail, rfl⟩ := hmore.eq_cons_of_oneOf
    obtain ⟨tail', rfl⟩ := hmore'.eq_cons_of_oneOf
    rw [List.append_assoc, List.append_assoc] at htext
    obtain ⟨-, hmarks, -⟩ := hyear.unique hyear' htext
    exact (List.cons.inj hmarks).1
  subst hab
  exact (h.unique h' htext).2.2

theorem isOfDate_looseDate (a : Char) : ∀ p ∈ Format.looseDate a, p.IsOfDate := by
  simp [Format.looseDate, Piece.IsOfDate]

/-- What follows a date does not change it, unless it is a digit. -/
theorem eq_of_read?_append (h : f.read? cs = some x) (h' : g.read? (cs ++ more) = some y)
    (hmore : NoDigitFirst more) : x = y := by
  obtain ⟨date, time, rfl, hdate, -⟩ := exists_date_of_read? h
  obtain ⟨date', time', htext, hdate', -⟩ := exists_date_of_read? h'
  have hfront := hdate.withoutTime
  have hfront' := hdate'.withoutTime
  rw [pieces_withoutTime] at hfront hfront'
  -- The first date ends at the same place with more behind it.
  have hlonger : Take (Format.looseDate f.separator) ⟨0, 0, 0⟩ date (time ++ more) x.draft := by
    cases time with
    | nil => exact hfront.of_noDigitFirst (isOfDate_looseDate _) hmore
    | cons c time => exact hfront.congr rfl
  rw [List.append_assoc] at htext
  exact draft_inj.1 (eq_of_take_looseDate hlonger hfront' htext)

/-! ### Blanks around a text -/

/-- The text that the formats are tried on. -/
def trimmed (s : String) : List Char :=
  (Text.trim s).toList

theorem trimmed_eq (s : String) : trimmed s = Text.trimEnd (Text.trimStart s.toList) :=
  String.toList_ofList

/-- With more behind a text, what is tried starts with what was tried before. -/
theorem exists_trimmed_append {s more : String} (hs : trimmed s ≠ [])
    (hmore : NoDigitFirst more.toList) :
    ∃ tail, trimmed (s ++ more) = trimmed s ++ tail ∧ NoDigitFirst tail := by
  rw [trimmed_eq] at hs
  rw [trimmed_eq, trimmed_eq, String.toList_append]
  have hstart : Text.trimStart (s.toList ++ more.toList) =
      Text.trimStart s.toList ++ more.toList := by
    rw [Text.trimStart, List.dropWhile_append, if_neg]
    · rfl
    · intro hempty
      have hnil : Text.trimStart s.toList = [] := List.isEmpty_iff.1 hempty
      rw [hnil] at hs
      exact hs rfl
  rw [hstart]
  obtain ⟨bs, hcs, hbs⟩ := Text.exists_trimEnd (Text.trimStart s.toList)
  obtain ⟨front, c, hlast, hc⟩ := Text.exists_last_of_trimEnd hs
  have hlonger : Text.trimStart s.toList ++ more.toList =
      front ++ c :: (bs ++ more.toList) := by
    rw [hcs, hlast]
    simp
  obtain ⟨left, hleft, -⟩ := Text.exists_trimEnd (bs ++ more.toList)
  refine ⟨Text.trimEnd (bs ++ more.toList), ?_, ?_⟩
  · rw [hlonger, Text.trimEnd_append_cons front hc, hlast]
    simp
  · have hfirst := noDigitFirst_append hbs hmore
    rw [hleft] at hfirst
    exact hfirst.of_append

/-! ### All formats -/

theorem mem_all (f : Format) : f ∈ Format.all := by
  cases f <;> decide

theorem read?_eq (s : String) : read? s = (formatOf (trimmed s)).read? (trimmed s) :=
  findSome?_eq mem_all (trimmed s)

theorem ne_nil_of_read? (h : f.read? cs = some x) : cs ≠ [] := by
  rintro rfl
  revert h
  cases f <;> exact fun h => by cases h

/-- **The formats of dates do not overlap.**  A text is in one format at most, which its marks tell,
and the order in which the formats are tried makes no difference.  A text in a format is a date and
a time of this format: the date is what the text denotes, and what it denotes alone, and any other
time that does not start with a digit may be put in the place of this one.  Whatever is put behind a
text that denotes a date, if it does not start with a digit and the text still denotes a date, it is
the same date. -/
theorem formats_areDisjoint (s : String) :
    (∀ f g : Format, (f.read? (trimmed s)).isSome = true → (g.read? (trimmed s)).isSome = true →
      f = g) ∧
    read? s = (formatOf (trimmed s)).read? (trimmed s) ∧
    (∀ order : List Format, (∀ f, f ∈ order) →
      (order.findSome? fun f => f.read? (trimmed s)) = read? s) ∧
    (∀ (f : Format) x, f.read? (trimmed s) = some x → ∃ date time, trimmed s = date ++ time ∧
      f.readDate? date = some x ∧ f.withoutTime.read? date = some x ∧ f.IsTime time) ∧
    (∀ (f : Format) date time x, f.readDate? date = some x → f.IsTime time → NoDigitFirst time →
      f.read? (date ++ time) = some x) ∧
    ∀ more x y, NoDigitFirst more.toList → read? s = some x → read? (s ++ more) = some y →
      x = y := by
  refine ⟨?_, read?_eq s, ?_, ?_, fun f date time x => Format.read?_append, ?_⟩
  · intro f g hf hg
    obtain ⟨x, hx⟩ := Option.isSome_iff_exists.1 hf
    obtain ⟨y, hy⟩ := Option.isSome_iff_exists.1 hg
    rw [← formatOf_eq_of_read? hx, formatOf_eq_of_read? hy]
  · intro order horder
    rw [findSome?_eq horder, read?_eq]
  · intro f x h
    obtain ⟨date, time, htext, hdate, htime⟩ := exists_date_of_read? h
    obtain ⟨hread, halone⟩ := readDate?_of_take hdate
    exact ⟨date, time, htext, hread, halone, htime⟩
  · intro more x y hmore hx hy
    rw [read?_eq] at hx hy
    obtain ⟨tail, htail, hfirst⟩ := exists_trimmed_append (ne_nil_of_read? hx) hmore
    rw [htail] at hy
    exact eq_of_read?_append hx hy hfirst

/-- An offset is not applied: in universal time this was in the year before. -/
theorem formats_areDisjoint_newYear :
    ∃ x, read? "2024-01-01T00:30:00" = some x ∧ x.text = "2024-01-01" ∧
      read? ("2024-01-01T00:30:00" ++ "+14:00") = some x ∧
      (∀ f : Format, (f.read? (trimmed "2024-01-01T00:30:00+14:00")).isSome = true →
        f = .internet) ∧
      (Format.all.reverse.findSome? fun f => f.read? (trimmed "2024-01-01T00:30:00+14:00")) =
        some x := by
  obtain ⟨-, -, -, -, -, hmore⟩ := formats_areDisjoint "2024-01-01T00:30:00"
  obtain ⟨hunique, -, horder, -⟩ := formats_areDisjoint "2024-01-01T00:30:00+14:00"
  have hread : read? "2024-01-01T00:30:00" = some ⟨2024, 1, 1, by decide⟩ := by decide +kernel
  have hoffset : read? "2024-01-01T00:30:00+14:00" = some ⟨2024, 1, 1, by decide⟩ := by
    decide +kernel
  have hinternet : (Format.internet.read? (trimmed "2024-01-01T00:30:00+14:00")).isSome = true := by
    decide +kernel
  have hfirst : NoDigitFirst "+14:00".toList := noDigitFirst_cons (by decide)
  refine ⟨_, hread, by decide, ?_, fun f hf => hunique f .internet hf hinternet, ?_⟩
  · have htext : "2024-01-01T00:30:00" ++ "+14:00" = "2024-01-01T00:30:00+14:00" := rfl
    rw [htext, hoffset, hmore "+14:00" _ _ hfirst hread hoffset]
  · rw [horder _ (by simp [mem_all]), hoffset]

end CoachLedger.Date
