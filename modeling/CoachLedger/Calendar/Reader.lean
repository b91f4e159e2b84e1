/-
**Reading dates.**

Dates come from spreadsheets and other programs in several formats, some with a time of day and
an offset from universal time.  The date is kept as written; the time is checked and dropped.  A
format is a list of pieces that are read one after the other, each as far as it goes, and a text
is in a format if the pieces use it up.

Main definitions:

* `CoachLedger.Date.Piece` — the pieces of a format;
* `CoachLedger.Date.Format` — the six formats;
* `CoachLedger.Date.Format.read?` — the date that a text denotes in one format;
* `CoachLedger.Date.read?` — the date that a text denotes in the first format that fits.
-/

import CoachLedger.Calendar.Date
import CoachLedger.Text.Blank

set_option autoImplicit false

namespace CoachLedger.Date

/-- A part of a date or of a time of day. -/
inductive Part
  | year
  | month
  | day
  | hour
  | minute
  | second
deriving DecidableEq, Repr

/-- The largest value of a part of the time of day.  The parts of the date are checked together
when the date is made. -/
def Part.limit? : Part → Option Nat
  | .hour => some 23
  | .minute => some 59
  | .second => some 60
  | _ => none

/-- A piece of a format. -/
inductive Piece
  /-- A part after any number of blanks: one or two digits, and for a year up to four digits, or
  any number of digits after a sign. -/
  | loose (part : Part)
  /-- A part with exactly the given number of digits. -/
  | fixed (part : Part) (width : Nat)
  /-- One of the given characters. -/
  | oneOf (cs : List Char)
  /-- Any number of blanks. -/
  | blanks
  /-- Nothing, or a point and at least one digit. -/
  | fraction
  /-- An offset from universal time: `Z`, or a sign, hours and minutes. -/
  | offset
deriving DecidableEq, Repr

/-- The parts of the date that have been read. -/
structure Draft where
  year : Int
  month : Nat
  day : Nat
deriving DecidableEq, Repr

/-- The draft with one part filled in; the time of day is dropped. -/
def Draft.set (d : Draft) (part : Part) (n : Int) : Draft :=
  match part with
  | .year => { d with year := n }
  | .month => { d with month := n.toNat }
  | .day => { d with day := n.toNat }
  | _ => d

/-- The draft with a part filled in, if its value is within the limit. -/
def Draft.fill? (d : Draft) (part : Part) (n : Int) : Option Draft :=
  if part.limit?.all fun limit => n ≤ limit then some (d.set part n) else none

/-- At least `least` and at most `most` digits: their value, and what follows. -/
def readDigits? (least most : Nat) (cs : List Char) : Option (Nat × List Char) :=
  let ds := (cs.take most).takeWhile Char.isDigit
  if least ≤ ds.length then some (Decimal.ofDigits ds, cs.drop ds.length) else none

/-- A year in a loose format. -/
def readLooseYear? : List Char → Option (Int × List Char)
  | '-' :: cs => (readDigits? 1 cs.length cs).map fun (n, rest) => (-(n : Int), rest)
  | '+' :: cs => (readDigits? 1 cs.length cs).map fun (n, rest) => ((n : Int), rest)
  | cs => (readDigits? 1 4 cs).map fun (n, rest) => ((n : Int), rest)

/-- A part in a loose format. -/
def readLoose? (part : Part) (cs : List Char) : Option (Int × List Char) :=
  let cs := Text.trimStart cs
  if part = .year then readLooseYear? cs
  else (readDigits? 1 2 cs).map fun (n, rest) => ((n : Int), rest)

/-- The signs of an offset: plus, hyphen and minus. -/
def offsetSigns : List Char := ['+', '-', '\u2212']

/-- What follows an offset: `Z` or `z`, or a sign, two digits up to `23`, a colon and two digits
up to `59`. -/
def readOffset? : List Char → Option (List Char)
  | 'Z' :: cs | 'z' :: cs => some cs
  | sign :: cs =>
      if sign ∈ offsetSigns then do
        let (hours, cs) ← readDigits? 2 2 cs
        match cs with
        | ':' :: cs =>
            let (minutes, cs) ← readDigits? 2 2 cs
            if hours ≤ 23 ∧ minutes ≤ 59 then some cs else none
        | _ => none
      else none
  | [] => none

/-- What follows an optional point with digits. -/
def readFraction? : List Char → Option (List Char)
  | '.' :: cs => (readDigits? 1 cs.length cs).map Prod.snd
  | cs => some cs

/-- Reads one piece. -/
def Piece.read? (piece : Piece) (d : Draft) (cs : List Char) : Option (Draft × List Char) :=
  match piece with
  | loose part => do
      let (n, rest) ← readLoose? part cs
      let d ← d.fill? part n
      some (d, rest)
  | fixed part width => do
      let (n, rest) ← readDigits? width width cs
      let d ← d.fill? part n
      some (d, rest)
  | oneOf options =>
      match cs with
      | c :: rest => if c ∈ options then some (d, rest) else none
      | [] => none
  | blanks => some (d, Text.trimStart cs)
  | fraction => (readFraction? cs).map fun rest => (d, rest)
  | offset => (readOffset? cs).map fun rest => (d, rest)

/-- Reads the pieces one after the other; they have to use up the text. -/
def readPieces? : List Piece → Draft → List Char → Option Draft
  | [], d, cs => if cs.isEmpty then some d else none
  | piece :: pieces, d, cs =>
      match piece.read? d cs with
      | some (d, rest) => readPieces? pieces d rest
      | none => none

/-- The formats of dates. -/
inductive Format
  /-- `2024-01-15` -/
  | dashed
  /-- `2024-01-15T10:30:00Z`, with every part at its full width. -/
  | internet
  /-- `2024-01-15T10:30:00` -/
  | joined
  /-- `2024-01-15 10:30:00` -/
  | spaced
  /-- `2024-01-15T10:30` -/
  | short
  /-- `2024/01/15` -/
  | slashed
deriving DecidableEq, Repr

namespace Format

/-- The formats in the order in which they are tried. -/
def all : List Format := [dashed, internet, joined, spaced, short, slashed]

/-- A date with loose parts. -/
def looseDate (separator : Char) : List Piece :=
  [.loose .year, .oneOf [separator], .loose .month, .oneOf [separator], .loose .day]

/-- Hours and minutes with loose parts. -/
def looseTime : List Piece :=
  [.loose .hour, .oneOf [':'], .loose .minute]

/-- Seconds with loose parts. -/
def looseSeconds : List Piece :=
  [.oneOf [':'], .loose .second, .fraction]

/-- The pieces of a format. -/
def pieces : Format → List Piece
  | dashed => looseDate '-'
  | internet =>
      [.fixed .year 4, .oneOf ['-'], .fixed .month 2, .oneOf ['-'], .fixed .day 2,
        .oneOf ['T', 't', ' '], .fixed .hour 2, .oneOf [':'], .fixed .minute 2, .oneOf [':'],
        .fixed .second 2, .fraction, .offset]
  | joined => looseDate '-' ++ .oneOf ['T'] :: (looseTime ++ looseSeconds)
  | spaced => looseDate '-' ++ .blanks :: (looseTime ++ looseSeconds)
  | short => looseDate '-' ++ .oneOf ['T'] :: looseTime
  | slashed => looseDate '/'

/-- The date that a whole text denotes in a format. -/
def read? (f : Format) (cs : List Char) : Option Date :=
  match readPieces? f.pieces ⟨0, 0, 0⟩ cs with
  | some d => ofParts? d.year d.month d.day
  | none => none

end Format

/-- The date that a text denotes, blanks around it apart, in the first format that fits. -/
def read? (s : String) : Option Date :=
  let cs := (Text.trim s).toList
  Format.all.findSome? fun f => f.read? cs

example : (read? " 2024-02-29 ").map Date.text = some "2024-02-29" := by decide +kernel
example : (read? "2023-02-29").isNone := by decide +kernel
example : (read? "-44-3-15").map Date.text = some "-0044-03-15" := by decide +kernel

end CoachLedger.Date
