/-
**Field values.**

A field of a record holds a text, a number, a date or a boolean, or nothing.  Each value has a
text form, which text filters look at, and a JSON form, in which records are exchanged.

Main definitions:

* `CoachLedger.Kind` — the four kinds of fields;
* `CoachLedger.Value` — values;
* `CoachLedger.Value.text?` — the text form of a value;
* `CoachLedger.Value.toJson`, `CoachLedger.Value.ofJson?` — the JSON form, and the value of a kind
  that a JSON value stands for.

Main results:

* `CoachLedger.Value.kind?_of_ofJson?` — a value read for a field is null or of the field's kind.
-/

import CoachLedger.Calendar.Reader
import CoachLedger.Json.Writer

set_option autoImplicit false

namespace CoachLedger

/-- The kinds of fields. -/
inductive Kind
  | text
  | number
  | date
  | boolean
deriving DecidableEq, Repr

/-- The name of a kind. -/
def Kind.name : Kind → String
  | text => "text"
  | number => "number"
  | date => "date"
  | boolean => "boolean"

/-- The value of a field. -/
inductive Value
  | null
  | text (s : String)
  | number (x : Binary64)
  | date (d : Date)
  | boolean (b : Bool)
deriving DecidableEq, Repr

namespace Value

instance : Inhabited Value := ⟨null⟩

/-- The value is null. -/
def isNull : Value → Bool
  | null => true
  | _ => false

/-- The kind of a value; null has none. -/
def kind? : Value → Option Kind
  | null => none
  | text _ => some .text
  | number _ => some .number
  | date _ => some .date
  | boolean _ => some .boolean

/-- The value may stand in a field of the kind. -/
def Fits (k : Kind) (v : Value) : Prop :=
  ∀ found, v.kind? = some found → found = k

theorem fits_of_kind? {k : Kind} {v : Value} (h : v.kind? = some k) : v.Fits k := by
  intro found hfound
  rw [h] at hfound
  exact (Option.some.inj hfound).symm

/-! ### Text form -/

/-- Of two equally near decimals the larger one is written. -/
def tie : Binary64.Tie := .up

/-- Numbers are written positionally, whatever their size. -/
def layout : Decimal.Layout := ⟨none, false, false, 1⟩

/-- The text of a number: the integer, or the shortest digits that read back. -/
def numberText (x : Binary64) : String :=
  match x.exactInteger?, x with
  | some i, _ => toString i
  | none, .nan => "NaN"
  | none, .signed negative rank _ =>
      let sign := if negative then "-" else ""
      if rank = Binary64.topRank then sign ++ "inf"
      else sign ++ String.ofList ((Binary64.shortest tie rank).write layout)

/-- The text of a boolean. -/
def booleanText (b : Bool) : String :=
  if b then "true" else "false"

/-- The text form of a value; null has none. -/
def text? : Value → Option String
  | null => none
  | text s => some s
  | number x => some (numberText x)
  | date d => some d.text
  | boolean b => some (booleanText b)

/-- The number of a text that is fully a finite number, blanks around it apart. -/
def readNumber? (s : String) : Option Binary64 :=
  match Decimal.read? (Text.trim s).toList with
  | some (negative, d) =>
      let x := Binary64.ofDecimal negative d
      if x.isFinite then some x else none
  | none => none

/-- The boolean of the texts `true` and `false`. -/
def readBoolean? (s : String) : Option Bool :=
  if s = "true" then some true else if s = "false" then some false else none

/-- The integer of a number value, in the range where all integers are exact. -/
def integer? : Value → Option Int
  | number x => x.exactInteger?
  | _ => none

/-- A value in a description: texts in single quotes, all others in their text form. -/
def display : Value → String
  | null => "null"
  | text s => "'" ++ s ++ "'"
  | v => v.text?.getD ""

/-! ### JSON form -/

/-- A number in JSON: an integer, or a float; what JSON cannot write becomes null. -/
def numberToJson (x : Binary64) : Json :=
  match x.exactInteger? with
  | some i => .ofInt i
  | none => if x.isFinite then .number (.float x) else .null

/-- The JSON form of a value. -/
def toJson : Value → Json
  | null => .null
  | text s => .string s
  | number x => numberToJson x
  | date d => .string d.text
  | boolean b => .bool b

/-- The text that a JSON value stands for; a number stands for its spelling. -/
def textOfJson? : Json → Option String
  | .string s => some s
  | .number n => some (String.ofList n.text)
  | _ => none

/-- The number that a JSON value stands for. -/
def numberOfJson? : Json → Option Binary64
  | .number n => some n.toBinary64
  | .string s => readNumber? s
  | _ => none

/-- The date that a JSON value stands for. -/
def dateOfJson? : Json → Option Date
  | .string s => Date.read? s
  | _ => none

/-- The boolean that a JSON value stands for; the integers `0` and `1` count. -/
def booleanOfJson? : Json → Option Bool
  | .bool b => some b
  | .string s => readBoolean? s
  | .number (.integer i) => if i = 0 then some false else if i = 1 then some true else none
  | _ => none

/-- The value of the given kind that a JSON value stands for. -/
def ofJson? (k : Kind) (j : Json) : Option Value :=
  if j.isNull then some null
  else
    match k with
    | .text => (textOfJson? j).map text
    | .number => (numberOfJson? j).map number
    | .date => (dateOfJson? j).map date
    | .boolean => (booleanOfJson? j).map boolean

/-- A value read for a field is null or of the field's kind. -/
theorem kind?_of_ofJson? {k : Kind} {j : Json} {v : Value} (h : ofJson? k j = some v) :
    v.Fits k := by
  unfold ofJson? at h
  split at h
  · simp only [Option.some.injEq] at h
    subst h
    simp [Fits, kind?]
  · cases k <;> simp only [Option.map_eq_some_iff] at h <;> obtain ⟨a, -, rfl⟩ := h <;>
      simp [Fits, kind?]

end Value

end CoachLedger
