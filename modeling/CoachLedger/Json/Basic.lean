/-
**JSON values.**

Records, snapshots, filters and configuration files are JSON.  The members of an object keep the
order in which they were written, and a number remembers whether it was written as an integer, so
that a value is printed back as it was read.

Main definitions:

* `CoachLedger.Json.Numeral` — an integer or a binary64 number;
* `CoachLedger.Json` — JSON values;
* `CoachLedger.Json.same` — equality of values, which ignores the order of members;
* `CoachLedger.Json.member?`, `CoachLedger.Json.assign` — reading and writing the members of an
  object.

Main results:

* `CoachLedger.Json.assign_keys_of_mem` — assigning to a name that is present keeps the names;
* `CoachLedger.Json.assign_keys_of_not_mem` — assigning to a new name appends it.
-/

import CoachLedger.Binary64.Nearest
import CoachLedger.Binary64.Shortest
import CoachLedger.Binary64.Layout

set_option autoImplicit false

namespace CoachLedger

/-- A JSON number: an integer, or any other number. -/
inductive Json.Numeral
  | integer (i : Int)
  | float (x : Binary64)
deriving DecidableEq, Repr

/-- A JSON value. -/
inductive Json
  | null
  | bool (b : Bool)
  | number (n : Json.Numeral)
  | string (s : String)
  | array (items : List Json)
  | object (members : List (String × Json))
deriving Inhabited, Repr

namespace Json

/-! ### Numerals -/

namespace Numeral

/-- JSON texts print the shortest digits, a tie going to the even digit. -/
def tie : Binary64.Tie := .toEven

/-- JSON texts write `0.00001` to `1000000000000000.0` positionally, always with a point, and all
other numbers as `1e-6`, `1.5e+20`. -/
def layout : Decimal.Layout := ⟨some (-5, 15), true, false, 1⟩

/-- The text of a numeral. -/
def text : Numeral → List Char
  | integer i => (if i < 0 then ['-'] else []) ++ Decimal.digits i.natAbs
  | float .nan => []
  | float (.signed negative rank _) =>
      (if negative then ['-'] else []) ++
        (if rank = 0 then ['0', '.', '0'] else (Binary64.shortest tie rank).write layout)

/-- The binary64 number nearest to a numeral. -/
def toBinary64 : Numeral → Binary64
  | integer i => .ofInt i
  | float x => x

/-- Integers equal integers and floats equal floats; `1` and `1.0` differ, `0.0` and `-0.0` do
not. -/
def same : Numeral → Numeral → Bool
  | integer i, integer j => i == j
  | float x, float y => x.same y
  | _, _ => false

end Numeral

/-- The value is null. -/
def isNull : Json → Bool
  | null => true
  | _ => false

/-- The integer as a JSON value. -/
def ofInt (i : Int) : Json := number (.integer i)

/-- The natural number as a JSON value. -/
def ofNat (n : Nat) : Json := number (.integer n)

/-- A text, or null. -/
def ofOption (s : Option String) : Json :=
  match s with
  | some s => string s
  | none => null

/-! ### Members of an object -/

/-- The value of the first member with the given name. -/
def member? (members : List (String × Json)) (name : String) : Option Json :=
  members.lookup name

/-- The members with `name` set to `value`: at its place if the name is present, else at the
end. -/
def assign (members : List (String × Json)) (name : String) (value : Json) :
    List (String × Json) :=
  match members with
  | [] => [(name, value)]
  | (k, v) :: rest => if k = name then (k, value) :: rest else (k, v) :: assign rest name value

/-- Assigning to a name that is present keeps the names. -/
theorem assign_keys_of_mem (members : List (String × Json)) (name : String) (value : Json)
    (h : name ∈ members.map Prod.fst) :
    (assign members name value).map Prod.fst = members.map Prod.fst := by
  induction members with
  | nil => simp at h
  | cons m rest ih =>
      obtain ⟨k, v⟩ := m
      by_cases hk : k = name
      · simp [assign, hk]
      · have : name ∈ rest.map Prod.fst := by
          simpa [Ne.symm hk] using h
        simp [assign, hk, ih this]

/-- Assigning to a new name appends it. -/
theorem assign_keys_of_not_mem (members : List (String × Json)) (name : String) (value : Json)
    (h : name ∉ members.map Prod.fst) :
    (assign members name value).map Prod.fst = members.map Prod.fst ++ [name] := by
  induction members with
  | nil => rfl
  | cons m rest ih =>
      obtain ⟨k, v⟩ := m
      have hk : k ≠ name := fun e => h (by simp [e])
      have hrest : name ∉ rest.map Prod.fst := fun e => h (by simp [e])
      simp [assign, hk, ih hrest]

/-! ### Equality -/

mutual

/-- Equality of values: items in order, members by name, numerals by `Numeral.same`. -/
def same : Json → Json → Bool
  | null, null => true
  | bool a, bool b => a == b
  | number m, number n => m.same n
  | string s, string t => s == t
  | array xs, array ys => sameItems xs ys
  | object ms, object ns => ms.length == ns.length && sameMembers ms ns
  | _, _ => false
termination_by structural x => x

/-- Equality of two lists of items. -/
def sameItems : List Json → List Json → Bool
  | [], [] => true
  | x :: xs, y :: ys => same x y && sameItems xs ys
  | _, _ => false
termination_by structural x => x

/-- Every member of the first list is in the second one with an equal value. -/
def sameMembers : List (String × Json) → List (String × Json) → Bool
  | [], _ => true
  | (k, v) :: ms, ns =>
      (match member? ns k with
        | some w => same v w
        | none => false) && sameMembers ms ns
termination_by structural x => x

end

end Json

end CoachLedger
