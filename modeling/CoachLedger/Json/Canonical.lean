/-
**Canonical texts of JSON values.**

Two values that differ only in the order of members have the same canonical text: the members of
every object are sorted by name, names being compared by code points.

Main definitions:

* `CoachLedger.Json.sorted` — the value with the members of every object sorted;
* `CoachLedger.Json.canonical` — the text of the sorted value.
-/

import CoachLedger.Json.Writer
import CoachLedger.Text.Fold

set_option autoImplicit false

namespace CoachLedger.Json

/-- A member goes before another if its name is not the greater one. -/
def nameLE (a b : String × Json) : Bool :=
  (Text.order a.1 b.1).isLE

mutual

/-- The value with the members of every object sorted by name. -/
def sorted : Json → Json
  | null => null
  | bool b => bool b
  | number n => number n
  | string s => string s
  | array items => array (sortedItems items)
  | object members => object ((sortedMembers members).mergeSort nameLE)
termination_by structural v => v

/-- The items, each with its objects sorted. -/
def sortedItems : List Json → List Json
  | [] => []
  | v :: vs => sorted v :: sortedItems vs
termination_by structural vs => vs

/-- The members in their order, each value with its objects sorted. -/
def sortedMembers : List (String × Json) → List (String × Json)
  | [] => []
  | (k, v) :: ms => (k, sorted v) :: sortedMembers ms
termination_by structural ms => ms

end

/-- The canonical text of a value. -/
def canonical (v : Json) : String :=
  v.sorted.text

end CoachLedger.Json
