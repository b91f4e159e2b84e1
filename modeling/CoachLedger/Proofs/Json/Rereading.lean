/-
**Values that are read again.**

A plain value is nested no deeper than texts may be, its numbers are in range, and the names of each
object differ and are not the reserved one.  It is read again when it is written, each number in it
being what that number is read as.  How many items an array has does not matter to this; where items
are counted, the counts have to be in range as well.

Main definitions:

* `CoachLedger.Json.IsPlain` — plain values of a depth, with arrays of the given sizes;
* `CoachLedger.Json.IsLegible`, `CoachLedger.Json.IsCounted` — those with arrays of any size, and
  those whose items 64 bits can count;
* `CoachLedger.Json.reread` — the value with each number reread.

Main results:

* `CoachLedger.Json.IsPlain.read?_text` — **plain values are read again**.
-/

import CoachLedger.Proofs.Json.Faithful
import CoachLedger.Proofs.Json.Numbers

set_option autoImplicit false

namespace CoachLedger.Json

/-! ### Plain values -/

/-- **The value is plain where that many levels of arrays and objects are left**: it has no more of
them, its numbers are in range, its arrays have allowed sizes, and the names in an object differ and
are not the reserved one. -/
inductive IsPlain (sized : Nat → Prop) : Nat → Json → Prop
  | null {depth : Nat} : IsPlain sized depth .null
  | bool {depth : Nat} (b : Bool) : IsPlain sized depth (.bool b)
  | number {depth : Nat} {n : Numeral} (h : n.IsInRange) : IsPlain sized depth (.number n)
  | string {depth : Nat} (s : String) : IsPlain sized depth (.string s)
  | array {depth : Nat} {items : List Json} (size : sized items.length)
      (h : ∀ v ∈ items, IsPlain sized depth v) : IsPlain sized (depth + 1) (.array items)
  | object {depth : Nat} {members : List (String × Json)} (names : (members.map Prod.fst).Nodup)
      (unreserved : ∀ m ∈ members, m.1 ≠ embeddingName)
      (h : ∀ m ∈ members, IsPlain sized depth m.2) : IsPlain sized (depth + 1) (.object members)

/-- A plain value with arrays of any size, which can be read. -/
abbrev IsLegible (depth : Nat) (v : Json) : Prop :=
  v.IsPlain (fun _ => True) depth

/-- A plain value whose arrays have no more items than 64 bits can count. -/
abbrev IsCounted (depth : Nat) (v : Json) : Prop :=
  v.IsPlain (· ≤ Numeral.maxNatural) depth

section

variable {sized : Nat → Prop} {depth : Nat} {v : Json}

/-- Arrays of allowed sizes have sizes that more is allowed of. -/
theorem IsPlain.resize (h : v.IsPlain sized depth) {sized' : Nat → Prop}
    (hsized : ∀ n, sized n → sized' n) : v.IsPlain sized' depth := by
  induction h with
  | null => exact .null
  | bool b => exact .bool b
  | number h => exact .number h
  | string s => exact .string s
  | array size h ih => exact .array (hsized _ size) ih
  | object names unreserved h ih => exact .object names unreserved ih

/-- What has arrays of the given sizes is legible. -/
theorem IsPlain.isLegible (h : v.IsPlain sized depth) : v.IsLegible depth :=
  h.resize fun _ _ => trivial

end

/-! ### Reading again -/

mutual

/-- The value with each number reread. -/
def reread : Json → Json
  | null => null
  | bool b => bool b
  | number n => number n.reread
  | string s => string s
  | array items => array (rereadItems items)
  | object members => object (rereadMembers members)
termination_by structural v => v

/-- The items, each with its numbers reread. -/
def rereadItems : List Json → List Json
  | [] => []
  | v :: vs => reread v :: rereadItems vs
termination_by structural vs => vs

/-- The members, each value with its numbers reread. -/
def rereadMembers : List (String × Json) → List (String × Json)
  | [] => []
  | (k, v) :: ms => (k, reread v) :: rereadMembers ms
termination_by structural ms => ms

end

theorem rereadItems_eq (vs : List Json) : rereadItems vs = vs.map reread := by
  induction vs with
  | nil => rfl
  | cons v vs ih => rw [rereadItems, ih, List.map_cons]

theorem rereadMembers_eq (ms : List (String × Json)) :
    rereadMembers ms = ms.map fun m => (m.1, m.2.reread) := by
  induction ms with
  | nil => rfl
  | cons m ms ih => rw [rereadMembers, ih, List.map_cons]

section

variable {sized : Nat → Prop} {depth : Nat} {v : Json}

theorem IsPlain.comesBackAs (h : v.IsPlain sized depth) : v.ComesBackAs depth v.reread := by
  induction h with
  | null => exact ⟨_, stands_null, fun _ => rfl⟩
  | bool b => exact ⟨_, stands_bool b, fun _ => rfl⟩
  | number h => exact ⟨_, stands_number (Numeral.read?_text_eq h), fun _ => rfl⟩
  | string s => exact ⟨_, stands_string s, fun _ => rfl⟩
  | array size h ih =>
      rw [reread, rereadItems_eq]
      exact comesBackAs_array ih
  | object names unreserved h ih =>
      rw [reread, rereadMembers_eq]
      refine comesBackAs_object names ?_ ih
      intro hhead
      obtain ⟨m, hm, hname⟩ := Option.map_eq_some_iff.1 hhead
      exact unreserved m (List.mem_of_head? hm) hname

/-- **Plain values are read again**, each number in them being reread. -/
theorem IsPlain.read?_text (h : v.IsPlain sized maxDepth) : read? v.text = some v.reread :=
  h.comesBackAs.read?_text

end

end CoachLedger.Json
