/-
**Changes between two snapshots.**

The audit log keeps of two snapshots only what differs, as two parallel fragments.  Equal values
have no fragments.  Of two objects the members that differ are kept, each as a whole; of two
arrays the changes of the paired entries, an object being tagged with what identifies it; and of
anything else both values.

Main definitions:

* `CoachLedger.Audit.Change` — two fragments;
* `CoachLedger.Audit.change?` — the change between two values.

Main results:

* `CoachLedger.Audit.sides_eq` — the entries of an array are compared by `change?`.
-/

import CoachLedger.Audit.Alignment

set_option autoImplicit false

namespace CoachLedger.Audit

/-- The parts of two snapshots that differ. -/
structure Change where
  old : Json
  new : Json

/-! ### Objects -/

/-- The value of a member; a missing one is null. -/
def valueOf (members : List (String × Json)) (name : String) : Json :=
  (Json.member? members name).getD .null

/-- The names of the members of two objects: those of the old one, then those only in the new
one. -/
def allNames (olds news : List (String × Json)) : List String :=
  olds.map Prod.fst ++
    ((news.map Prod.fst).filter fun name => !(olds.map Prod.fst).contains name)

/-- The names whose values differ in their canonical texts. -/
def changedNames (olds news : List (String × Json)) : List String :=
  (allNames olds news).filter fun name =>
    (valueOf olds name).canonical != (valueOf news name).canonical

/-- The change between two objects. -/
def changeOfMembers? (olds news : List (String × Json)) : Option Change :=
  match changedNames olds news with
  | [] => none
  | names =>
      some ⟨.object (names.map fun name => (name, valueOf olds name)),
        .object (names.map fun name => (name, valueOf news name))⟩

/-! ### Arrays -/

/-- The member that carries the tag of an entry. -/
def tagField : String := "_id"

/-- The tag of a pair of entries: the value of the chosen member or of `id`, the new entry going
before the old one, or else the position. -/
def tagOf (o : Options) (old new : Json) (position : Nat) : Json :=
  let found (name : String) : Option Json := (present? new name).or (present? old name)
  ((found o.identityField).or (found fallbackField)).getD (.ofNat position)

/-- An object with the tag as its first member; other fragments have no tag. -/
def withTag (tag : Json) : Json → Json
  | .object members => .object ((tagField, tag) :: members.filter fun m => m.1 != tagField)
  | fragment => fragment

/-- An entry of the old array, and its change against an entry of the new one. -/
structure Side where
  value : Json
  against : Json → Option Change

/-- The change from nothing to a value. -/
def appearance? (new : Json) : Option Change :=
  if new.isNull then none else some ⟨.null, new⟩

/-- The old side of an entry without an old partner. -/
def Side.absent : Side := ⟨.null, appearance?⟩

/-- The tagged change of a pair of entries. -/
def changeOfPair? (o : Options) (olds : List Side) (news : List Json) (p : Pair) : Option Change :=
  let old := (p.old.bind fun i => olds[i]?).getD Side.absent
  let new := (p.new.bind fun j => news[j]?).getD .null
  (old.against new).map fun c =>
    let tag := tagOf o old.value new p.position
    ⟨withTag tag c.old, withTag tag c.new⟩

/-- The change between two arrays. -/
def changeOfItems? (o : Options) (olds : List Side) (news : List Json) : Option Change :=
  match (align o (olds.map Side.value) news).filterMap (changeOfPair? o olds news) with
  | [] => none
  | changes => some ⟨.array (changes.map Change.old), .array (changes.map Change.new)⟩

/-! ### Values -/

mutual

/-- The change between two values; none if they are equal. -/
def change? (o : Options) (old new : Json) : Option Change :=
  if old.same new then none
  else
    match old, new with
    | .array xs, .array ys => changeOfItems? o (sides o xs) ys
    | .object ms, .object ns => changeOfMembers? ms ns
    | _, _ => some ⟨old, new⟩
termination_by structural old

/-- The entries of an array as old sides. -/
def sides (o : Options) : List Json → List Side
  | [] => []
  | x :: xs => ⟨x, change? o x⟩ :: sides o xs
termination_by structural xs => xs

end

/-- The entries of an array are compared by `change?`. -/
theorem sides_eq (o : Options) (xs : List Json) :
    sides o xs = xs.map fun x => ⟨x, change? o x⟩ := by
  induction xs with
  | nil => rfl
  | cons x xs ih => simp [sides, ih]

/-- An entry that appears is compared with null. -/
theorem change?_null (o : Options) (new : Json) : change? o .null new = appearance? new := by
  cases new <;> rfl

end CoachLedger.Audit
