/-
**Reading JSON values.**

A text denotes a value if its tree has no fault, every number and string in it has a value, and
arrays and objects are not nested deeper than a limit.  An object with a repeated name keeps the
place of the first member and the value of the last.

One name is reserved: an object whose first member has this name has no other member, and stands
for the value that the text in it denotes.  The nesting within such an embedded text is counted
from its own start.

Main definitions:

* `CoachLedger.Json.maxDepth` — the deepest nesting that a text may have;
* `CoachLedger.Json.embeddingName` — the reserved name;
* `CoachLedger.Json.Tree.value?` — the value of a tree within a depth;
* `CoachLedger.Json.Tree.isWhole` — no part of a tree lacks a value, embedded texts apart;
* `CoachLedger.Json.read?` — the value of a text.

Main results:

* `CoachLedger.Json.Tree.value?_embedding` — the value of an object that embeds a text.
-/

import CoachLedger.Json.Tree

set_option autoImplicit false

namespace CoachLedger.Json

/-- The deepest nesting of arrays and objects that is read. -/
def maxDepth : Nat := 127

/-- The name that marks an object as one that embeds a text. -/
def embeddingName : String := "$serde_json::private::RawValue"

namespace Tree

/-- The members are those of an object that embeds a text, or was meant to. -/
def isEmbedding : List (Option String × Tree) → Bool
  | (some name, _) :: _ => name == embeddingName
  | _ => false

/-- The text that an object embeds, if it has the right form. -/
def embeddedText? : List (Option String × Tree) → Option String
  | [(_, string (some s))] => some s
  | _ => none

mutual

/-- The value of a tree, which may have `depth` levels of arrays and objects; `embedded` reads the
texts that are embedded in it. -/
def value? (embedded : String → Option Json) (depth : Nat) : Tree → Option Json
  | null => some .null
  | bool b => some (.bool b)
  | number n => n.map .number
  | string s => s.map .string
  | array items =>
      match depth with
      | 0 => none
      | depth + 1 => (items? embedded depth [] items).map .array
  | object members =>
      match depth with
      | 0 => none
      | depth + 1 =>
          if isEmbedding members then (embeddedText? members).bind embedded
          else (members? embedded depth [] members).map .object
  | fault => none
termination_by structural t => t

/-- The values of a list of trees, after the values in `reversed`. -/
def items? (embedded : String → Option Json) (depth : Nat) (reversed : List Json) :
    List Tree → Option (List Json)
  | [] => some reversed.reverse
  | t :: ts =>
      match value? embedded depth t with
      | some v => items? embedded depth (v :: reversed) ts
      | none => none
termination_by structural ts => ts

/-- The members of an object, assigned one after the other to the given ones. -/
def members? (embedded : String → Option Json) (depth : Nat) (assigned : List (String × Json)) :
    List (Option String × Tree) → Option (List (String × Json))
  | [] => some assigned
  | (name, t) :: ts =>
      match name, value? embedded depth t with
      | some name, some v => members? embedded depth (assign assigned name v) ts
      | _, _ => none
termination_by structural ts => ts

end

mutual

/-- Every name, number and string in the tree has a value, and it has at most `depth` levels of
arrays and objects. -/
def isWhole (depth : Nat) : Tree → Bool
  | null | bool _ => true
  | number n => n.isSome
  | string s => s.isSome
  | array items =>
      match depth with
      | 0 => false
      | depth + 1 => areWhole depth items
  | object members =>
      match depth with
      | 0 => false
      | depth + 1 => membersAreWhole depth members
  | fault => false
termination_by structural t => t

/-- The same for each tree of a list. -/
def areWhole (depth : Nat) : List Tree → Bool
  | [] => true
  | t :: ts => isWhole depth t && areWhole depth ts
termination_by structural ts => ts

/-- The same for each member of an object. -/
def membersAreWhole (depth : Nat) : List (Option String × Tree) → Bool
  | [] => true
  | (name, t) :: ts => name.isSome && isWhole depth t && membersAreWhole depth ts
termination_by structural ts => ts

end

/-- The value of an object that embeds a text is the value of the text. -/
theorem value?_embedding (embedded : String → Option Json) (depth : Nat) (text : String) :
    value? embedded (depth + 1) (object [(some embeddingName, string (some text))]) =
      embedded text := by
  simp [value?, isEmbedding, embeddedText?]

end Tree

/-- The value of a text with at most `levels` texts one inside the other, itself included. -/
def readWithin : Nat → String → Option Json
  | 0, _ => none
  | levels + 1, text =>
      let o := outline text
      if o.complete then o.root.value? (readWithin levels) maxDepth else none

/-- The value of a text.  An embedded text is shorter than the text around it, so there are no more
texts one inside the other than there are characters. -/
def read? (text : String) : Option Json :=
  readWithin (text.length + 1) text

end CoachLedger.Json
